import SmallLisp.Error
import SmallLisp.Number.Power

/-!
# Arithmetic

What the binary operators compute.  Two integers stay integers, and a float on either side turns
both into floats.  Integers wrap around at 64 bits, division cuts off toward zero, and the two
operations without an answer fail: division by zero and a negative exponent.  Float operations
always have an answer.

The six comparisons are the same for both kinds of numbers, from what is less, greater and equal.
-/

namespace SmallLisp

/-- A number of either kind. -/
inductive Numeric where
  | int (n : Int64)
  | float (x : Float)

namespace Numeric

/-- The number that a value is. -/
def ofValue? : Value → Option Numeric
  | .int n => some (int n)
  | .float x => some (float x)
  | _ => none

/-- A number as a float. -/
def toFloat : Numeric → Float
  | int n => Number.ofInt64 n
  | float x => x

end Numeric

namespace Operator

/-- A comparison of two numbers, told whether the first is less, is greater and is equal.  The other
operators compare nothing. -/
def compare (op : Operator) (less greater equal : Bool) : Except Error Value :=
  match op with
  | lt => .ok (.bool less)
  | gt => .ok (.bool greater)
  | eq => .ok (.bool equal)
  | ne => .ok (.bool !equal)
  | ge => .ok (.bool (greater || equal))
  | le => .ok (.bool (less || equal))
  | op => .error (.invalidOperator op)

/-- An operation on integers. -/
def onIntegers (op : Operator) (l r : Int64) : Except Error Value :=
  match op with
  | add => .ok (.int (l + r))
  | sub => .ok (.int (l - r))
  | mul => .ok (.int (l * r))
  | div => if r = 0 then .error (.divisionByZero l op r) else .ok (.int (l / r))
  | rem => if r = 0 then .error (.divisionByZero l op r) else .ok (.int (l % r))
  | pow =>
    if r < 0 then .error (.negativeExponent l r)
    else .ok (.int (Number.wrappingPower l r.toInt.toNat))
  | op => op.compare (l < r) (r < l) (l == r)

/-- An operation on floats. -/
def onFloats (op : Operator) (l r : Float) : Except Error Value :=
  match op with
  | add => .ok (.float (l + r))
  | sub => .ok (.float (l - r))
  | mul => .ok (.float (l * r))
  | div => .ok (.float (l / r))
  | rem => .ok (.float (Number.remainder l r))
  | pow => .ok (.float (Number.power l r))
  | op => op.compare (l < r) (r < l) (l == r)

/-- The number that an operand is. -/
def operand (op : Operator) (v : Value) : Except Error Numeric :=
  match Numeric.ofValue? v with
  | some n => .ok n
  | none => .error (.notANumber op v.kind)

/-- An operation on two values.  The left operand is looked at first. -/
def apply (op : Operator) (left right : Value) : Except Error Value := do
  let l ← op.operand left
  let r ← op.operand right
  match l, r with
  | .int m, .int n => op.onIntegers m n
  | l, r => op.onFloats l.toFloat r.toFloat

end Operator

/-- The texts of two scalars, one after the other.  The left operand is looked at first. -/
def concatenate (left right : Value) : Except Error Value :=
  if !left.isScalar then .error (.notAScalar left.kind)
  else if !right.isScalar then .error (.notAScalar right.kind)
  else .ok (.str (left.text ++ right.text))

end SmallLisp
