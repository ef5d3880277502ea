import SmallLisp.Eval.Arithmetic

/-!
# What an operator gives

`Operator.Applies` lists all that the application of an operator to two values can come to.  Two
numbers give a value whose variant the operator and the variants of the numbers determine
(`Operator.resultKind`).  Two integers may instead have no answer, for one of the reasons of
`Operator.Faults`.  Anything else is refused, since an operand is no number.

What an operator computes on integers, what it computes on floats and what it compares are three
separate tables.  `applies_apply` says that together they cover every operator: the error of a
comparison that is none is not in the list.
-/

namespace SmallLisp

/-- Integers and floats are numbers. -/
def Kind.isNumeric : Kind → Bool
  | int | float => true
  | _ => false

namespace Operator

/-- The variant of what an operator gives for numbers of two variants. -/
def resultKind (op : Operator) (left right : Kind) : Kind :=
  match op with
  | add | sub | mul | div | rem | pow => if left = .int ∧ right = .int then .int else .float
  | lt | gt | eq | ne | ge | le => .bool

theorem resultKind_cases (op : Operator) (left right : Kind) :
    op.resultKind left right = .int ∨ op.resultKind left right = .float ∨
      op.resultKind left right = .bool := by
  cases op with
  | add | sub | mul | div | rem | pow =>
    by_cases h : left = .int ∧ right = .int
    · exact .inl (if_pos h)
    · exact .inr (.inl (if_neg h))
  | _ => exact .inr (.inr rfl)

/-- An operation on two integers has no answer, for this reason. -/
inductive Faults : Operator → Int64 → Int64 → Error → Prop where
  | div (l : Int64) : Faults div l 0 (.divisionByZero l div 0)
  | rem (l : Int64) : Faults rem l 0 (.divisionByZero l rem 0)
  | pow (l : Int64) {r : Int64} (h : r < 0) : Faults pow l r (.negativeExponent l r)

theorem Faults.onIntegers_eq {op : Operator} {l r : Int64} {e : Error} (h : op.Faults l r e) :
    op.onIntegers l r = .error e := by
  cases h with
  | div | rem => rfl
  | pow _ h => exact if_pos h

/-- What an operator gives for two values. -/
inductive Applies (op : Operator) : Value → Value → Except Error Value → Prop where
  | value {left right v : Value} (hleft : left.kind.isNumeric = true)
      (hright : right.kind.isNumeric = true)
      (hkind : v.kind = op.resultKind left.kind right.kind) : Applies op left right (.ok v)
  | fault {l r : Int64} {e : Error} (h : op.Faults l r e) :
      Applies op (.int l) (.int r) (.error e)
  | left {left : Value} (right : Value) (h : left.kind.isNumeric = false) :
      Applies op left right (.error (.notANumber op left.kind))
  | right (left : Value) {right : Value} (h : right.kind.isNumeric = false) :
      Applies op left right (.error (.notANumber op right.kind))

theorem onIntegers_applies (op : Operator) (l r : Int64) :
    Applies op (.int l) (.int r) (op.onIntegers l r) := by
  cases op with
  | div =>
    rw [onIntegers]
    split
    · next h => exact h ▸ .fault (.div l)
    · exact .value rfl rfl rfl
  | rem =>
    rw [onIntegers]
    split
    · next h => exact h ▸ .fault (.rem l)
    · exact .value rfl rfl rfl
  | pow =>
    rw [onIntegers]
    split
    · next h => exact .fault (.pow l h)
    · exact .value rfl rfl rfl
  | _ => exact .value rfl rfl rfl

/-- Floats always have an answer, and it is not an integer. -/
theorem onFloats_applies (op : Operator) {left right : Value} (hleft : left.kind.isNumeric = true)
    (hright : right.kind.isNumeric = true) (h : ¬ (left.kind = .int ∧ right.kind = .int))
    (x y : Float) : Applies op left right (op.onFloats x y) := by
  cases op with
  | add | sub | mul | div | rem | pow => exact .value hleft hright (if_neg h).symm
  | _ => exact .value hleft hright rfl

theorem applies_apply (op : Operator) (left right : Value) :
    Applies op left right (op.apply left right) := by
  cases left with
  | int m =>
    cases right with
    | int n => exact onIntegers_applies op m n
    | float y => exact onFloats_applies op rfl rfl (by simp [Value.kind]) _ y
    | _ => exact .right _ rfl
  | float x =>
    cases right with
    | int n => exact onFloats_applies op rfl rfl (by simp [Value.kind]) x _
    | float y => exact onFloats_applies op rfl rfl (by simp [Value.kind]) x y
    | _ => exact .right _ rfl
  | _ => exact .left _ rfl

end Operator

end SmallLisp
