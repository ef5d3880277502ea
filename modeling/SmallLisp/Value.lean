import SmallLisp.Keyword

/-!
# Values

One type serves as the syntax of programs and as the data they compute.  A list plays three parts:
a form read from a text, a plain list of values, and the results of a program.

A lambda holds parameter names and a body that has not been evaluated.  It holds no frame: names in
the body mean what they mean where the lambda is called.

`Value.same` is the language's own equality.  It compares trees, and floats by their numeric value,
so zero equals minus zero and a float that is no number differs from itself.

What is read has strings for its texts and names, and so has all that is computed from it.  Only a
value that does not come from a program may have other texts, such as bytes that spell no character.
-/

namespace SmallLisp

/-- A node of a program, or a value that a program computes, with texts and names of a type. -/
inductive Value (τ : Type := String) where
  /-- The absence of a value. -/
  | void
  /-- A whole number of 64 bits. -/
  | int (n : Int64)
  /-- A double-precision number. -/
  | float (x : Float)
  /-- A truth value. -/
  | bool (b : Bool)
  /-- A text. -/
  | str (text : τ)
  /-- A name that stands for what the frame binds to it. -/
  | symbol (name : τ)
  /-- A reserved name. -/
  | keyword (k : Keyword)
  /-- Parameter names and a body. -/
  | lambda (params : List τ) (body : List (Value τ))
  /-- Values in order. -/
  | list (items : List (Value τ))
deriving Inhabited

/-- The variants of a value. -/
inductive Kind where
  | void
  | int
  | float
  | bool
  | str
  | symbol
  | keyword
  | lambda
  | list
deriving DecidableEq, Inhabited

namespace Kind

/-- How messages and listings name a variant. -/
def name : Kind → String
  | void => "Void"
  | int => "Integer"
  | float => "Float"
  | bool => "Bool"
  | str => "Str"
  | symbol => "Symbol"
  | keyword => "Keyword"
  | lambda => "Lambda"
  | list => "List"

/-- Integers, floats, truth values and texts are scalars. -/
def isScalar : Kind → Bool
  | int | float | bool | str => true
  | void | symbol | keyword | lambda | list => false

end Kind

namespace Value

variable {τ : Type}

/-- The variant of a value. -/
def kind : Value τ → Kind
  | void => .void
  | int _ => .int
  | float _ => .float
  | bool _ => .bool
  | str _ => .str
  | symbol _ => .symbol
  | keyword _ => .keyword
  | lambda _ _ => .lambda
  | list _ => .list

/-- Whether a value is an integer, a float, a truth value or a text. -/
def isScalar (v : Value τ) : Bool :=
  v.kind.isScalar

/-- Whether a value is the absence of one. -/
def isVoid : Value τ → Bool
  | void => true
  | _ => false

mutual

/-- The language's equality: the same tree, with floats compared as numbers. -/
def same [BEq τ] : Value τ → Value τ → Bool
  | void, void => true
  | int m, int n => m == n
  | float x, float y => x == y
  | bool a, bool b => a == b
  | str s, str t => s == t
  | symbol s, symbol t => s == t
  | keyword k, keyword l => k == l
  | lambda ps b, lambda qs c => ps == qs && sameAll b c
  | list xs, list ys => sameAll xs ys
  | _, _ => false

/-- Whether two lists have the same length and equal values at each place. -/
def sameAll [BEq τ] : List (Value τ) → List (Value τ) → Bool
  | [], [] => true
  | x :: xs, y :: ys => same x y && sameAll xs ys
  | _, _ => false

end

end Value

end SmallLisp
