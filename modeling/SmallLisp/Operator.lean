/-!
# Operators

The twelve binary operators on numbers.  A form headed by the name of one is always that operation,
whatever the frame binds to the name.
-/

namespace SmallLisp

/-- A binary operation on numbers. -/
inductive Operator where
  | add
  | sub
  | mul
  | div
  | rem
  | pow
  | lt
  | gt
  | eq
  | ne
  | ge
  | le
deriving DecidableEq, Inhabited

namespace Operator

/-- Every operator. -/
def all : List Operator :=
  [add, sub, mul, div, rem, pow, lt, gt, eq, ne, ge, le]

/-- How an operator is spelled. -/
def name : Operator → String
  | add => "+"
  | sub => "-"
  | mul => "*"
  | div => "/"
  | rem => "%"
  | pow => "^"
  | lt => "<"
  | gt => ">"
  | eq => "=="
  | ne => "!="
  | ge => ">="
  | le => "<="

/-- The operator spelled by a name. -/
def ofName? (word : String) : Option Operator :=
  all.find? (·.name == word)

/-- Every operator is found by its name. -/
theorem ofName?_name (op : Operator) : ofName? op.name = some op := by
  cases op <;> decide

/-- What is found is spelled as asked. -/
theorem name_of_ofName? {word : String} {op : Operator} (h : ofName? word = some op) :
    op.name = word := by
  simpa using List.find?_some h

end Operator

/-- The name of the operation that joins the texts of two scalars. -/
def concatName : String := "concat"

end SmallLisp
