/-!
# Keywords

Eight names are reserved.  A word spelled like one of them is always a keyword and never a symbol,
so a program cannot bind them.  Six of them head a special form, and `true` and `false` stand for
whatever the frame binds to them.

`unnamed` is a keyword that no text spells: its name and its help text are empty.
-/

namespace SmallLisp

/-- A reserved form name. -/
inductive Keyword where
  /-- A keyword without a name. -/
  | unnamed
  /-- `if` -/
  | ifElse
  /-- `define` -/
  | define
  /-- `true` -/
  | trueName
  /-- `false` -/
  | falseName
  /-- `lambda` -/
  | lambda
  /-- `print` -/
  | print
  /-- `equal` -/
  | equal
  /-- `load` -/
  | load
deriving DecidableEq, Inhabited

namespace Keyword

/-- The eight keywords that have a name. -/
def named : List Keyword :=
  [ifElse, define, trueName, falseName, lambda, print, equal, load]

/-- How a keyword is spelled. -/
def name : Keyword → String
  | unnamed => ""
  | ifElse => "if"
  | define => "define"
  | trueName => "true"
  | falseName => "false"
  | lambda => "lambda"
  | print => "print"
  | equal => "equal"
  | load => "load"

/-- The help text of a keyword, empty where there is none. -/
def help : Keyword → String
  | ifElse => "Conditional if"
  | define => "Define a symbol"
  | lambda => "define a Lambda function"
  | print => "Print a value"
  | equal => "Check if two values are equal"
  | load => "Load a file"
  | unnamed | trueName | falseName => ""

/-- The keyword spelled by a word. -/
def ofName? (word : String) : Option Keyword :=
  named.find? (·.name == word)

/-- A keyword with a name is found by it. -/
theorem ofName?_name {k : Keyword} (h : k ∈ named) : ofName? k.name = some k := by
  revert k
  decide

/-- What is found is spelled as asked. -/
theorem name_of_ofName? {word : String} {k : Keyword} (h : ofName? word = some k) :
    k.name = word := by
  simpa using List.find?_some h

end Keyword

end SmallLisp
