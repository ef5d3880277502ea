import SmallLisp.Number.Shortest
import SmallLisp.Text.Type
import SmallLisp.Value

/-!
# Texts of a value

Four ways to write a value.

* `text` is what a program prints.  A text is not quoted.
* `describe` puts the variant in front.
* `source` is program text that reads back as the value, where it has such a form.  Texts are
  quoted, a whole float keeps a point so that it stays a float, and `void` is nothing at all.
* `outline` is a listing with one line for each node, indented by its level.

`shown?` is how a session shows a result: the items of a list one after the other, and nothing at
all for no value and for the empty list.
-/

namespace SmallLisp.Value

/-! ## What a program prints -/

/-- The text of a truth value. -/
def boolText (b : Bool) : String :=
  if b then "true" else "false"

mutual

/-- The text of a value. -/
def text : Value → String
  | void => "Void"
  | int n => Number.integerText n
  | float x => Number.floatText x
  | bool b => boolText b
  | str s => s
  | symbol name => name
  | keyword k => k.name
  | lambda params body =>
    "Lambda(" ++ Text.spaced params ++ ") (" ++ Text.spaced (texts body) ++ ")"
  | list items => "(" ++ Text.spaced (texts items) ++ ")"

/-- The text of each value. -/
def texts : List Value → List String
  | [] => []
  | v :: vs => text v :: texts vs

end

/-- The text of a value after its variant.  An integer is introduced by a shorter word than its
variant has elsewhere. -/
def describe (v : Value) : String :=
  match v with
  | int n => "Int: " ++ text (int n)
  | v => v.kind.name ++ ": " ++ text v

/-! ## Program text -/

/-- The text of a float with a point in it, unless it is not finite. -/
def floatSource (x : Float) : String :=
  let t := Number.floatText x
  if Number.isFinite x && !t.toList.contains '.' then t ++ ".0" else t

section

open TextType

variable {τ : Type} [TextType τ]

mutual

/-- Program text that reads back as the value, where it has such a form. -/
def source : Value τ → τ
  | void => ofString ""
  | int n => ofString (Number.integerText n)
  | float x => ofString (floatSource x)
  | bool b => ofString (boolText b)
  | str s => ofString "\"" ++ s ++ ofString "\""
  | symbol name => name
  | keyword k => ofString k.name
  | lambda params body =>
    ofString "(lambda (" ++ Text.spaced params ++ ofString ") (" ++ Text.spaced (sources body) ++
      ofString "))"
  | list items => ofString "(" ++ Text.spaced (sources items) ++ ofString ")"

/-- The program text of each value. -/
def sources : List (Value τ) → List τ
  | [] => []
  | v :: vs => source v :: sources vs

end

end

/-! ## Listings -/

/-- The space in front of a line at a level. -/
def indent (level : Nat) : String :=
  String.ofList (List.replicate (4 * level) ' ')

mutual

/-- Adds the lines of a value at a level: its variant, then the number of items of a list, the
parameters of a lambda or the program text of anything else, then the lines of what it holds. -/
def outlineOnto (lines : String) (level : Nat) : Value → String
  | list items =>
    outlinesOnto (lines ++ indent level ++ "(List): [" ++ toString items.length ++ "]\n")
      (level + 1) items
  | lambda params body =>
    outlinesOnto (lines ++ indent level ++ "(Lambda): [" ++ Text.spaced params ++ "]\n")
      (level + 1) body
  | v => lines ++ indent level ++ "(" ++ v.kind.name ++ "): " ++ source v ++ "\n"

/-- Adds the lines of each value at a level. -/
def outlinesOnto (lines : String) (level : Nat) : List Value → String
  | [] => lines
  | v :: vs => outlinesOnto (outlineOnto lines level v) level vs

end

/-- A listing of a value, one line for each node. -/
def outline (v : Value) : String :=
  outlineOnto "" 0 v

/-! ## Results -/

/-- Strings one after the other, a comma and a space between neighbours. -/
def commaSeparated : List String → String
  | [] => ""
  | [s] => s
  | s :: t :: rest => s ++ ", " ++ commaSeparated (t :: rest)

/-- How a session shows a result; `none` when there is nothing to show. -/
def shown? : Value → Option String
  | void => none
  | list [] => none
  | list items => some (commaSeparated (texts items))
  | v => some (text v)

end SmallLisp.Value
