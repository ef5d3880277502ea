import SmallLisp.Number.Radix
import SmallLisp.Yaml.Timestamp

/-!
# YAML scalars

A scalar is a piece of text.  Only a plain one can be more than a text: it may stand for nothing,
for a truth value, for a number or for a date, as its spelling says, and as a key it may ask for
another mapping to be merged.  `Scalar.meaning` finds out.  The tag of a meaning is how messages
name its type.
-/

namespace SmallLisp.Yaml

/-- A text, with the way it is written. -/
structure Scalar where
  /-- The text, with quotes taken off, escapes resolved and lines joined. -/
  text : String
  /-- Whether it stands as it is, with nothing around or in front of it. -/
  plain : Bool
deriving DecidableEq

/-- What a scalar stands for. -/
inductive Meaning where
  /-- No value. -/
  | null
  /-- A truth value. -/
  | bool (b : Bool)
  /-- A whole number, signed or unsigned, of 64 bits. -/
  | int (n : Int)
  /-- Any other number. -/
  | float (x : Float)
  /-- A date. -/
  | timestamp
  /-- The key whose value is merged into its mapping. -/
  | merge
  /-- A text. -/
  | str

/-- How messages name the type of a meaning. -/
def Meaning.tag : Meaning → String
  | null => "!!null"
  | bool _ => "!!bool"
  | int _ => "!!int"
  | float _ => "!!float"
  | timestamp => "!!timestamp"
  | merge => "!!merge"
  | str => "!!str"

/-- Whether characters are all digits, at least `least` and at most `most` of them. -/
def isDigits (least most : Nat) (cs : List Char) : Bool :=
  least ≤ cs.length && cs.length ≤ most && cs.all Number.isDigit

/-- Whether a text is spelled like a decimal number: digits with at most one point, and perhaps an
exponent. -/
def isDecimal (cs : List Char) : Bool :=
  let cs := (Number.splitSign cs).2
  let whole := cs.takeWhile Number.isDigit
  let rest := cs.dropWhile Number.isDigit
  let (fraction, rest) : List Char × List Char :=
    match rest with
    | '.' :: cs => (cs.takeWhile Number.isDigit, cs.dropWhile Number.isDigit)
    | cs => ([], cs)
  let ending : Bool :=
    match rest with
    | [] => true
    | c :: cs => (c == 'e' || c == 'E') && isDigits 1 cs.length (Number.splitSign cs).2
  (!whole.isEmpty || !fraction.isEmpty) && ending

/-- The whole number that a text spells: signed or unsigned, in the base that it names.  After `0b`
and `0o` the digits may have a sign of their own. -/
def wholeNumber? (cs : List Char) : Option Int :=
  match Number.readSigned cs, Number.readUnsigned cs with
  | .ok n, _ => some n
  | .error _, .ok n => some n
  | .error _, .error _ =>
    match cs with
    | '0' :: 'b' :: digits => (Number.readSignedIn 2 digits).toOption
    | '0' :: 'o' :: digits => (Number.readSignedIn 8 digits).toOption
    | _ => none

/-- The number or date that a plain scalar spells, if it starts like one. -/
def numberMeaning (cs : List Char) : Meaning :=
  if isTimestamp cs then .timestamp
  else
    let digits := cs.filter (· != '_')
    match wholeNumber? digits with
    | some n => .int n
    | none =>
      match if isDecimal digits then Number.readFloat? digits else none with
      | some x => .float x
      | none => .str

/-- What a plain scalar stands for. -/
def plainMeaning (text : String) : Meaning :=
  let infinite (negative : Bool) : Meaning :=
    .float (Number.ofCode negative Number.infinityCode)
  match text with
  | "" | "~" | "null" | "Null" | "NULL" => .null
  | "<<" => .merge
  | "true" | "True" | "TRUE" => .bool true
  | "false" | "False" | "FALSE" => .bool false
  | ".inf" | ".Inf" | ".INF" | "+.inf" | "+.Inf" | "+.INF" => infinite false
  | "-.inf" | "-.Inf" | "-.INF" => infinite true
  | ".nan" | ".NaN" | ".NAN" => .float (Number.ofCode false (Number.infinityCode + 1))
  | text =>
    match text.toList with
    | [] => .null
    | c :: cs =>
      if c = '.' then
        match Number.readFloat? (c :: cs) with
        | some x => .float x
        | none => .str
      else if Number.isDigit c || Number.isSign c then numberMeaning (c :: cs)
      else .str

/-- What a scalar stands for. -/
def Scalar.meaning (s : Scalar) : Meaning :=
  if s.plain then plainMeaning s.text else .str

end SmallLisp.Yaml
