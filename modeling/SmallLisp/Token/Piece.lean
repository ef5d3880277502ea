import SmallLisp.Number.Literal
import SmallLisp.Text.Blank
import SmallLisp.Token

/-!
# Pieces of a text

A text is cut into pieces before any of them is judged.  Outside double quotes a parenthesis is a
piece of its own, and a word is a longest run of characters that are neither blank nor a
parenthesis nor a quote.  From one quote to the next everything belongs to one piece, and a quote
that no other follows leaves a piece that is not closed.  Blanks outside quotes only separate.

What the rest of a text is cut into depends on whether a quote is open in front of it and on
nothing else, so the cut is found from the right: `Cuts` holds both answers for the characters that
follow, and `Cuts.push` finds both answers with one more character in front.

A piece then is a token, or one of the two things that are not: a word that starts like a number
and is none, and a text that is not closed.
-/

namespace SmallLisp

/-- A part of a text. -/
inductive Piece where
  /-- An open parenthesis. -/
  | opening
  /-- A closed parenthesis. -/
  | closing
  /-- A run of other characters. -/
  | word (cs : List Char)
  /-- What stands between two quotes. -/
  | text (cs : List Char)
  /-- What stands after the last quote when their number is odd. -/
  | unclosed (cs : List Char)
deriving DecidableEq

/-- Whether a character ends a word. -/
def isWordBreak (c : Char) : Bool :=
  Text.isBlank c || c == '(' || c == ')' || c == '"'

/-- How a text is cut, seen from its front. -/
structure Cut where
  /-- The characters in front of the first break: a word, or the text up to a quote. -/
  run : List Char
  /-- Whether a break follows the run, rather than the end. -/
  broken : Bool
  /-- The pieces after the run. -/
  rest : List Piece

/-- The pieces of a text that no quote is open in front of. -/
def Cut.pieces (k : Cut) : List Piece :=
  if k.run.isEmpty then k.rest else .word k.run :: k.rest

/-- The pieces of a text that follows an open quote. -/
def Cut.quotedPieces (k : Cut) : List Piece :=
  (if k.broken then .text k.run else .unclosed k.run) :: k.rest

/-- How a text is cut in either state. -/
structure Cuts where
  /-- With no quote open in front of it. -/
  outside : Cut
  /-- With a quote open in front of it. -/
  inside : Cut

/-- The two cuts of the empty text. -/
def Cuts.nil : Cuts :=
  { outside := ⟨[], false, []⟩, inside := ⟨[], false, []⟩ }

/-- The two cuts with one more character in front. -/
def Cuts.push (c : Char) (k : Cuts) : Cuts :=
  { outside :=
      if c = '(' then ⟨[], true, .opening :: k.outside.pieces⟩
      else if c = ')' then ⟨[], true, .closing :: k.outside.pieces⟩
      else if c = '"' then ⟨[], true, k.inside.quotedPieces⟩
      else if Text.isBlank c then ⟨[], true, k.outside.pieces⟩
      else { k.outside with run := c :: k.outside.run }
    inside :=
      if c = '"' then ⟨[], true, k.outside.pieces⟩
      else { k.inside with run := c :: k.inside.run } }

/-- How a text is cut in either state. -/
def cuts (cs : List Char) : Cuts :=
  cs.foldr Cuts.push Cuts.nil

/-- The pieces of a text. -/
def pieces (cs : List Char) : List Piece :=
  (cuts cs).outside.pieces

@[simp] theorem cuts_nil : cuts [] = Cuts.nil := rfl

@[simp] theorem cuts_cons (c : Char) (cs : List Char) : cuts (c :: cs) = (cuts cs).push c := rfl

/-! ## Judging a piece -/

/-- Why a text has no tokens. -/
inductive ScanError where
  /-- The numbers of open and closed parentheses outside quotes differ. -/
  | unbalanced
  /-- A quote that nothing closes, with the text after it. -/
  | unterminated (text : String)
  /-- A word that starts like a number and is none. -/
  | badNumber (word : String)
deriving DecidableEq

/-- Whether a word starts like a number: with a digit, or with a sign and a digit. -/
def startsNumber : List Char → Bool
  | [] => false
  | [c] => Number.isDigit c
  | c :: d :: _ => Number.isDigit c || (Number.isSign c && Number.isDigit d)

/-- The token of a word: an integer if it is one, else a float, and a symbol if it does not start
like a number. -/
def wordToken (cs : List Char) : Except ScanError Token :=
  let text := String.ofList cs
  if startsNumber cs then
    match Number.readInteger? cs with
    | some n => .ok ⟨.integer n, text⟩
    | none =>
      match Number.readFloat? cs with
      | some x => .ok ⟨.float x, text⟩
      | none => .error (.badNumber text)
  else .ok ⟨.symbol, text⟩

/-- The token that a piece is. -/
def Piece.token : Piece → Except ScanError Token
  | opening => .ok ⟨.openList, "("⟩
  | closing => .ok ⟨.closeList, ")"⟩
  | word cs => wordToken cs
  | text cs => .ok ⟨.string, String.ofList cs⟩
  | unclosed cs => .error (.unterminated (String.ofList cs))

/-- A sign in front of a digit belongs to the number, and any other sign is a symbol. -/
example : pieces "(- -1 \"a b\")".toList =
    [.opening, .word ['-'], .word ['-', '1'], .text ['a', ' ', 'b'], .closing] := by decide

end SmallLisp
