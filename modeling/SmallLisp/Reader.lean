import SmallLisp.Token.Scanner
import SmallLisp.Value

/-!
# Reading a program

A program is one list.  `Reader.read` takes it off the front of the tokens: an open parenthesis,
items, and the closed parenthesis that belongs to it.  Lists that are still open wait on a stack,
the innermost first, so that reading is one pass over the tokens.

A reader can be asked again.  Each call leaves the tokens that it did not use, and the next call
starts there.  A call that reads a list and finds tokens after it fails, and leaves those tokens.
-/

namespace SmallLisp

/-- Why a text is no program. -/
inductive ReadError where
  /-- The text has no tokens. -/
  | scan (e : ScanError)
  /-- The tokens ended inside a list, or there were none. -/
  | endOfTokens
  /-- The first token opens no list. -/
  | noList (t : Token)
  /-- A token that is no item. -/
  | notAnItem (t : Token)
  /-- A token after the list. -/
  | trailing (t : Token)

namespace Reader

/-- The value of a word that is no number: a keyword if it spells one, else a symbol. -/
def wordValue (name : String) : Value :=
  match Keyword.ofName? name with
  | some k => .keyword k
  | none => .symbol name

/-- Reads the items of a list up to the parenthesis that closes it.  `items` are those read, the
last one first; `outer` are the items of the lists around it, the innermost list first. -/
def readItems (items : List Value) (outer : List (List Value)) :
    List Token → Except ReadError Value × List Token
  | [] => (.error .endOfTokens, [])
  | t :: ts =>
    match t.kind with
    | .integer n => readItems (.int n :: items) outer ts
    | .float x => readItems (.float x :: items) outer ts
    | .string => readItems (.str t.text :: items) outer ts
    | .symbol => readItems (wordValue t.text :: items) outer ts
    | .openList => readItems [] (items :: outer) ts
    | .closeList =>
      let list := Value.list items.reverse
      match outer with
      | [] => (.ok list, ts)
      | above :: outer => readItems (list :: above) outer ts
    | .invalid => (.error (.notAnItem t), ts)

/-- Reads one list off the front of the tokens. -/
def readList : List Token → Except ReadError Value × List Token
  | [] => (.error .endOfTokens, [])
  | t :: ts => if t.kind = .openList then readItems [] [] ts else (.error (.noList t), ts)

/-- Reads one list and expects no token after it.  The tokens that are left are the second part. -/
def read (tokens : List Token) : Except ReadError Value × List Token :=
  match readList tokens with
  | (.ok v, []) => (.ok v, [])
  | (.ok _, t :: ts) => (.error (.trailing t), t :: ts)
  | (.error e, rest) => (.error e, rest)

/-- The answers of `times` calls, one after the other, on the same tokens. -/
def readTimes : (times : Nat) → List Token → List (Except ReadError Value)
  | 0, _ => []
  | times + 1, tokens =>
    let (answer, rest) := read tokens
    answer :: readTimes times rest

end Reader

/-- The program that a text spells. -/
def parseText (cs : List Char) : Except ReadError Value :=
  match tokenizeText cs with
  | .error e => .error (.scan e)
  | .ok tokens => (Reader.read tokens).1

/-- The program that the bytes of a text spell. -/
def parse (bytes : List UInt8) : Except ReadError Value :=
  parseText (Text.decode bytes)

end SmallLisp
