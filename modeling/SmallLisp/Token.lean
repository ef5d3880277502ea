import SmallLisp.Text.Quoted

/-!
# Tokens

The lexical units of a program text: the two parentheses, texts between double quotes, and words.
A word is an integer, a float or a symbol.  A token keeps the characters it was read from, for a
text without its quotes, and a number token also keeps its value.
-/

namespace SmallLisp

/-- What a token is. -/
inductive TokenKind where
  /-- No lexical unit of the language. -/
  | invalid
  /-- An open parenthesis. -/
  | openList
  /-- A closed parenthesis. -/
  | closeList
  /-- A whole number with its value. -/
  | integer (n : Int64)
  /-- A float with its value. -/
  | float (x : Float)
  /-- A text between double quotes. -/
  | string
  /-- Any other word. -/
  | symbol
deriving DecidableEq, Inhabited

/-- How a kind of token is named. -/
def TokenKind.name : TokenKind → String
  | invalid => "invalid"
  | openList => "open_list"
  | closeList => "close_list"
  | integer _ => "integer"
  | float _ => "float"
  | string => "string"
  | symbol => "symbol"

/-- A lexical unit. -/
structure Token where
  /-- What it is. -/
  kind : TokenKind
  /-- The characters it was read from. -/
  text : String
deriving DecidableEq, Inhabited

/-- How a message shows a token. -/
def Token.describe (t : Token) : String :=
  "(:" ++ t.kind.name ++ " " ++ Text.quoted t.text ++ ")"

end SmallLisp
