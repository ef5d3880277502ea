import SmallLisp.Yaml.Scalar

/-!
# YAML tokens

The tokens of a text are its scalars, the characters that give it structure, and marks for what the
layout says without a character: where a block of items or entries starts and ends, and where a key
starts.  Every token knows its line.
-/

namespace SmallLisp.Yaml

/-- The kinds of tokens. -/
inductive TokenKind where
  /-- The mark that starts a document. -/
  | documentStart
  /-- The mark that ends a document. -/
  | documentEnd
  /-- The end of the text. -/
  | textEnd
  /-- The start of a sequence that indentation holds together. -/
  | blockSequence
  /-- The start of a mapping that indentation holds together. -/
  | blockMapping
  /-- The end of such a sequence or mapping. -/
  | blockEnd
  /-- An opening square bracket. -/
  | openSequence
  /-- A closing square bracket. -/
  | closeSequence
  /-- An opening curly bracket. -/
  | openMapping
  /-- A closing curly bracket. -/
  | closeMapping
  /-- A comma. -/
  | comma
  /-- The dash of an item. -/
  | item
  /-- The start of a key. -/
  | key
  /-- The colon in front of a value. -/
  | value
  /-- A scalar. -/
  | scalar (s : Scalar)
deriving DecidableEq

/-- A token. -/
structure Token where
  /-- What it is. -/
  kind : TokenKind
  /-- The line on which it starts. -/
  line : Nat
deriving DecidableEq

end SmallLisp.Yaml
