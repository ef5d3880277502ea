import SmallLisp.Yaml.Layout
import SmallLisp.Yaml.Node

/-!
# YAML documents

`Document.read` reads the first document of a text.  The text may be empty, and then there is none.
A document may be started by a mark, and then it may also be empty.  Behind the first document
nothing is read but the token that ends it, and nothing is decoded but the pieces that are looked at
on the way.

Anchors, aliases, tags and directives are not part of the language that is read here.
-/

namespace SmallLisp.Yaml

/-- What a text holds. -/
inductive Document where
  /-- Nothing but blanks and comments. -/
  | empty
  /-- A first document with this root. -/
  | root (node : Node)

namespace Document

/-- The document whose root is at the front of the tokens; a token has to follow it. -/
def ofRoot (ts : List Token) : Option Document := do
  let (node, after) ← Node.ofTokens ts
  if after.isEmpty then none else some (.root node)

/-- The document behind the mark that starts it. -/
def afterMark : List Token → Option Document
  | [] => none
  | t :: ts =>
    match t.kind with
    | .documentStart | .documentEnd | .textEnd => some (.root (.absent t.line))
    | _ => ofRoot (t :: ts)

/-- The first document of tokens. -/
def ofTokens : List Token → Option Document
  | [] => none
  | t :: ts =>
    match t.kind with
    | .textEnd => some .empty
    | .documentStart => afterMark ts
    | _ => ofRoot (t :: ts)

/-- Reads the first document of a text; none if it is malformed. -/
def read (bytes : List UInt8) : Option Document :=
  ofTokens (tokensOf (Pieces.ofBytes bytes))

end Document

end SmallLisp.Yaml
