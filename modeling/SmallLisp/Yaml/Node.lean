import SmallLisp.Yaml.Token

/-!
# YAML nodes

A node is a scalar, a sequence or a mapping, and knows the line on which it starts.  `readNode`
builds one from the tokens at the front.  A node that is left out is an empty plain scalar.

The sequence that is the value of a key may stand at the column of that key.  It is then *compact*:
no token says where it starts or ends, only the dashes of its items do.

The readers take an amount of fuel.  Of two calls inside each other that use some, at least one has
taken a token since the other, so two more than twice the number of tokens is enough.
-/

namespace SmallLisp.Yaml

/-- A part of a document. -/
inductive Node where
  /-- A text. -/
  | scalar (line : Nat) (s : Scalar)
  /-- Nodes in order. -/
  | sequence (line : Nat) (items : List Node)
  /-- Pairs of a key and a value, in order. -/
  | mapping (line : Nat) (entries : List (Node × Node))

namespace Node

/-- A node that is not there. -/
def absent (line : Nat) : Node :=
  .scalar line ⟨"", true⟩

/-- The line on which a node starts. -/
def line : Node → Nat
  | scalar line _ => line
  | sequence line _ => line
  | mapping line _ => line

/-- The text of a scalar; other nodes have none. -/
def text : Node → String
  | scalar _ s => s.text
  | sequence _ _ => ""
  | mapping _ _ => ""

/-- Whether two nodes count as the same key: they are of one kind and have the same text. -/
def sameKey : Node → Node → Bool
  | scalar _ s, scalar _ t => s.text == t.text
  | sequence _ _, sequence _ _ => true
  | mapping _ _, mapping _ _ => true
  | _, _ => false

end Node

/-- A node at the front of some tokens, with the tokens that follow it.  There is none if the tokens
are malformed, or end too early. -/
abbrev Front : Type :=
  Option (Node × List Token)

/-- Reads a node, unless the next token says that it is left out. -/
def orAbsent (read : List Token → Front) (line : Nat) (leftOut : TokenKind → Bool)
    (ts : List Token) : Front :=
  match ts with
  | [] => none
  | t :: _ => if leftOut t.kind then some (.absent line, ts) else read ts

/-- Reads the value of an entry inside brackets, which ends at a comma or at `close`. -/
def flowValue (read : List Token → Front) (close : TokenKind) : List Token → Front
  | [] => none
  | t :: ts =>
    if t.kind = .value then orAbsent read t.line (fun k => k = .comma || k = close) ts
    else some (.absent t.line, t :: ts)

/-- What follows the comma in front of an item or entry other than the first. -/
def afterComma (first : Bool) (close : TokenKind) : List Token → Option (List Token)
  | [] => none
  | t :: ts =>
    if first || t.kind = close then some (t :: ts)
    else if t.kind = .comma then some ts
    else none

/-- Reads an entry that is an item of a sequence inside brackets, behind the mark of its key.  If
the key is left out, the token in its place is passed over. -/
def pairItem (read : List Token → Front) (line : Nat) (ts : List Token) : Front := do
  let (key, ts) ←
    match ts with
    | [] => none
    | t :: rest =>
      if t.kind = .value || t.kind = .comma || t.kind = .closeSequence then
        some (.absent t.line, rest)
      else read ts
  let (value, ts) ← flowValue read .closeSequence ts
  some (.mapping line [(key, value)], ts)

mutual

/-- Reads a node.  With `block` it may be a block, and with `compact` a compact sequence. -/
def readNode : (fuel : Nat) → (block compact : Bool) → List Token → Front
  | 0, _, _, _ => none
  | _ + 1, _, _, [] => none
  | fuel + 1, block, compact, t :: ts =>
    match t.kind with
    | .scalar s => some (.scalar t.line s, ts)
    | .openSequence => flowItems fuel t.line [] ts
    | .openMapping => flowEntries fuel t.line [] ts
    | .blockSequence => if block then blockItems fuel t.line [] ts else none
    | .blockMapping => if block then blockEntries fuel t.line [] ts else none
    | .item => if compact then compactItems fuel t.line [] (t :: ts) else none
    | _ => none

/-- Reads the items of a block. -/
def blockItems : (fuel line : Nat) → (done : List Node) → List Token → Front
  | 0, _, _, _ => none
  | _ + 1, _, _, [] => none
  | fuel + 1, line, done, t :: ts =>
    match t.kind with
    | .item => do
      let (v, ts) ←
        orAbsent (readNode fuel true false) t.line (fun k => k = .item || k = .blockEnd) ts
      blockItems fuel line (v :: done) ts
    | .blockEnd => some (.sequence line done.reverse, ts)
    | _ => none

/-- Reads the items of a compact sequence, which anything but a dash ends. -/
def compactItems : (fuel line : Nat) → (done : List Node) → List Token → Front
  | 0, _, _, _ => none
  | _ + 1, _, _, [] => none
  | fuel + 1, line, done, t :: ts =>
    match t.kind with
    | .item => do
      let (v, ts) ←
        orAbsent (readNode fuel true false) t.line
          (fun k => k = .item || k = .key || k = .value || k = .blockEnd) ts
      compactItems fuel line (v :: done) ts
    | _ => some (.sequence line done.reverse, t :: ts)

/-- Reads the entries of a block. -/
def blockEntries : (fuel line : Nat) → (done : List (Node × Node)) → List Token → Front
  | 0, _, _, _ => none
  | _ + 1, _, _, [] => none
  | fuel + 1, line, done, t :: ts =>
    match t.kind with
    | .key => do
      let leftOut (k : TokenKind) : Bool := k = .key || k = .value || k = .blockEnd
      let (key, ts) ← orAbsent (readNode fuel true true) t.line leftOut ts
      let (value, ts) ←
        match ts with
        | [] => none
        | u :: rest =>
          if u.kind = .value then orAbsent (readNode fuel true true) u.line leftOut rest
          else some (.absent u.line, ts)
      blockEntries fuel line ((key, value) :: done) ts
    | .blockEnd => some (.mapping line done.reverse, ts)
    | _ => none

/-- Reads the items between brackets.  One that starts with a key is a mapping with one entry. -/
def flowItems : (fuel line : Nat) → (done : List Node) → List Token → Front
  | 0, _, _, _ => none
  | fuel + 1, line, done, ts => do
    let ts ← afterComma done.isEmpty .closeSequence ts
    match ts with
    | [] => none
    | t :: rest =>
      match t.kind with
      | .closeSequence => some (.sequence line done.reverse, rest)
      | .key => do
        let (v, ts) ← pairItem (readNode fuel false false) t.line rest
        flowItems fuel line (v :: done) ts
      | _ => do
        let (v, ts) ← readNode fuel false false ts
        flowItems fuel line (v :: done) ts

/-- Reads the entries between brackets.  A node that no key starts is a key without a value. -/
def flowEntries : (fuel line : Nat) → (done : List (Node × Node)) → List Token → Front
  | 0, _, _, _ => none
  | fuel + 1, line, done, ts => do
    let ts ← afterComma done.isEmpty .closeMapping ts
    match ts with
    | [] => none
    | t :: rest =>
      match t.kind with
      | .closeMapping => some (.mapping line done.reverse, rest)
      | .key => do
        let (key, ts) ←
          orAbsent (readNode fuel false false) t.line
            (fun k => k = .value || k = .comma || k = .closeMapping) rest
        let (value, ts) ← flowValue (readNode fuel false false) .closeMapping ts
        flowEntries fuel line ((key, value) :: done) ts
      | _ => do
        let (key, ts) ← readNode fuel false false ts
        flowEntries fuel line ((key, .absent key.line) :: done) ts

end

/-- The node at the front of the tokens. -/
def Node.ofTokens (ts : List Token) : Front :=
  readNode (2 * ts.length + 2) true false ts

end SmallLisp.Yaml
