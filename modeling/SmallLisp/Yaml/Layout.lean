import SmallLisp.Yaml.Style
import SmallLisp.Yaml.Token

/-!
# The layout of a YAML text

`tokensOf` cuts a text into tokens.  On the way it keeps track of the blocks that are open, each
with its column, and of the brackets that are open.

A line further left than a block ends the block.  A dash, or the start of a key, that stands further
right than every open block starts one.  Inside brackets there are no blocks.

A key needs no mark of its own, so it is known as one only when its colon comes.  Until then the
token at which it starts is a *candidate*; there is at most one candidate for each open bracket and
one outside.  The colon has to come on the same line and at most `longestKey` characters after the
start of the candidate.  A candidate at the column of the innermost block must become a key, because
nothing else can stand there.

A token counts once two more have been seen, and a candidate not before it is decided.  The one
exception is a bracket that closes before anything in it could start a key: it is not *awaited*, and
becomes a key only if the colon is the next token.

A text may be malformed behind its first document.  The tokens in front of the fault that count are
then still good; they are what `Layout.visible` gives.
-/

namespace SmallLisp.Yaml

/-- How many characters may stand between the start of a key and its colon. -/
def longestKey : Nat := 1024

/-- How deep blocks and brackets may nest. -/
def deepest : Nat := 10000

/-- A token that may turn out to start a key. -/
structure Candidate where
  /-- How many tokens are in front of it. -/
  before : Nat
  /-- Where it starts. -/
  start : Place
  /-- Whether it has to become a key. -/
  required : Bool
  /-- Whether it counts only when it is decided. -/
  awaited : Bool := true

/-- Whether a colon at this place makes a candidate a key. -/
def Candidate.reaches (c : Candidate) (p : Place) : Bool :=
  c.start.line == p.line && p.index ≤ c.start.index + longestKey

/-- What is within a bracket, or outside all brackets. -/
structure Level where
  /-- The candidate. -/
  candidate : Option Candidate := none
  /-- How many tokens are in front of the last candidate; as long as there was none, in front of the
  bracket. -/
  latest : Nat := 0

/-- A level after a bracket within it has closed whose level had `latest`.  If the bracket is the
candidate and nothing in it could start a key, it is no longer awaited. -/
def Level.afterBracket (l : Level) (latest : Nat) : Level :=
  { l with
    candidate := l.candidate.map fun c => { c with awaited := c.awaited && c.before != latest } }

/-- A text that has been cut into tokens up to some place. -/
structure Layout where
  /-- The place. -/
  cursor : Cursor
  /-- The tokens in front of it, the last one first. -/
  tokens : List Token := []
  /-- The number of tokens. -/
  count : Nat := 0
  /-- The columns of the open blocks, the innermost one first. -/
  blocks : List Nat := []
  /-- What is within the innermost bracket. -/
  level : Level := {}
  /-- What is around each open bracket, the innermost one first. -/
  outer : List Level := []
  /-- Whether a key may start here. -/
  keys : Bool := true
  /-- Whether the text has ended. -/
  ended : Bool := false

namespace Layout

/-- Whether a bracket is open. -/
def inBrackets (s : Layout) : Bool :=
  !s.outer.isEmpty

/-- The place up to which the text has been cut. -/
def place (s : Layout) : Place :=
  s.cursor.place

/-- Adds a token behind the first `n`. -/
def insert (s : Layout) (n : Nat) (t : Token) : Layout :=
  let later := s.count - n
  { s with tokens := s.tokens.take later ++ t :: s.tokens.drop later, count := s.count + 1 }

/-- Adds a token at the end. -/
def push (s : Layout) (t : Token) : Layout :=
  { s with tokens := t :: s.tokens, count := s.count + 1 }

/-- Adds a token of some characters at the end. -/
def take (s : Layout) (n : Nat) (kind : TokenKind) : Layout :=
  { s.push ⟨kind, s.place.line⟩ with cursor := s.cursor.skip n }

/-! ## Blocks -/

/-- Ends the blocks at column `least` and further right. -/
def closeFrom (s : Layout) (least : Nat) : Layout :=
  if s.inBrackets then s
  else
    let closed := s.blocks.takeWhile (least ≤ ·)
    { closed.foldl (fun s _ => s.push ⟨.blockEnd, s.place.line⟩) s with
      blocks := s.blocks.drop closed.length }

/-- Starts a block at a place behind the first `n` tokens, if it is further right than the innermost
block. -/
def openBlock (s : Layout) (kind : TokenKind) (n : Nat) (p : Place) : Option Layout :=
  if s.inBrackets || s.blocks.head?.any (p.column ≤ ·) then some s
  else if deepest ≤ s.blocks.length then none
  else some { s.insert n ⟨kind, p.line⟩ with blocks := p.column :: s.blocks }

/-- Starts a block at the current place, where a key must be allowed; inside brackets there is
nothing to do. -/
def openHere (s : Layout) (kind : TokenKind) : Option Layout :=
  if s.inBrackets then some s
  else if s.keys then s.openBlock kind s.count s.place
  else none

/-! ## Candidates -/

/-- Gives up the candidate, which fails if it has to become a key. -/
def dropCandidate (s : Layout) : Option Layout :=
  match s.level.candidate with
  | none => some s
  | some c =>
    if c.required then none else some { s with level := { s.level with candidate := none } }

/-- Makes the next token a candidate, if a key may start here. -/
def saveCandidate (s : Layout) : Option Layout :=
  if s.keys then
    s.dropCandidate.map fun s =>
      let candidate : Candidate :=
        { before := s.count
          start := s.place
          required := !s.inBrackets && s.blocks.head? == some s.place.column }
      { s with level := { candidate := some candidate, latest := s.count } }
  else some s

/-! ## Tokens -/

/-- A bracket that opens. -/
def openBracket (s : Layout) (kind : TokenKind) : Option Layout := do
  let s ← s.saveCandidate
  if deepest ≤ s.outer.length then none
  else
    some
      { s.take 1 kind with
        level := { latest := s.count }
        outer := s.level :: s.outer
        keys := true }

/-- A bracket that closes. -/
def closeBracket (s : Layout) (kind : TokenKind) : Option Layout := do
  let s ← s.dropCandidate
  let s := { s.take 1 kind with keys := false }
  match s.outer with
  | [] => some s
  | l :: outer => some { s with level := l.afterBracket s.level.latest, outer }

/-- A comma. -/
def takeComma (s : Layout) : Option Layout :=
  s.dropCandidate.map fun s => { s.take 1 .comma with keys := true }

/-- The dash of an item. -/
def takeItem (s : Layout) : Option Layout := do
  let s ← s.openHere .blockSequence
  let s ← s.dropCandidate
  some { s.take 1 .item with keys := true }

/-- A question mark, which starts a key of any kind. -/
def takeKey (s : Layout) : Option Layout := do
  let s ← s.openHere .blockMapping
  let s ← s.dropCandidate
  some { s.take 1 .key with keys := !s.inBrackets }

/-- A colon behind a key of any kind. -/
def takePlainValue (s : Layout) : Option Layout :=
  (s.openHere .blockMapping).map fun s => { s.take 1 .value with keys := !s.inBrackets }

/-- Makes a candidate a key.  One that counts already as something else stays what it is, and then
the key starts here. -/
def makeKey (s : Layout) (c : Candidate) : Option Layout :=
  let n := if c.awaited || s.count ≤ c.before + 2 then c.before else s.count
  let level := { s.level with candidate := none }
  { s.insert n ⟨.key, c.start.line⟩ with level, keys := false }.openBlock .blockMapping n c.start

/-- A colon, which makes the candidate a key if it can. -/
def takeValue (s : Layout) : Option Layout :=
  match s.level.candidate with
  | none => s.takePlainValue
  | some c =>
    if c.reaches s.place then (s.makeKey c).map (·.take 1 .value)
    else s.dropCandidate.bind takePlainValue

/-- A scalar between quotes. -/
def takeQuoted (s : Layout) : Option Layout := do
  let s ← s.saveCandidate
  let (text, cursor) ← s.cursor.readQuoted
  some { s.push ⟨.scalar ⟨text, false⟩, s.place.line⟩ with cursor, keys := false }

/-- A plain scalar.  A key may start behind it if it ends with its line; otherwise a comment may
follow it. -/
def takePlain (s : Layout) : Option Layout := do
  let s ← s.saveCandidate
  let least := match s.blocks with
    | [] => 0
    | column :: _ => column + 1
  let (text, broken, cursor) ← s.cursor.readPlain s.inBrackets least
  let cursor ← if broken then some cursor else cursor.skipNote
  some { s.push ⟨.scalar ⟨text, true⟩, s.place.line⟩ with cursor, keys := broken }

/-- A block of lines. -/
def takeBlock (s : Layout) : Option Layout := do
  let s ← s.dropCandidate
  let (text, cursor) ← s.cursor.readBlock s.blocks.head?
  some { s.push ⟨.scalar ⟨text, false⟩, s.place.line⟩ with cursor, keys := true }

/-- The end of the text. -/
def finish (s : Layout) : Option Layout :=
  (s.closeFrom 0).dropCandidate.map fun s => { s.take 0 .textEnd with keys := false, ended := true }

/-- The mark that starts or ends a document. -/
def takeMark (s : Layout) (kind : TokenKind) : Option Layout :=
  (s.closeFrom 0).dropCandidate.map fun s => { s.take 3 kind with keys := false }

/-- Passes over a comment behind the last token. -/
def skipNote (s : Layout) : Option Layout :=
  s.cursor.skipNote.map ({ s with cursor := · })

/-- The token that starts with these characters, none if there is no such token. -/
def takeToken (s : Layout) : List Char → Option Layout
  | [] => s.finish
  | c :: cs =>
    if s.place.column = 0 && startsDocument (c :: cs) then s.takeMark .documentStart
    else if s.place.column = 0 && endsDocument (c :: cs) then s.takeMark .documentEnd
    else if c = '[' then (s.openBracket .openSequence).bind skipNote
    else if c = '{' then (s.openBracket .openMapping).bind skipNote
    else if c = ']' then (s.closeBracket .closeSequence).bind skipNote
    else if c = '}' then (s.closeBracket .closeMapping).bind skipNote
    else if c = ',' then s.takeComma.bind skipNote
    else if c = '-' && startsBlank cs then s.takeItem
    else if c = '?' && (s.inBrackets || startsBlank cs) then s.takeKey.bind skipNote
    else if c = ':' && (s.inBrackets || startsBlank cs) then s.takeValue.bind skipNote
    else if (c = '|' || c = '>') && !s.inBrackets then s.takeBlock
    else if c = '\'' || c = '"' then s.takeQuoted.bind skipNote
    else if startsPlain s.inBrackets (c :: cs) then s.takePlain
    else none

/-- The layout with the next token, none if the text is malformed there.  Blocks to the right of the
token end in front of it. -/
def next? (s : Layout) : Option Layout := do
  let (cursor, keys) ← s.cursor.skipGap s.inBrackets s.keys
  let cursor ← cursor.look 4
  ({ s with cursor, keys }.closeFrom (cursor.place.column + 1)).takeToken cursor.rest

/-! ## Texts -/

/-- Whether a candidate is not decided yet. -/
def isPending (s : Layout) (c : Candidate) : Bool :=
  c.awaited && (c.required || c.reaches s.place)

/-- The tokens that count although the text is malformed behind them. -/
def visible (s : Layout) : List Token :=
  let pending := ((s.level :: s.outer).filterMap Level.candidate).filter s.isPending
  s.tokens.reverse.take (pending.foldl (fun n c => min n c.before) (s.count - 2))

/-- The tokens from here to the end, or to where the text is malformed.  Every step but the last
takes a character, so the number of characters is enough for `steps`. -/
def tokensFrom : (steps : Nat) → Layout → List Token
  | 0, s => s.visible
  | steps + 1, s =>
    match s.next? with
    | none => s.visible
    | some s => if s.ended then s.tokens.reverse else tokensFrom steps s

end Layout

/-- The tokens of a text. -/
def tokensOf (text : Pieces) : List Token :=
  Layout.tokensFrom (text.characters.length + 1) { cursor := Cursor.start text }

example :
    (tokensOf ⟨["a:\n- b".toList], false⟩).map Token.kind =
      [.blockMapping, .key, .scalar ⟨"a", true⟩, .value, .item, .scalar ⟨"b", true⟩, .blockEnd,
        .textEnd] := by
  decide +kernel

end SmallLisp.Yaml
