import SmallLisp.Text.Utf8
import SmallLisp.Token.Piece

/-!
# Scanning

`tokenize` turns the bytes of a text into tokens.  Parentheses are counted first, by a pass of their
own over the characters: if the text has as many open as closed ones outside quotes, each piece is
judged in order, and the first one that is no token is the error.

A `Scanner` goes through the characters one by one and can be asked again.  It keeps its place in
the text, the characters that it holds for the next token, the tokens and the last error.  A scan
goes on from there to the next word or text that is no token, or to the end.  What is wrong stays
held when a scan stops at it.  Once a scan has failed the scanner has no tokens, and later scans
that meet no new error report the last one again.
-/

namespace SmallLisp

/-- How many parentheses were passed, and whether a quote is open. -/
structure Balance where
  /-- Open parentheses outside quotes. -/
  opened : Nat := 0
  /-- Closed parentheses outside quotes. -/
  closed : Nat := 0
  /-- Whether a quote is open. -/
  quoted : Bool := false
deriving DecidableEq

/-- Counts one more character. -/
def Balance.push (b : Balance) (c : Char) : Balance :=
  if c = '"' then { b with quoted := !b.quoted }
  else if b.quoted then b
  else if c = '(' then { b with opened := b.opened + 1 }
  else if c = ')' then { b with closed := b.closed + 1 }
  else b

/-- Whether a text has as many open as closed parentheses outside quotes. -/
def isBalanced (cs : List Char) : Bool :=
  let b := cs.foldl Balance.push {}
  b.opened == b.closed

/-- The tokens of a text. -/
def tokenizeText (cs : List Char) : Except ScanError (List Token) :=
  if isBalanced cs then (pieces cs).mapM Piece.token else .error .unbalanced

/-- The tokens of the text that the bytes spell. -/
def tokenize (bytes : List UInt8) : Except ScanError (List Token) :=
  tokenizeText (Text.decode bytes)

/-! ## Repeated scans -/

/-- A place in a text, with what the scans so far have found. -/
structure Scanner where
  /-- The whole text. -/
  source : List Char
  /-- The characters that no scan has reached. -/
  rest : List Char
  /-- The characters that are held for the next token, the last one first. -/
  held : List Char
  /-- The tokens found, the last one first. -/
  found : List Token
  /-- The last error. -/
  failure : Option ScanError

namespace Scanner

/-- A scanner at the start of a text. -/
def start (bytes : List UInt8) : Scanner :=
  let cs := Text.decode bytes
  { source := cs, rest := cs, held := [], found := [], failure := none }

/-- The tokens found, in order. -/
def tokens (s : Scanner) : List Token :=
  s.found.reverse

/-- The text of the characters that are held. -/
def heldText (s : Scanner) : String :=
  String.ofList s.held.reverse

/-- Makes a token of the characters that are held. -/
def emit (s : Scanner) (kind : TokenKind) : Scanner :=
  { s with held := [], found := ⟨kind, s.heldText⟩ :: s.found }

/-- Holds the characters up to the first that fails the test. -/
def hold (s : Scanner) (test : Char → Bool) : Scanner :=
  { s with rest := s.rest.dropWhile test, held := (s.rest.takeWhile test).reverse ++ s.held }

/-- What a scanner is about to do. -/
inductive Mode where
  /-- Look for the start of a token. -/
  | between
  /-- Read a text up to its closing quote. -/
  | quoted
  /-- Read on in a word that starts like a number. -/
  | number
  /-- Read on in any other word. -/
  | symbol
  /-- Make a token of what is held. -/
  | emit (kind : TokenKind)
  /-- Stop with an error. -/
  | fail (e : ScanError)

/-- What to do after a character that stands between tokens or is the first of one.  A sign belongs
to a number if a digit comes next. -/
def Mode.after (c : Char) (rest : List Char) : Mode :=
  if c = '(' then .emit .openList
  else if c = ')' then .emit .closeList
  else if c = '"' then .quoted
  else if Text.isBlank c then .between
  else if Number.isDigit c || (Number.isSign c && rest.head?.any Number.isDigit) then .number
  else .symbol

/-- The number that characters spell: an integer if they spell one, else a float. -/
def numberKind? (cs : List Char) : Option TokenKind :=
  match Number.readInteger? cs with
  | some n => some (.integer n)
  | none => (Number.readFloat? cs).map .float

/-- What a scanner does in a mode, and the mode that follows unless it stops.  Quotes and blanks are
not held, and nothing is held once they have been read. -/
def step (s : Scanner) : Mode → Scanner × Option Mode
  | .between =>
    match s.rest with
    | [] => (s, none)
    | c :: rest =>
      let held := if c = '"' ∨ Text.isBlank c then [] else c :: s.held
      ({ s with rest, held }, some (.after c rest))
  | .quoted =>
    let s := s.hold (· != '"')
    match s.rest with
    | [] => (s, some (.fail (.unterminated s.heldText)))
    | _ :: rest => ({ s.emit .string with rest }, some .between)
  | .number =>
    let s := s.hold (!isWordBreak ·)
    match numberKind? s.held.reverse with
    | some kind => (s.emit kind, some .between)
    | none => (s, some (.fail (.badNumber s.heldText)))
  | .symbol => (s.hold (!isWordBreak ·), some (.emit .symbol))
  | .emit kind => (s.emit kind, some .between)
  | .fail e => ({ s with failure := some e }, none)

/-- How many modes may follow before the next character is read. -/
def Mode.rank : Mode → Nat
  | between => 0
  | emit _ | fail _ => 1
  | quoted | number | symbol => 2

theorem length_hold_le (s : Scanner) (test : Char → Bool) :
    (s.hold test).rest.length ≤ s.rest.length :=
  (List.dropWhile_suffix test).length_le

/-- A step reads a character or comes closer to one that does. -/
theorem step_lt {s s' : Scanner} {m m' : Mode} (h : s.step m = (s', some m')) :
    s'.rest.length < s.rest.length ∨
      (s'.rest.length ≤ s.rest.length ∧ m'.rank < m.rank) := by
  cases m with
  | between =>
    simp only [step] at h
    split at h
    · cases h
    · next hrest =>
      cases h
      rw [hrest]
      exact .inl (Nat.lt_succ_self _)
  | quoted =>
    have hle := length_hold_le s (· != '"')
    simp only [step] at h
    split at h
    · cases h
      exact .inr ⟨hle, Nat.one_lt_two⟩
    · next hrest =>
      cases h
      rw [hrest] at hle
      exact .inl hle
  | number =>
    have hle := length_hold_le s (!isWordBreak ·)
    simp only [step] at h
    split at h
    · cases h
      exact .inr ⟨hle, Nat.two_pos⟩
    · cases h
      exact .inr ⟨hle, Nat.one_lt_two⟩
  | symbol =>
    cases h
    exact .inr ⟨length_hold_le s _, Nat.one_lt_two⟩
  | emit kind =>
    cases h
    exact .inr ⟨Nat.le_refl _, Nat.one_pos⟩
  | fail e => cases h

/-- Takes steps until one stops. -/
def run (s : Scanner) (m : Mode) : Scanner :=
  match _hstep : s.step m with
  | (s', none) => s'
  | (s', some m') => s'.run m'
termination_by (s.rest.length, m.rank)
decreasing_by
  have hlt := step_lt _hstep
  rw [Prod.lex_def]
  omega

/-- One scan: the scanner after it, and the error that it reports.  Once a scan has failed the
tokens are dropped. -/
def scan (s : Scanner) : Scanner × Option ScanError :=
  if isBalanced s.source then
    let s := s.run .between
    ({ s with found := if s.failure.isSome then [] else s.found }, s.failure)
  else (s, some .unbalanced)

end Scanner

end SmallLisp
