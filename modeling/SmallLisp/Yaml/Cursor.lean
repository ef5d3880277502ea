import SmallLisp.Yaml.Pieces

/-!
# Places in a YAML text

A place is counted in characters, lines and columns.  A cursor is a place together with the text
from there on.

Four characters end a line: the newline, the next line control, and the line and paragraph
separators.  Within a scalar the last two stay what they are, and the others count as a newline
(`keptBreak`).  A carriage return also ends a line, alone or together with a newline after it.
`unifyBreaks` leaves a carriage return only for the two together, which are then one line break of
two characters.

A reader looks some characters ahead before it reads on (`Place.look`).  The pieces of the text up
to there come into view, and looking further than the text can be read is a fault.  If a byte order
mark stands where a piece comes into view, the view is *marked*.  As long as it is, the first
character of every line on which a token is looked for is passed over.

Between two tokens stand blanks, line breaks and comments, which `Cursor.skipGap` passes over.  A
tab counts as a blank inside brackets.  Elsewhere it does so only where no key can start, so that
tabs never indent a line.  A comment that follows another one may be indented with anything.  After
a token, `Cursor.skipNote` passes over a comment on the same line, again whatever blanks are in
front of it.
-/

namespace SmallLisp.Yaml

/-! ## Characters -/

/-- Whether a character separates words within a line. -/
def isSpace (c : Char) : Bool :=
  c == ' ' || c == '\t'

/-- Whether a character is a newline, alone or with a carriage return. -/
def isNewline (c : Char) : Bool :=
  c == '\n' || c == '\r'

/-- Whether a character ends a line. -/
def isBreak (c : Char) : Bool :=
  isNewline c || c == '\u0085' || c == '\u2028' || c == '\u2029'

/-- A line break as it stands in a scalar. -/
def keptBreak (c : Char) : Char :=
  if c == '\r' || c == '\u0085' then '\n' else c

/-- Leaves out a newline after a carriage return, and makes every other carriage return a
newline. -/
def unifyBreaks : List Char → List Char
  | [] => []
  | '\r' :: '\n' :: cs => '\r' :: unifyBreaks cs
  | c :: cs => (if c = '\r' then '\n' else c) :: unifyBreaks cs

/-- How many characters a character stands for when line breaks have been unified. -/
def width (c : Char) : Nat :=
  if c == '\r' then 2 else 1

/-- Whether what follows is a blank, a line break or the end. -/
def startsBlank : List Char → Bool
  | [] => true
  | c :: _ => isSpace c || isBreak c

/-- Whether a line starts with the mark that starts a document. -/
def startsDocument : List Char → Bool
  | '-' :: '-' :: '-' :: cs => startsBlank cs
  | _ => false

/-- Whether a line starts with the mark that ends a document. -/
def endsDocument : List Char → Bool
  | '.' :: '.' :: '.' :: cs => startsBlank cs
  | _ => false

/-! ## Places -/

/-- How much of a text is in view. -/
structure View where
  /-- How many characters are in view or behind it. -/
  stop : Nat := 0
  /-- How many there are up to the end of each later piece. -/
  later : List Nat := []
  /-- Whether what stands behind the last piece cannot be read. -/
  spoilt : Bool := false
  /-- Whether a byte order mark stood where the last piece came into view. -/
  marked : Bool := false
deriving DecidableEq

/-- Brings the first `n` characters into view, or all if there are less; none if that cannot be
done.  With `mark` a byte order mark stands here. -/
def View.reach (v : View) (n : Nat) (mark : Bool) : Option View :=
  if n ≤ v.stop then some v
  else
    match v.later.dropWhile (· < n) with
    | stop :: later => some { v with stop, later, marked := mark }
    | [] => if v.spoilt then none else some { v with stop := n, later := [], marked := mark }

/-- A place in a text. -/
structure Place where
  /-- How many characters are before it. -/
  index : Nat := 0
  /-- The number of its line, the first one being one. -/
  line : Nat := 1
  /-- How many characters of its line are before it. -/
  column : Nat := 0
  /-- What is in view from there. -/
  view : View := {}
deriving DecidableEq

namespace Place

/-- The place `n` characters further on the same line. -/
def right (p : Place) (n : Nat) : Place :=
  { p with index := p.index + n, column := p.column + n }

/-- The place after a character. -/
def after (p : Place) (c : Char) : Place :=
  if isBreak c then { p with index := p.index + width c, line := p.line + 1, column := 0 }
  else p.right 1

/-- Looks at the next `n` characters of the text from this place on; none if they cannot be
read. -/
def look (p : Place) (n : Nat) (cs : List Char) : Option Place :=
  (p.view.reach (p.index + n) (cs.head? == some Text.byteOrderMark)).map ({ p with view := · })

/-- Looks at the next character, and at a line break also at the one after it. -/
def lookOne (p : Place) (cs : List Char) : Option Place :=
  p.look (if cs.head?.any isBreak then 2 else 1) cs

/-- Whether a document starts or ends at this place, which only happens at the start of a line. -/
def isMark (p : Place) (cs : List Char) : Bool :=
  p.column == 0 && (startsDocument cs || endsDocument cs)

end Place

/-- A place with the text from there on. -/
structure Cursor where
  /-- The place. -/
  place : Place
  /-- The characters from there on. -/
  rest : List Char
deriving DecidableEq

namespace Cursor

/-- The start of a text. -/
def start (t : Pieces) : Cursor :=
  { place := { view := { later := t.ends, spoilt := t.spoilt } }
    rest := unifyBreaks t.characters }

/-- The place `n` characters further on the same line. -/
def skip (k : Cursor) (n : Nat) : Cursor :=
  { place := k.place.right n, rest := k.rest.drop n }

/-- Looks at the next `n` characters; none if they cannot be read. -/
def look (k : Cursor) (n : Nat) : Option Cursor :=
  (k.place.look n k.rest).map ({ k with place := · })

end Cursor

/-! ## Gaps -/

/-- What is being passed over between two tokens. -/
inductive GapState where
  /-- Blanks and line breaks. -/
  | blanks
  /-- A comment. -/
  | comment
  /-- What stands between two comments. -/
  | between

/-- How far ahead the next comment is looked for. -/
def lookahead : Nat := 512

/-- How far it is from a newline to the next character that is neither a blank nor a newline. -/
def gapLength (c : Char) (cs : List Char) : Nat :=
  (c :: cs.takeWhile fun c => isSpace c || isNewline c).foldl (fun n c => n + width c) 0

/-- Whether a newline stands here and nothing but blanks and newlines between it and a further
comment. -/
def commentFollows (c : Char) (cs : List Char) : Bool :=
  isNewline c && (cs.dropWhile fun c => isSpace c || isNewline c).head? == some '#' &&
    gapLength c cs < lookahead

/-- Passes over blanks, line breaks and comments; none if that cannot be read.  With `brackets` this
happens inside brackets, and `keys` says whether a key may start here.  A line break outside
brackets lets a key start. -/
def skipGap (brackets keys : Bool) (state : GapState) (p : Place) :
    List Char → Option (Cursor × Bool)
  | [] => (p.look 1 []).map fun p => (⟨p, []⟩, keys)
  | c :: cs =>
    match state with
    | .comment => do
      let p ←
        if isNewline c then p.look (min (gapLength c cs + 1) lookahead) (c :: cs)
        else p.lookOne (c :: cs)
      if commentFollows c cs then skipGap brackets keys .between (p.after c) cs
      else if isBreak c then skipGap brackets (keys || !brackets) .blanks (p.after c) cs
      else skipGap brackets keys .comment (p.after c) cs
    | .between => do
      let p ← p.lookOne (c :: cs)
      skipGap brackets keys (if c == '#' then .comment else .between) (p.after c) cs
    | .blanks => do
      let p ← p.look 1 (c :: cs)
      if p.column == 0 && p.view.marked && c != '\r' then
        skipGap brackets keys .blanks (p.right 1) cs
      else
        let p ← p.lookOne (c :: cs)
        if c == '#' then skipGap brackets keys .comment (p.after c) cs
        else if isBreak c then skipGap brackets (keys || !brackets) .blanks (p.after c) cs
        else if c == ' ' || (c == '\t' && (brackets || !keys)) then
          skipGap brackets keys .blanks (p.after c) cs
        else some (⟨p, c :: cs⟩, keys)

/-- The next place that is neither blank nor in a comment, and whether a key may start there. -/
def Cursor.skipGap (k : Cursor) (brackets keys : Bool) : Option (Cursor × Bool) :=
  Yaml.skipGap brackets keys .blanks k.place k.rest

/-- Passes over the rest of a line. -/
def skipLine (p : Place) : List Char → Option Cursor
  | [] => (p.look 1 []).map (⟨·, []⟩)
  | c :: cs => do
    let p ← p.look 1 (c :: cs)
    if isBreak c then some ⟨p, c :: cs⟩ else skipLine (p.after c) cs

/-- The place after a comment that starts on the same line; the same place if there is none. -/
def Cursor.skipNote (k : Cursor) : Option Cursor := do
  let blanks := (k.rest.takeWhile isSpace).length
  let k ← k.look (min (blanks + 1) lookahead)
  if (k.rest.drop blanks).head? == some '#' && blanks < lookahead then skipLine k.place k.rest
  else some k

example : ((Cursor.skipGap ⟨{}, " # a\n\t# b\n c".toList⟩ false true).map (·.1.rest)) =
    some ['c'] := by
  decide

example : ((Cursor.skipGap ⟨{}, " \tc".toList⟩ false true).map (·.1.rest)) =
    some ['\t', 'c'] := by
  decide

/-- What cannot be read is no fault as long as nobody looks there. -/
example : ((Cursor.start ⟨["ab".toList], true⟩).look 2).isSome ∧
    (Cursor.start ⟨["ab".toList], true⟩).look 3 = none := by
  decide

end SmallLisp.Yaml
