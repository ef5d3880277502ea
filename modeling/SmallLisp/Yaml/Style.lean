import SmallLisp.Number.Literal
import SmallLisp.Text.Utf8
import SmallLisp.Yaml.Cursor

/-!
# The styles of a YAML scalar

A scalar is written plainly, between quotes or as a block of lines.

* A plain scalar ends at a comment, at a colon in front of a blank, at a line that is not indented
  enough and, inside brackets, at a bracket, a comma or a question mark.
* Between single quotes a quote is written twice.  Between double quotes a backslash starts an
  escape, and in front of a line break it takes that break away.
* A block starts with `|` or `>`.  Its lines are those that are indented as far as the first one.

In a plain or quoted scalar a line break stands for a space, and several for one less than their
number.  Blanks around a line break do not count.  A block keeps its line breaks after `|`; after
`>` they stand for spaces between lines that do not start with a blank.

Every reader gives the place where the scalar ends, or nothing if the scalar is malformed.  It is
also malformed if a reader has to look at what cannot be read.  Where a word may start a line, the
readers look four characters ahead, because there may be the mark of a document.
-/

namespace SmallLisp.Yaml

/-! ## Folded text -/

/-- What stands between two words of a scalar. -/
inductive Gap where
  /-- Blanks, the last one first. -/
  | blanks (cs : List Char)
  /-- Line breaks: the first one, unless it was taken away, and the later ones, the last one
  first. -/
  | breaks (first : Option Char) (later : List Char)

namespace Gap

/-- The characters that a gap stands for, the last one first. -/
def folded : Gap → List Char
  | blanks cs => cs
  | breaks none later => later
  | breaks (some c) later =>
    if c != '\n' then later ++ [c]
    else if later.isEmpty then [' ']
    else later

/-- Adds a blank, which counts only within a line. -/
def pushBlank (g : Gap) (c : Char) : Gap :=
  match g with
  | blanks cs => blanks (c :: cs)
  | breaks first later => breaks first later

/-- Adds a line break. -/
def pushBreak (g : Gap) (c : Char) : Gap :=
  match g with
  | blanks _ => breaks (some (keptBreak c)) []
  | breaks first later => breaks first (keptBreak c :: later)

/-- Whether there is a line break. -/
def isBroken : Gap → Bool
  | blanks _ => false
  | breaks _ _ => true

/-- Whether there is nothing. -/
def isEmpty : Gap → Bool
  | blanks cs => cs.isEmpty
  | breaks _ _ => false

end Gap

/-- A scalar as far as it has been read. -/
structure Folded where
  /-- Its characters up to the end of a word, the last one first. -/
  words : List Char := []
  /-- What stands after that word. -/
  gap : Gap := .blanks []

namespace Folded

/-- All characters, the last one first. -/
def settled (f : Folded) : List Char :=
  f.gap.folded ++ f.words

/-- Adds a character of a word. -/
def push (f : Folded) (c : Char) : Folded :=
  { words := c :: f.settled }

/-- Adds a blank. -/
def pushBlank (f : Folded) (c : Char) : Folded :=
  { f with gap := f.gap.pushBlank c }

/-- Adds a line break. -/
def pushBreak (f : Folded) (c : Char) : Folded :=
  { f with gap := f.gap.pushBreak c }

/-- Adds a line break that is taken away. -/
def join (f : Folded) : Folded :=
  { words := f.settled, gap := .breaks none [] }

/-- Looks at the next characters of a plain or quoted scalar: four at its start, so that a mark can
be seen, two within a word and one in a gap. -/
def look (f : Folded) (p : Place) (cs : List Char) : Option Place :=
  if !f.gap.isEmpty then p.lookOne cs
  else if f.words.isEmpty then p.look 4 cs
  else p.look 2 cs

/-- Looks at the first characters of a word behind a gap, where there may be a mark. -/
def lookWord (f : Folded) (p : Place) (cs : List Char) : Option Place :=
  if f.gap.isEmpty then some p else p.look 4 cs

end Folded

/-! ## Plain scalars -/

/-- Whether a character ends a plain scalar inside brackets. -/
def isFlowIndicator (c : Char) : Bool :=
  c == ',' || c == '?' || c == '[' || c == ']' || c == '{' || c == '}'

/-- Whether a plain scalar can start with these characters. -/
def startsPlain (brackets : Bool) : List Char → Bool
  | [] => false
  | c :: cs =>
    if c == '-' then !startsBlank cs
    else if c == '?' || c == ':' then !brackets && !startsBlank cs
    else
      !isFlowIndicator c && !("#&*!|>'\"%@`".toList.contains c) && !isSpace c && !isBreak c

/-- Whether a plain scalar that has been read so far ends in front of these characters. -/
def Folded.endsPlain (f : Folded) (brackets : Bool) (p : Place) : List Char → Bool
  | [] => true
  | c :: cs =>
    p.isMark (c :: cs) || (c == '#' && !f.gap.isEmpty) || (c == ':' && startsBlank cs) ||
      (brackets && isFlowIndicator c)

/-- Reads a plain scalar.  Later lines have to start at column `least` or further right; inside
brackets they may start anywhere.  A tab in front of that column is malformed. -/
def readPlain (brackets : Bool) (least : Nat) (f : Folded) (p : Place) :
    List Char → Option (Folded × Cursor)
  | [] => (f.look p []).map fun p => (f, ⟨p, []⟩)
  | c :: cs => do
    let p ← f.look p (c :: cs)
    if isBreak c then readPlain brackets least (f.pushBreak c) (p.after c) cs
    else if isSpace c then
      if c == '\t' && f.gap.isBroken && p.column < least then none
      else readPlain brackets least (f.pushBlank c) (p.after c) cs
    else if f.gap.isBroken && !brackets && p.column < least then some (f, ⟨p, c :: cs⟩)
    else
      let p ← f.lookWord p (c :: cs)
      if f.endsPlain brackets p (c :: cs) then some (f, ⟨p, c :: cs⟩)
      else readPlain brackets least (f.push c) (p.after c) cs

/-! ## Quoted scalars -/

/-- Reads the rest of a scalar between single quotes. -/
def readSingle (f : Folded) (p : Place) : List Char → Option (Folded × Cursor)
  | [] => none
  | c :: cs => do
    let p ← f.look p (c :: cs)
    if isBreak c then readSingle (f.pushBreak c) (p.after c) cs
    else if isSpace c then readSingle (f.pushBlank c) (p.after c) cs
    else
      let p ← f.lookWord p (c :: cs)
      if p.isMark (c :: cs) then none
      else if c == '\'' then
        match cs with
        | '\'' :: cs => readSingle (f.push c) (p.right 2) cs
        | _ => some (f, ⟨p.after c, cs⟩)
      else readSingle (f.push c) (p.after c) cs

/-- The character that a one-letter escape stands for. -/
def escape? : Char → Option Char
  | '0' => some (Char.ofNat 0)
  | 'a' => some (Char.ofNat 0x07)
  | 'b' => some (Char.ofNat 0x08)
  | 't' => some '\t'
  | '\t' => some '\t'
  | 'n' => some '\n'
  | 'v' => some (Char.ofNat 0x0B)
  | 'f' => some (Char.ofNat 0x0C)
  | 'r' => some '\r'
  | 'e' => some (Char.ofNat 0x1B)
  | ' ' => some ' '
  | '"' => some '"'
  | '\'' => some '\''
  | '\\' => some '\\'
  | 'N' => some (Char.ofNat 0x85)
  | '_' => some (Char.ofNat 0xA0)
  | 'L' => some (Char.ofNat 0x2028)
  | 'P' => some (Char.ofNat 0x2029)
  | _ => none

/-- How many hexadecimal digits follow the letter of an escape by code. -/
def codeWidth? : Char → Option Nat
  | 'x' => some 2
  | 'u' => some 4
  | 'U' => some 8
  | _ => none

/-- Where a scalar between double quotes is within an escape. -/
inductive EscapeState where
  /-- In no escape.  With `joined` a line break has just been taken away. -/
  | outside (joined : Bool)
  /-- After a backslash. -/
  | letter
  /-- In a code, with the digits that are still to come. -/
  | code (digits value : Nat)

/-- Reads the rest of a scalar between double quotes. -/
def readDouble (f : Folded) (state : EscapeState) (p : Place) :
    List Char → Option (Folded × Cursor)
  | [] => none
  | c :: cs =>
    match state with
    | .letter =>
      if isBreak c then do
        let p ← p.look 2 (c :: cs)
        readDouble f.join (.outside true) (p.after c) cs
      else
        match escape? c, codeWidth? c with
        | some d, _ => readDouble (f.push d) (.outside false) (p.after c) cs
        | none, some width => do
          let p ← (p.after c).look width cs
          readDouble f (.code width 0) p cs
        | none, none => none
    | .code digits value =>
      match Number.hexDigit? c with
      | none => none
      | some d =>
        let value := value * 16 + d
        if digits ≤ 1 then
          match Text.scalar? 0 value with
          | some ch => readDouble (f.push ch) (.outside false) (p.after c) cs
          | none => none
        else readDouble f (.code (digits - 1) value) (p.after c) cs
    | .outside joined => do
      let p ← f.look p (c :: cs)
      if isBreak c then readDouble (f.pushBreak c) (.outside false) (p.after c) cs
      else if isSpace c then readDouble (f.pushBlank c) (.outside false) (p.after c) cs
      else if c == '"' && joined then some (f, ⟨p.after c, cs⟩)
      else
        let p ← f.lookWord p (c :: cs)
        if p.isMark (c :: cs) then none
        else if c == '"' then some (f, ⟨p.after c, cs⟩)
        else if c == '\\' then readDouble f .letter (p.after c) cs
        else readDouble (f.push c) (.outside false) (p.after c) cs

/-! ## Blocks of lines -/

/-- What happens to the line breaks at the end of a block. -/
inductive Chomping where
  /-- All are dropped. -/
  | strip
  /-- The first one is kept. -/
  | clip
  /-- All are kept. -/
  | keep

/-- The first line of a block. -/
structure BlockHeader where
  /-- Whether line breaks stand for themselves. -/
  literal : Bool
  /-- What happens to the last line breaks. -/
  chomping : Chomping := .clip
  /-- How far the lines are indented, if that is said. -/
  indent : Option Nat := none

/-- Reads the indicators of a header: a sign that says what happens to the last line breaks, and a
digit other than zero for the indentation, in either order. -/
def BlockHeader.readIndicators (h : BlockHeader) : List Char → Option (BlockHeader × Nat)
  | a :: b :: _ =>
    match sign? a, digit? a, sign? b, digit? b with
    | some chomping, _, _, some n =>
      if n = 0 then none else some ({ h with chomping, indent := some n }, 2)
    | some chomping, _, _, none => some ({ h with chomping }, 1)
    | none, some n, some chomping, _ =>
      if n = 0 then none else some ({ h with chomping, indent := some n }, 2)
    | none, some n, none, _ => if n = 0 then none else some ({ h with indent := some n }, 1)
    | none, none, _, _ => some (h, 0)
  | [a] =>
    match sign? a, digit? a with
    | some chomping, _ => some ({ h with chomping }, 1)
    | none, some n => if n = 0 then none else some ({ h with indent := some n }, 1)
    | none, none => some (h, 0)
  | [] => some (h, 0)
where
  /-- What a sign says about the last line breaks. -/
  sign? : Char → Option Chomping
    | '+' => some .keep
    | '-' => some .strip
    | _ => none
  /-- The value of a digit. -/
  digit? (c : Char) : Option Nat :=
    Number.digit? 10 c

/-- Reads the header of a block behind its first character.  A comment may follow the indicators,
and the line has to end there. -/
def Cursor.readHeader (k : Cursor) (literal : Bool) : Option (BlockHeader × Cursor) := do
  let (h, n) ← BlockHeader.readIndicators { literal } k.rest
  let k := k.skip n
  let k ← (k.skip (k.rest.takeWhile isSpace).length).skipNote
  match k.rest with
  | [] => some (h, k)
  | c :: cs => if isBreak c then (k.look 2).map fun k => (h, ⟨k.place.after c, cs⟩) else none

/-- A block as far as it has been read. -/
structure BlockText where
  /-- Its characters up to the end of a line, the last one first. -/
  text : List Char := []
  /-- The line break after that line. -/
  first : Option Char := none
  /-- The line breaks of empty lines after it, the last one first. -/
  later : List Char := []
  /-- Whether that line starts with a blank. -/
  blankStart : Bool := false
  /-- Whether a line is being read, and not the indentation of one. -/
  inLine : Bool := false
  /-- The furthest column at which an indentation has ended. -/
  widest : Nat := 0
  /-- How far lines are indented, once it is known. -/
  indent : Option Nat := none

namespace BlockText

/-- Starts a line with a character. -/
def startLine (b : BlockText) (literal : Bool) (indent : Nat) (c : Char) : BlockText :=
  let joined : List Char :=
    match b.first with
    | none => b.text
    | some n =>
      if literal || b.blankStart || isSpace c || n != '\n' then n :: b.text
      else if b.later.isEmpty then ' ' :: b.text
      else b.text
  { b with
    text := c :: (b.later ++ joined)
    first := none
    later := []
    blankStart := isSpace c
    inLine := true
    indent := some indent }

/-- Whether a column is still in the indentation. -/
def isIndent (b : BlockText) (column : Nat) : Bool :=
  match b.indent with
  | none => true
  | some n => column < n

/-- The characters of the whole block, the last one first. -/
def chomped (b : BlockText) : Chomping → List Char
  | .strip => b.text
  | .clip => b.first.toList ++ b.text
  | .keep => b.later ++ b.first.toList ++ b.text

end BlockText

/-- Reads the lines of a block.  If nothing says how far they are indented, the first line that is
not empty does, but it is at least column `least`.  A tab in the indentation is malformed. -/
def readLines (literal : Bool) (least : Nat) (b : BlockText) (p : Place) :
    List Char → Option (BlockText × Cursor)
  | [] => (p.look 1 []).map fun p => (b, ⟨p, []⟩)
  | c :: cs => do
    let p ← p.lookOne (c :: cs)
    if b.inLine then
      if isBreak c then
        let b := { b with first := some (keptBreak c), inLine := false }
        readLines literal least b (p.after c) cs
      else readLines literal least { b with text := c :: b.text } (p.after c) cs
    else if isBreak c then
      readLines literal least { b with later := keptBreak c :: b.later } (p.after c) cs
    else if c == ' ' && b.isIndent p.column then
      readLines literal least { b with widest := max b.widest (p.column + 1) } (p.after c) cs
    else if c == '\t' && b.isIndent p.column then none
    else
      let indent := b.indent.getD (max b.widest least)
      if p.column = indent then
        readLines literal least (b.startLine literal indent c) (p.after c) cs
      else some (b, ⟨p, c :: cs⟩)

/-! ## From a cursor -/

/-- Reads a plain scalar; the answer says whether a line break follows it. -/
def Cursor.readPlain (k : Cursor) (brackets : Bool) (least : Nat) :
    Option (String × Bool × Cursor) :=
  (Yaml.readPlain brackets least {} k.place k.rest).map fun (f, k) =>
    (String.ofList f.words.reverse, f.gap.isBroken, k)

/-- Reads a scalar between quotes. -/
def Cursor.readQuoted (k : Cursor) : Option (String × Cursor) :=
  let answer : Option (Folded × Cursor) :=
    match k.rest with
    | '\'' :: cs => readSingle {} (k.place.after '\'') cs
    | '"' :: cs => readDouble {} (.outside false) (k.place.after '"') cs
    | _ => none
  answer.map fun (f, k) => (String.ofList f.settled.reverse, k)

/-- Reads a block of lines inside a block at column `outer`, if there is one. -/
def Cursor.readBlock (k : Cursor) (outer : Option Nat) : Option (String × Cursor) := do
  let (h, lines) ← (k.skip 1).readHeader (k.rest.head? == some '|')
  let least := match outer with
    | none => 1
    | some column => column + 1
  let indent := h.indent.map fun n => outer.getD 0 + n
  let (b, after) ← readLines h.literal least { indent } lines.place lines.rest
  some (String.ofList (b.chomped h.chomping).reverse, after)

example : ((Cursor.readPlain ⟨{}, "a b\n\n c: d".toList⟩ false 1).map (·.1)) = some "a b\nc" := by
  decide +kernel

example : ((Cursor.readQuoted ⟨{}, "\"a\\\n  b\n c\"".toList⟩).map (·.1)) = some "ab c" := by
  decide +kernel

example : ((Cursor.readBlock ⟨{}, ">\n a\n b\n\n  c\n\n".toList⟩ none).map (·.1)) =
    some "a b\n\n c\n" := by
  decide +kernel

end SmallLisp.Yaml
