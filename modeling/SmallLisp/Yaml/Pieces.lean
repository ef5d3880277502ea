import SmallLisp.Text.Utf8

/-!
# The pieces of a YAML text

A text arrives as bytes and is decoded piece by piece.  A piece holds the characters within
`pieceSize` bytes, and a character that does not fit starts the next piece.  The text may open with
a byte order mark, which says how characters are spelled.  The mark takes its place in the first
piece but is no character of it.

Bytes that spell no character, or one that may not stand in a text, spoil the piece they stand in.
The pieces in front of it stay good, so a text is only as bad as the pieces that are looked at.  If
the bytes end within a character, everything in front of that character is good.
-/

namespace SmallLisp.Yaml

/-- Whether a character may stand in a text. -/
def isAllowed (c : Char) : Bool :=
  let n := c.toNat
  n == 0x09 || n == 0x0A || n == 0x0D || (0x20 ≤ n && n ≤ 0x7E) || n == 0x85 ||
    (0xA0 ≤ n && n ≤ 0xFFFD) || 0x10000 ≤ n

/-! ## Spellings -/

/-- How characters are spelled. -/
inductive Encoding where
  /-- With one to four bytes; the first one says how many. -/
  | utf8
  /-- With one unit or two, each of two bytes. -/
  | utf16 (lowFirst : Bool)

/-- What stands at the front of bytes. -/
structure Spelling where
  /-- How many bytes have to be looked at. -/
  width : Nat
  /-- The character that they spell, if it may stand in a text. -/
  character : Option Char

namespace Encoding

/-- The encoding of a text, and how many bytes its byte order mark takes. -/
def ofBytes : List UInt8 → Encoding × Nat
  | 0xFF :: 0xFE :: _ => (utf16 true, 2)
  | 0xFE :: 0xFF :: _ => (utf16 false, 2)
  | 0xEF :: 0xBB :: 0xBF :: _ => (utf8, 3)
  | _ => (utf8, 0)

/-- How many bytes a character takes that starts with this one.  A byte that starts none counts
alone. -/
def widthOf (lead : UInt8) : Nat :=
  if lead < 0xC0 then 1
  else if lead < 0xE0 then 2
  else if lead < 0xF0 then 3
  else if lead < 0xF8 then 4
  else 1

/-- The unit that two bytes make. -/
def unitOf (lowFirst : Bool) (a b : UInt8) : Nat :=
  if lowFirst then b.toNat * 256 + a.toNat else a.toNat * 256 + b.toNat

/-- The character that two units make. -/
def pair? (high low : Nat) : Option Char :=
  if 0xDC00 ≤ low && low < 0xE000 then
    Text.scalar? 0x10000 (0x10000 + (high - 0xD800) * 0x400 + (low - 0xDC00))
  else none

/-- The spelling at the front of bytes. -/
def spelling : Encoding → List UInt8 → Spelling
  | utf8, bytes =>
    { width := bytes.head?.elim 1 widthOf
      character := ((Text.leading? bytes).map (·.1)).filter isAllowed }
  | utf16 lowFirst, a :: b :: bytes =>
    let unit := unitOf lowFirst a b
    if 0xD800 ≤ unit && unit < 0xDC00 then
      { width := 4
        character :=
          match bytes with
          | c :: d :: _ => (pair? unit (unitOf lowFirst c d)).filter isAllowed
          | _ => none }
    else { width := 2, character := (Text.scalar? 0 unit).filter isAllowed }
  | utf16 _, _ => { width := 2, character := none }

end Encoding

/-! ## Texts -/

/-- A text that has been cut into pieces. -/
structure Pieces where
  /-- The characters of each piece that can be read. -/
  pieces : List (List Char)
  /-- Whether something stands behind them that cannot be read. -/
  spoilt : Bool := false

/-- How many bytes a piece has. -/
def pieceSize : Nat := 512

namespace Pieces

/-- Puts a piece in front. -/
def cons (piece : List Char) (t : Pieces) : Pieces :=
  { t with pieces := piece :: t.pieces }

/-- Cuts bytes into pieces of some size.  The current piece has room for `room` bytes and so far
holds `piece`, the last character first.  The next `skip` bytes belong to that character. -/
def decode (e : Encoding) (size room skip : Nat) (piece : List Char) : List UInt8 → Pieces
  | [] => { pieces := [piece.reverse] }
  | b :: bytes =>
    match skip with
    | n + 1 => decode e size room n piece bytes
    | 0 =>
      let { width, character } := e.spelling (b :: bytes)
      match character with
      | some c =>
        if width ≤ room then decode e size (room - width) (width - 1) (c :: piece) bytes
        else (decode e size (size - width) (width - 1) [c] bytes).cons piece.reverse
      | none =>
        if width ≤ room && width ≤ bytes.length + 1 then { pieces := [], spoilt := true }
        else { pieces := [piece.reverse], spoilt := true }

/-- The pieces of a text. -/
def ofBytes (bytes : List UInt8) (size : Nat := pieceSize) : Pieces :=
  let (e, mark) := Encoding.ofBytes bytes
  decode e size (size - mark) 0 [] (bytes.drop mark)

/-- The characters of all pieces. -/
def characters (t : Pieces) : List Char :=
  t.pieces.flatten

/-- How many characters there are up to the end of each piece, if `n` are in front of the first. -/
def endsFrom (n : Nat) : List (List Char) → List Nat
  | [] => []
  | piece :: pieces => (n + piece.length) :: endsFrom (n + piece.length) pieces

/-- How many characters there are up to the end of each piece. -/
def ends (t : Pieces) : List Nat :=
  endsFrom 0 t.pieces

end Pieces

example : (Pieces.ofBytes [0xFE, 0xFF, 0x00, 0x61]).pieces = [['a']] := by decide

/-- The two bytes of the last character do not fit into the second piece. -/
example : (Pieces.ofBytes (Text.bytesOf "\uFEFFabcé") 4).pieces = [['a'], ['b', 'c', 'é']] := by
  decide +kernel

/-- A character that may not stand in a text takes the others of its piece with it. -/
example : Pieces.ofBytes (Text.bytesOf "abcde\x01") 4 = ⟨[['a', 'b', 'c', 'd']], true⟩ := by
  rfl

end SmallLisp.Yaml
