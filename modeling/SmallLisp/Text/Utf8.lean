/-!
# Bytes and characters

A source text arrives as bytes.  Decoding never fails: the bytes are cut into well-formed
sequences, each of which is one character, and every byte that starts no such sequence is read as
one replacement character.

A sequence is well formed when its lead byte announces its length, the bytes that follow are
continuation bytes, and the code it spells is a scalar value that needs that length.  So overlong
spellings, surrogates and codes beyond U+10FFFF are refused, and each of their bytes stands alone.

A text may open with a byte order mark.  `decode` drops one such mark at the very start and keeps
it anywhere else.
-/

namespace SmallLisp.Text

/-- The character that stands for a byte outside every well-formed sequence. -/
def replacement : Char := '\uFFFD'

/-- The mark that may open a text. -/
def byteOrderMark : Char := '\uFEFF'

/-- The six bits that a continuation byte carries. -/
def continuation? (b : UInt8) : Option Nat :=
  if 0x80 ≤ b.toNat ∧ b.toNat < 0xC0 then some (b.toNat - 0x80) else none

/-- The character with code `n`, if `n` is a scalar value and is at least `least`, the first code
that needs a sequence of this length. -/
def scalar? (least n : Nat) : Option Char :=
  if h : least ≤ n ∧ n.isValidChar then some (Char.ofNatAux n h.2) else none

/-- The character spelled by the well-formed sequence at the front of the bytes, with the number of
bytes that follow its lead byte. -/
def leading? : List UInt8 → Option (Char × Nat)
  | [] => none
  | a :: rest =>
    let lead := a.toNat
    if lead < 0x80 then (scalar? 0 lead).map (·, 0)
    else if lead < 0xC0 then none
    else if lead < 0xE0 then
      match rest with
      | b :: _ => do
        let x ← continuation? b
        (scalar? 0x80 ((lead - 0xC0) * 64 + x)).map (·, 1)
      | _ => none
    else if lead < 0xF0 then
      match rest with
      | b :: c :: _ => do
        let x ← continuation? b
        let y ← continuation? c
        (scalar? 0x800 (((lead - 0xE0) * 64 + x) * 64 + y)).map (·, 2)
      | _ => none
    else if lead < 0xF8 then
      match rest with
      | b :: c :: d :: _ => do
        let x ← continuation? b
        let y ← continuation? c
        let z ← continuation? d
        (scalar? 0x10000 ((((lead - 0xF0) * 64 + x) * 64 + y) * 64 + z)).map (·, 3)
      | _ => none
    else none

/-- Decodes the bytes after the first `skip`, which belong to a character already read.  The
characters found so far are in `done`, the last one first. -/
def decodeOnto (done : List Char) (skip : Nat) : List UInt8 → List Char
  | [] => done.reverse
  | b :: rest =>
    match skip with
    | n + 1 => decodeOnto done n rest
    | 0 =>
      match leading? (b :: rest) with
      | some (c, n) => decodeOnto (c :: done) n rest
      | none => decodeOnto (replacement :: done) 0 rest

/-- Every character of the bytes, a replacement for each stray byte. -/
def decodeAll (bytes : List UInt8) : List Char :=
  decodeOnto [] 0 bytes

/-- Drops one byte order mark from the front. -/
def dropMark : List Char → List Char
  | [] => []
  | c :: cs => if c = byteOrderMark then cs else c :: cs

/-- The text that the bytes spell, without an opening byte order mark. -/
def decode (bytes : List UInt8) : List Char :=
  dropMark (decodeAll bytes)

/-- The bytes that spell the characters. -/
def encode (cs : List Char) : List UInt8 :=
  cs.flatMap String.utf8EncodeChar

/-- The bytes that spell a string. -/
def bytesOf (s : String) : List UInt8 :=
  encode s.toList

/-- An overlong spelling of `/` is two stray bytes. -/
example : decodeAll [0xC0, 0xAF, 0x28] = [replacement, replacement, '('] := by decide

/-- A truncated sequence does not swallow the quote after it. -/
example : decodeAll [0xE2, 0x82, 0x22] = [replacement, replacement, '"'] := by decide

end SmallLisp.Text
