import SmallLisp.Proofs.Text.Utf8
import SmallLisp.Proofs.Token.Piece
import SmallLisp.Reader

/-!
# Stray bytes

A stray byte is as good as a replacement character.  `Text.clean` spells the replacement characters
out, and what is clean is read like the bytes that it was made of (`parse_clean`).

Nothing next to a stray byte is touched.  A plain byte, one below 0x80, belongs to no longer
sequence, so the bytes on its left and on its right are decoded as if the others were not there
(`Text.decodeAll_plain`).  Quotes and parentheses are plain, and to count them it is not needed to
decode at all (`Balance.foldl_spelled`).  The count and the scanner find the same ones, each for
itself, after any run of bytes (`InStep`).
-/

namespace SmallLisp

namespace Text

/-! ## Plain bytes -/

/-- The byte is a character by itself. -/
def Plain (b : UInt8) : Prop :=
  b.toNat < 0x80

theorem toNat_ofUInt8 (b : UInt8) : (Char.ofUInt8 b).toNat = b.toNat := by
  simp [Char.ofUInt8, Char.toNat]

theorem utf8EncodeChar_ofUInt8 {b : UInt8} (h : Plain b) :
    String.utf8EncodeChar (Char.ofUInt8 b) = [b] := by
  rw [utf8EncodeChar_one (by rwa [toNat_ofUInt8]), toNat_ofUInt8, UInt8.ofNat_toNat]

/-- No byte of a longer sequence is plain. -/
theorem not_plain_of_mem {c : Char} (hc : 0x80 ≤ c.toNat) {b : UInt8}
    (hb : b ∈ String.utf8EncodeChar c) : ¬ Plain b := by
  have hlt := code_lt c
  obtain ⟨a, tail, heq, ha⟩ : ∃ a tail, String.utf8EncodeChar c = a :: tail ∧ 0x80 ≤ a.toNat := by
    rcases Nat.lt_or_ge c.toNat 0x800 with h2 | h2
    · refine ⟨_, _, utf8EncodeChar_two hc h2, ?_⟩
      rw [toNat_byte (by omega)]
      omega
    rcases Nat.lt_or_ge c.toNat 0x10000 with h3 | h3
    · refine ⟨_, _, utf8EncodeChar_three h2 h3, ?_⟩
      rw [toNat_byte (by omega)]
      omega
    · refine ⟨_, _, utf8EncodeChar_four h3, ?_⟩
      rw [toNat_byte (by omega)]
      omega
  rw [Plain, Nat.not_lt]
  rw [heq] at hb
  rcases List.mem_cons.1 hb with rfl | hb
  · exact ha
  · have htail : b ∈ (String.utf8EncodeChar c).tail := by rwa [heq]
    obtain ⟨x, hx⟩ := continuation?_of_mem_tail htail
    have := (continuation?_eq_some hx).1
    omega

theorem not_plain_of_stray {b : UInt8} {bytes : List UInt8}
    (alone : ∀ c, ¬ String.utf8EncodeChar c <+: b :: bytes) : ¬ Plain b := by
  intro hb
  apply alone (Char.ofUInt8 b)
  rw [utf8EncodeChar_ofUInt8 hb]
  exact ⟨bytes, rfl⟩

/-- A character in front of a run and a byte after it is in front of the run, unless the byte
belongs to it. -/
theorem prefix_or_mem_tail {c : Char} {a b : UInt8} {bytes later : List UInt8}
    (h : String.utf8EncodeChar c <+: a :: (bytes ++ b :: later)) :
    String.utf8EncodeChar c <+: a :: bytes ∨ b ∈ (String.utf8EncodeChar c).tail := by
  rcases List.prefix_or_prefix_of_prefix h (List.prefix_append (a :: bytes) (b :: later)) with
    hc | ⟨rest, hrest⟩
  · exact .inl hc
  · rw [← hrest, ← List.cons_append, List.prefix_append_right_inj] at h
    rw [← hrest]
    cases rest with
    | nil => exact .inl (by simp)
    | cons d rest =>
      obtain rfl : d = b := (List.cons_prefix_cons.1 h).1
      exact .inr (by simp)

/-- A byte that continues no character ends the bytes in front of it. -/
theorem Spelled.append_of_continuation? {bytes : List UInt8} {cs : List Char}
    (h : Spelled bytes cs) {b : UInt8} (hb : continuation? b = none) {later : List UInt8}
    {ds : List Char} (hlater : Spelled (b :: later) ds) :
    Spelled (bytes ++ b :: later) (cs ++ ds) := by
  induction h with
  | nil => exact hlater
  | char c _ ih =>
    rw [List.append_assoc]
    exact .char c ih
  | stray alone _ ih =>
    refine .stray (fun c hc => ?_) ih
    rcases prefix_or_mem_tail hc with hc | hc
    · exact alone c hc
    · obtain ⟨x, hx⟩ := continuation?_of_mem_tail hc
      rw [hb] at hx
      cases hx

/-- What is on either side of a plain byte is decoded apart. -/
theorem decodeAll_plain {b : UInt8} (hb : Plain b) (front later : List UInt8) :
    decodeAll (front ++ b :: later) = decodeAll front ++ Char.ofUInt8 b :: decodeAll later := by
  have hcontinues : continuation? b = none := if_neg fun h => Nat.not_lt.2 h.1 hb
  have hown := Spelled.char (Char.ofUInt8 b) (spelled_decodeAll later)
  rw [utf8EncodeChar_ofUInt8 hb] at hown
  exact decodeAll_of_spelled ((spelled_decodeAll front).append_of_continuation? hcontinues hown)

/-! ## Clean bytes -/

/-- The bytes, with a replacement character spelled out in the place of each stray one. -/
def clean (bytes : List UInt8) : List UInt8 :=
  encode (decodeAll bytes)

theorem decodeAll_clean (bytes : List UInt8) : decodeAll (clean bytes) = decodeAll bytes :=
  decodeAll_encode _

theorem decode_clean (bytes : List UInt8) : decode (clean bytes) = decode bytes := by
  rw [decode, decodeAll_clean, decode]

theorem validateUTF8_encode (cs : List Char) : (encode cs).toByteArray.validateUTF8 = true :=
  ByteArray.validateUTF8_eq_true_iff.2 (.intro cs rfl)

theorem clean_plain {b : UInt8} (hb : Plain b) (front later : List UInt8) :
    clean (front ++ b :: later) = clean front ++ b :: clean later := by
  rw [clean, decodeAll_plain hb, encode, List.flatMap_append, List.flatMap_cons,
    utf8EncodeChar_ofUInt8 hb]
  rfl

/-- Truncated, overlong, a surrogate and out of range: each byte is a replacement character. -/
example :
    clean ([0xE2, 0x82, 0x22] ++ [0xC0, 0xAF, 0x28] ++ [0xED, 0xA0, 0x80, 0x29] ++
      [0xF4, 0x90, 0x80, 0x80, 0x22]) =
    bytesOf "\uFFFD\uFFFD\"\uFFFD\uFFFD(\uFFFD\uFFFD\uFFFD)\uFFFD\uFFFD\uFFFD\uFFFD\"" := by
  decide

end Text

/-! ## Counting parentheses -/

theorem Balance.push_of_le (b : Balance) {c : Char} (hc : 0x80 ≤ c.toNat) : b.push c = b := by
  have hne {d : Char} (hd : d.toNat < 0x80) : c ≠ d := by
    rintro rfl
    omega
  rw [Balance.push, if_neg (hne (by decide)), if_neg (hne (by decide)), if_neg (hne (by decide)),
    ite_self]

/-- Bytes can be counted as they come: those that are not plain are no parentheses and no quotes,
and neither are the characters that they spell. -/
theorem Balance.foldl_spelled {bytes : List UInt8} {cs : List Char} (h : Text.Spelled bytes cs) :
    ∀ b : Balance, (bytes.map Char.ofUInt8).foldl Balance.push b = cs.foldl Balance.push b := by
  induction h with
  | nil => exact fun _ => rfl
  | char c _ ih =>
    intro b
    rw [List.map_append, List.foldl_append, List.foldl_cons, ih]
    congr 1
    rcases Nat.lt_or_ge c.toNat 0x80 with hc | hc
    · have hown : Char.ofUInt8 (UInt8.ofNat c.toNat) = c := by
        apply Char.toNat_inj.1
        rw [Text.toNat_ofUInt8, Text.toNat_byte (by omega)]
      rw [Text.utf8EncodeChar_one hc, List.map_singleton, hown]
      rfl
    · rw [b.push_of_le hc]
      refine Balance.foldl_eq_self (List.forall_mem_map.2 fun a ha => b.push_of_le ?_)
      rw [Text.toNat_ofUInt8]
      exact Nat.not_lt.1 (Text.not_plain_of_mem hc ha)
  | @stray a _ _ alone _ ih =>
    intro b
    have ha : 0x80 ≤ (Char.ofUInt8 a).toNat := by
      rw [Text.toNat_ofUInt8]
      exact Nat.not_lt.1 (Text.not_plain_of_stray alone)
    rw [List.map_cons, List.foldl_cons, List.foldl_cons, b.push_of_le ha,
      b.push_of_le (by decide), ih]

theorem Balance.foldl_dropMark (b : Balance) (cs : List Char) :
    (Text.dropMark cs).foldl Balance.push b = cs.foldl Balance.push b := by
  cases cs with
  | nil => rfl
  | cons c cs =>
    rw [Text.dropMark]
    split
    · next hc => rw [List.foldl_cons, hc, b.push_of_le (by decide)]
    · rfl

/-- After these bytes, the count over all that was decoded stands where a count over the bytes does,
and has found the parentheses and the open quote that the scanner finds in the text. -/
structure InStep (bytes : List UInt8) : Prop where
  plain : (Text.decodeAll bytes).foldl Balance.push {} =
    (bytes.map Char.ofUInt8).foldl Balance.push {}
  opened : ((Text.decodeAll bytes).foldl Balance.push {}).opened =
    (pieces (Text.decode bytes)).count .opening
  closed : ((Text.decodeAll bytes).foldl Balance.push {}).closed =
    (pieces (Text.decode bytes)).count .closing
  quoted : ((Text.decodeAll bytes).foldl Balance.push {}).quoted = true ↔
    ∃ s, .unclosed s ∈ pieces (Text.decode bytes)

theorem inStep (bytes : List UInt8) : InStep bytes := by
  have hplain := Balance.foldl_spelled (Text.spelled_decodeAll bytes) {}
  obtain ⟨hopened, hclosed, hquoted⟩ :=
    Balance.foldl_spelling (spelling_pieces (Text.decode bytes)) {} rfl
  rw [Text.decode, Balance.foldl_dropMark] at hopened hclosed hquoted
  exact ⟨hplain.symm, by rw [hopened, Nat.zero_add, Text.decode],
    by rw [hclosed, Nat.zero_add, Text.decode], hquoted⟩

/-! ## Reading clean bytes -/

/-- A plain byte anywhere stays what it is and where it is: the bytes on either side are decoded and
cleaned apart from it, and up to it the count and the scanner are in step. -/
def PlainKept (bytes : List UInt8) : Prop :=
  ∀ front b later, bytes = front ++ b :: later → Text.Plain b →
    Text.decodeAll bytes = Text.decodeAll front ++ Char.ofUInt8 b :: Text.decodeAll later ∧
      Text.clean bytes = Text.clean front ++ b :: Text.clean later ∧ InStep front

/-- Bytes are read like their clean form, which is well formed and spells the same characters. -/
theorem parse_clean (bytes : List UInt8) :
    Text.Spelled bytes (Text.decodeAll bytes) ∧
      (Text.clean bytes).toByteArray.validateUTF8 = true ∧
      Text.decodeAll (Text.clean bytes) = Text.decodeAll bytes ∧
      tokenize (Text.clean bytes) = tokenize bytes ∧
      parse (Text.clean bytes) = parse bytes ∧
      InStep bytes ∧ InStep (Text.clean bytes) ∧ PlainKept bytes := by
  refine ⟨Text.spelled_decodeAll bytes, Text.validateUTF8_encode _, Text.decodeAll_clean bytes,
    ?_, ?_, inStep bytes, inStep _, ?_⟩
  · rw [tokenize, Text.decode_clean, tokenize]
  · rw [parse, Text.decode_clean, parse]
  · rintro front b later rfl hb
    exact ⟨Text.decodeAll_plain hb front later, Text.clean_plain hb front later, inStep front⟩

end SmallLisp
