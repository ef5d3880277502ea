import Mathlib
import SmallLisp.Text.Utf8

/-!
# What bytes spell

`Spelled bytes cs` says which characters a run of bytes spells, without saying how they are found: a
sequence that encodes a character spells it, and a byte at which no such sequence starts spells one
replacement character.  `spelled_iff` ties it to `decodeAll`: decoding finds what the bytes spell,
and there is nothing else that they spell.

The work is in one character.  `leading?_utf8EncodeChar` says that `leading?` finds the character
whose encoding stands in front, and `eq_utf8EncodeChar_of_leading?` that it finds nothing else.
Both go by the length of the encoding, since the bounds on the code and the lead byte do.

Bytes put after others may complete a sequence that was cut short.  They do not if the others end
with a character of their own, and then the two runs of bytes are decoded apart
(`decodeAll_append`).
-/

namespace SmallLisp.Text

/-! ## Codes and continuation bytes -/

theorem scalar?_toNat {least : Nat} (c : Char) (h : least ≤ c.toNat) :
    scalar? least c.toNat = some c := by
  have hv : c.toNat.isValidChar := c.valid
  rw [scalar?, dif_pos ⟨h, hv⟩]
  rfl

theorem scalar?_eq_some {least n : Nat} {c : Char} (h : scalar? least n = some c) :
    least ≤ n ∧ c.toNat = n := by
  unfold scalar? at h
  split at h
  · next hn =>
    cases h
    exact ⟨hn.1, rfl⟩
  · cases h

theorem continuation?_eq_some {b : UInt8} {x : Nat} (h : continuation? b = some x) :
    b.toNat = x + 0x80 ∧ x < 0x40 := by
  unfold continuation? at h
  split at h
  · next hb =>
    have hx := Option.some.inj h
    omega
  · cases h

theorem toNat_byte {n : Nat} (h : n < 256) : (UInt8.ofNat n).toNat = n := by
  rw [UInt8.toNat_ofNat']
  exact Nat.mod_eq_of_lt h

theorem continuation?_ofNat {x : Nat} (h : x < 0x40) :
    continuation? (UInt8.ofNat (x + 0x80)) = some x := by
  rw [continuation?, toNat_byte (by omega), if_pos (by omega), Nat.add_sub_cancel]

theorem code_lt (c : Char) : c.toNat < 0x110000 := by
  rcases c.valid with h | h
  · exact Nat.lt_trans h (by decide)
  · exact h.2

/-! ## Encodings by length -/

theorem utf8EncodeChar_one {c : Char} (h : c.toNat < 0x80) :
    String.utf8EncodeChar c = [UInt8.ofNat c.toNat] :=
  if_pos (Nat.le_of_lt_succ h)

theorem utf8EncodeChar_two {c : Char} (hl : 0x80 ≤ c.toNat) (h : c.toNat < 0x800) :
    String.utf8EncodeChar c =
      [UInt8.ofNat (c.toNat / 64 + 0xC0), UInt8.ofNat (c.toNat % 64 + 0x80)] := by
  have hd : c.toNat / 64 % 0x20 = c.toNat / 64 := Nat.mod_eq_of_lt (by omega)
  rw [← hd]
  exact (if_neg (Nat.not_le_of_lt hl)).trans (if_pos (Nat.le_of_lt_succ h))

theorem utf8EncodeChar_three {c : Char} (hl : 0x800 ≤ c.toNat) (h : c.toNat < 0x10000) :
    String.utf8EncodeChar c =
      [UInt8.ofNat (c.toNat / 4096 + 0xE0), UInt8.ofNat (c.toNat / 64 % 64 + 0x80),
        UInt8.ofNat (c.toNat % 64 + 0x80)] := by
  have hd : c.toNat / 4096 % 0x10 = c.toNat / 4096 := Nat.mod_eq_of_lt (by omega)
  rw [← hd]
  exact (if_neg (Nat.not_le_of_lt (Nat.lt_of_lt_of_le (by decide) hl))).trans
    ((if_neg (Nat.not_le_of_lt hl)).trans (if_pos (Nat.le_of_lt_succ h)))

theorem utf8EncodeChar_four {c : Char} (hl : 0x10000 ≤ c.toNat) :
    String.utf8EncodeChar c =
      [UInt8.ofNat (c.toNat / 262144 + 0xF0), UInt8.ofNat (c.toNat / 4096 % 64 + 0x80),
        UInt8.ofNat (c.toNat / 64 % 64 + 0x80), UInt8.ofNat (c.toNat % 64 + 0x80)] := by
  have hd : c.toNat / 262144 % 0x08 = c.toNat / 262144 := by
    have := code_lt c
    exact Nat.mod_eq_of_lt (by omega)
  rw [← hd]
  exact (if_neg (Nat.not_le_of_lt (Nat.lt_of_lt_of_le (by decide) hl))).trans
    ((if_neg (Nat.not_le_of_lt (Nat.lt_of_lt_of_le (by decide) hl))).trans
      (if_neg (Nat.not_le_of_lt hl)))

/-! ## The character in front -/

/-- A lead byte that announces one more byte. -/
theorem leading?_two {a b : UInt8} {x y : Nat} (rest : List UInt8) (ha : a.toNat = x + 0xC0)
    (hx : x < 0x20) (hb : continuation? b = some y) :
    leading? (a :: b :: rest) = (scalar? 0x80 (x * 64 + y)).map (·, 1) := by
  simp only [leading?, ha, hb]
  rw [if_neg (by omega), if_neg (by omega), if_pos (by omega), Nat.add_sub_cancel]
  rfl

/-- A lead byte that announces two more bytes. -/
theorem leading?_three {a b c : UInt8} {x y z : Nat} (rest : List UInt8) (ha : a.toNat = x + 0xE0)
    (hx : x < 0x10) (hb : continuation? b = some y) (hc : continuation? c = some z) :
    leading? (a :: b :: c :: rest) = (scalar? 0x800 ((x * 64 + y) * 64 + z)).map (·, 2) := by
  simp only [leading?, ha, hb, hc]
  rw [if_neg (by omega), if_neg (by omega), if_neg (by omega), if_pos (by omega),
    Nat.add_sub_cancel]
  rfl

/-- A lead byte that announces three more bytes. -/
theorem leading?_four {a b c d : UInt8} {x y z w : Nat} (rest : List UInt8)
    (ha : a.toNat = x + 0xF0) (hx : x < 0x08) (hb : continuation? b = some y)
    (hc : continuation? c = some z) (hd : continuation? d = some w) :
    leading? (a :: b :: c :: d :: rest) =
      (scalar? 0x10000 (((x * 64 + y) * 64 + z) * 64 + w)).map (·, 3) := by
  simp only [leading?, ha, hb, hc, hd]
  rw [if_neg (by omega), if_neg (by omega), if_neg (by omega), if_neg (by omega),
    if_pos (by omega), Nat.add_sub_cancel]
  rfl

/-- The character whose encoding stands in front is found. -/
theorem leading?_utf8EncodeChar (c : Char) (rest : List UInt8) :
    leading? (String.utf8EncodeChar c ++ rest) =
      some (c, (String.utf8EncodeChar c).length - 1) := by
  have hlt := code_lt c
  have hlow (n : Nat) : continuation? (UInt8.ofNat (n % 64 + 0x80)) = some (n % 64) :=
    continuation?_ofNat (Nat.mod_lt n (by decide))
  rcases Nat.lt_or_ge c.toNat 0x80 with h1 | h1
  · rw [utf8EncodeChar_one h1]
    simp only [List.cons_append, List.nil_append, leading?,
      toNat_byte (by omega : c.toNat < 256), if_pos h1, scalar?_toNat c (Nat.zero_le _)]
    rfl
  rcases Nat.lt_or_ge c.toNat 0x800 with h2 | h2
  · have he : c.toNat / 64 * 64 + c.toNat % 64 = c.toNat := by omega
    rw [utf8EncodeChar_two h1 h2, List.cons_append, List.cons_append,
      leading?_two _ (toNat_byte (by omega)) (by omega) (hlow _), he, scalar?_toNat c h1]
    rfl
  rcases Nat.lt_or_ge c.toNat 0x10000 with h3 | h3
  · have he : (c.toNat / 4096 * 64 + c.toNat / 64 % 64) * 64 + c.toNat % 64 = c.toNat := by
      omega
    rw [utf8EncodeChar_three h2 h3, List.cons_append, List.cons_append, List.cons_append,
      leading?_three _ (toNat_byte (by omega)) (by omega) (hlow _) (hlow _), he,
      scalar?_toNat c h2]
    rfl
  · have he : ((c.toNat / 262144 * 64 + c.toNat / 4096 % 64) * 64 + c.toNat / 64 % 64) * 64 +
        c.toNat % 64 = c.toNat := by omega
    rw [utf8EncodeChar_four h3, List.cons_append, List.cons_append, List.cons_append,
      List.cons_append, leading?_four _ (toNat_byte (by omega)) (by omega) (hlow _) (hlow _)
        (hlow _), he, scalar?_toNat c h3]
    rfl

theorem byte_eq {a : UInt8} {n : Nat} (h : a.toNat = n) : UInt8.ofNat n = a := by
  rw [← h, UInt8.ofNat_toNat]

/-- What is found in front is an encoded character. -/
theorem eq_utf8EncodeChar_of_leading? {b : UInt8} {bytes : List UInt8} {c : Char} {n : Nat}
    (h : leading? (b :: bytes) = some (c, n)) :
    b :: bytes = String.utf8EncodeChar c ++ bytes.drop n := by
  simp only [leading?] at h
  split_ifs at h with h1 h2 h3 h4 h5
  · obtain ⟨x, hx, he⟩ := Option.map_eq_some_iff.1 h
    obtain ⟨-, hc⟩ := scalar?_eq_some hx
    cases he
    rw [utf8EncodeChar_one (by omega), hc, UInt8.ofNat_toNat]
    rfl
  · cases bytes with
    | nil => cases h
    | cons d bytes =>
      obtain ⟨x, hx, h⟩ := Option.bind_eq_some_iff.1 h
      obtain ⟨c', hs, he⟩ := Option.map_eq_some_iff.1 h
      cases he
      obtain ⟨hl, hc⟩ := scalar?_eq_some hs
      obtain ⟨hd, hx'⟩ := continuation?_eq_some hx
      rw [utf8EncodeChar_two (by omega) (by omega), byte_eq (a := b) (by omega),
        byte_eq (a := d) (by omega)]
      rfl
  · match bytes, h with
    | d :: e :: bytes, h =>
      obtain ⟨x, hx, h⟩ := Option.bind_eq_some_iff.1 h
      obtain ⟨y, hy, h⟩ := Option.bind_eq_some_iff.1 h
      obtain ⟨c', hs, he⟩ := Option.map_eq_some_iff.1 h
      cases he
      obtain ⟨hl, hc⟩ := scalar?_eq_some hs
      obtain ⟨hd, hx'⟩ := continuation?_eq_some hx
      obtain ⟨he, hy'⟩ := continuation?_eq_some hy
      rw [utf8EncodeChar_three (by omega) (by omega), byte_eq (a := b) (by omega),
        byte_eq (a := d) (by omega), byte_eq (a := e) (by omega)]
      rfl
  · match bytes, h with
    | d :: e :: f :: bytes, h =>
      obtain ⟨x, hx, h⟩ := Option.bind_eq_some_iff.1 h
      obtain ⟨y, hy, h⟩ := Option.bind_eq_some_iff.1 h
      obtain ⟨z, hz, h⟩ := Option.bind_eq_some_iff.1 h
      obtain ⟨c', hs, he⟩ := Option.map_eq_some_iff.1 h
      cases he
      obtain ⟨hl, hc⟩ := scalar?_eq_some hs
      obtain ⟨hd, hx'⟩ := continuation?_eq_some hx
      obtain ⟨he, hy'⟩ := continuation?_eq_some hy
      obtain ⟨hf, hz'⟩ := continuation?_eq_some hz
      rw [utf8EncodeChar_four (by omega), byte_eq (a := b) (by omega),
        byte_eq (a := d) (by omega), byte_eq (a := e) (by omega), byte_eq (a := f) (by omega)]
      rfl

/-! ## What bytes spell -/

/-- The bytes spell the characters: a sequence that encodes a character spells it, and a byte at
which no such sequence starts spells the replacement character. -/
inductive Spelled : List UInt8 → List Char → Prop where
  | nil : Spelled [] []
  | char (c : Char) {bytes : List UInt8} {cs : List Char} (rest : Spelled bytes cs) :
      Spelled (String.utf8EncodeChar c ++ bytes) (c :: cs)
  | stray {b : UInt8} {bytes : List UInt8} {cs : List Char}
      (alone : ∀ c, ¬ String.utf8EncodeChar c <+: b :: bytes) (rest : Spelled bytes cs) :
      Spelled (b :: bytes) (replacement :: cs)

/-- Decoding goes on from the bytes that are not skipped, whatever was found before. -/
theorem decodeOnto_eq (done : List Char) (skip : Nat) (bytes : List UInt8) :
    decodeOnto done skip bytes = done.reverse ++ decodeAll (bytes.drop skip) := by
  induction bytes generalizing done skip with
  | nil => simp [decodeOnto, decodeAll]
  | cons b bytes ih =>
    cases skip with
    | succ n => rw [decodeOnto, ih, List.drop_succ_cons]
    | zero =>
      rw [List.drop_zero, decodeAll, decodeOnto, decodeOnto]
      cases leading? (b :: bytes) with
      | none =>
        dsimp only
        rw [ih, ih [replacement], List.reverse_cons, List.append_assoc, List.reverse_singleton]
      | some found =>
        obtain ⟨c, n⟩ := found
        dsimp only
        rw [ih, ih [c], List.reverse_cons, List.append_assoc, List.reverse_singleton]

theorem decodeAll_stray {b : UInt8} {bytes : List UInt8} (h : leading? (b :: bytes) = none) :
    decodeAll (b :: bytes) = replacement :: decodeAll bytes := by
  rw [decodeAll, decodeOnto, h]
  exact decodeOnto_eq [replacement] 0 bytes

theorem decodeAll_char (c : Char) (bytes : List UInt8) :
    decodeAll (String.utf8EncodeChar c ++ bytes) = c :: decodeAll bytes := by
  have hlead := leading?_utf8EncodeChar c bytes
  obtain ⟨b, tail, hb⟩ := List.exists_cons_of_ne_nil (String.utf8EncodeChar_ne_nil (c := c))
  rw [hb, List.cons_append, List.length_cons, Nat.add_sub_cancel] at hlead
  rw [hb, List.cons_append, decodeAll, decodeOnto, hlead]
  dsimp only
  rw [decodeOnto_eq, List.drop_left]
  rfl

/-- Decoding what characters encode gives the characters back. -/
theorem decodeAll_encode (cs : List Char) : decodeAll (encode cs) = cs := by
  induction cs with
  | nil => rfl
  | cons c cs ih => rw [encode, List.flatMap_cons, decodeAll_char, ← encode, ih]

theorem decodeAll_of_spelled {bytes : List UInt8} {cs : List Char} (h : Spelled bytes cs) :
    decodeAll bytes = cs := by
  induction h with
  | nil => rfl
  | char c _ ih => rw [decodeAll_char, ih]
  | @stray b bytes cs alone _ ih =>
    have hnone : leading? (b :: bytes) = none := by
      cases hl : leading? (b :: bytes) with
      | none => rfl
      | some found =>
        exact absurd ⟨_, (eq_utf8EncodeChar_of_leading? hl).symm⟩ (alone found.1)
    rw [decodeAll_stray hnone, ih]

theorem spelled_decodeAll (bytes : List UInt8) : Spelled bytes (decodeAll bytes) := by
  -- a character uses up at least one byte, so the induction is on the number of bytes
  induction hn : bytes.length using Nat.strongRecOn generalizing bytes with
  | ind n ih =>
    cases bytes with
    | nil => exact .nil
    | cons b bytes =>
      cases hl : leading? (b :: bytes) with
      | none =>
        rw [decodeAll_stray hl]
        refine .stray (fun c hc => ?_) (ih bytes.length (hn ▸ Nat.lt_succ_self _) bytes rfl)
        obtain ⟨rest, hrest⟩ := hc
        rw [← hrest, leading?_utf8EncodeChar] at hl
        cases hl
      | some found =>
        obtain ⟨c, n⟩ := found
        have heq := eq_utf8EncodeChar_of_leading? hl
        rw [heq, decodeAll_char]
        refine .char c (ih (bytes.drop n).length ?_ (bytes.drop n) rfl)
        rw [← hn, List.length_drop, List.length_cons]
        omega

/-- Decoding finds what the bytes spell, and bytes spell nothing else. -/
theorem spelled_iff {bytes : List UInt8} {cs : List Char} :
    Spelled bytes cs ↔ decodeAll bytes = cs :=
  ⟨decodeAll_of_spelled, fun h => h ▸ spelled_decodeAll bytes⟩

theorem dropMark_of_head? {cs : List Char} (h : cs.head? ≠ some byteOrderMark) :
    dropMark cs = cs := by
  cases cs with
  | nil => rfl
  | cons c cs =>
    rw [List.head?_cons, ne_eq, Option.some.injEq] at h
    rw [dropMark, if_neg h]

/-- The bytes of a string that opens with no byte order mark are decoded to the string. -/
theorem decode_bytesOf {s : String} (h : s.toList.head? ≠ some byteOrderMark) :
    decode (bytesOf s) = s.toList := by
  rw [decode, bytesOf, decodeAll_encode, dropMark_of_head? h]

/-! ## Bytes one after the other -/

/-- All bytes of an encoded character after the first are continuation bytes. -/
theorem continuation?_of_mem_tail {c : Char} {b : UInt8}
    (h : b ∈ (String.utf8EncodeChar c).tail) : ∃ x, continuation? b = some x := by
  have hlow (n : Nat) : ∃ x, continuation? (UInt8.ofNat (n % 64 + 0x80)) = some x :=
    ⟨_, continuation?_ofNat (Nat.mod_lt n (by decide))⟩
  rcases Nat.lt_or_ge c.toNat 0x80 with h1 | h1
  · rw [utf8EncodeChar_one h1] at h
    cases h
  rcases Nat.lt_or_ge c.toNat 0x800 with h2 | h2
  · rw [utf8EncodeChar_two h1 h2] at h
    obtain rfl := List.mem_singleton.1 h
    exact hlow _
  rcases Nat.lt_or_ge c.toNat 0x10000 with h3 | h3
  · rw [utf8EncodeChar_three h2 h3] at h
    rcases List.mem_pair.1 h with rfl | rfl
    · exact hlow _
    · exact hlow _
  · rw [utf8EncodeChar_four h3] at h
    rcases List.mem_cons.1 h with rfl | h
    · exact hlow _
    · rcases List.mem_pair.1 h with rfl | rfl
      · exact hlow _
      · exact hlow _

/-- No character starts at a continuation byte. -/
theorem leading?_of_continuation? {b : UInt8} {x : Nat} (h : continuation? b = some x)
    (bytes : List UInt8) : leading? (b :: bytes) = none := by
  obtain ⟨hb, hx⟩ := continuation?_eq_some h
  simp only [leading?]
  rw [if_neg (by omega), if_pos (by omega)]

/-- Continuation bytes alone are stray. -/
theorem eq_replacement_of_continuation? {bytes : List UInt8}
    (h : ∀ b ∈ bytes, ∃ x, continuation? b = some x) : ∀ c ∈ decodeAll bytes, c = replacement := by
  induction bytes with
  | nil => nofun
  | cons b bytes ih =>
    obtain ⟨⟨x, hx⟩, htail⟩ := List.forall_mem_cons.1 h
    rw [decodeAll_stray (leading?_of_continuation? hx bytes)]
    exact List.forall_mem_cons.2 ⟨rfl, ih htail⟩

/-- A character in front of two runs of bytes is in front of the first, unless the rest of the first
belongs to it. -/
theorem prefix_or_continuation? {c : Char} {b : UInt8} {bytes later : List UInt8}
    (h : String.utf8EncodeChar c <+: b :: (bytes ++ later)) :
    String.utf8EncodeChar c <+: b :: bytes ∨ ∀ a ∈ bytes, ∃ x, continuation? a = some x := by
  rcases List.prefix_or_prefix_of_prefix h (List.prefix_append (b :: bytes) later) with h | h
  · exact .inl h
  · obtain ⟨rest, hrest⟩ := h
    refine .inr fun a ha => continuation?_of_mem_tail (c := c) ?_
    rw [← hrest]
    exact List.mem_append_left rest ha

/-- Bytes whose last character is not a replacement spell the same in front of any others. -/
theorem Spelled.append {bytes : List UInt8} {cs : List Char} (h : Spelled bytes cs)
    (hlast : cs.getLast? ≠ some replacement) {later : List UInt8} {ds : List Char}
    (hlater : Spelled later ds) : Spelled (bytes ++ later) (cs ++ ds) := by
  induction h with
  | nil => exact hlater
  | @char c bytes cs rest ih =>
    rw [List.append_assoc]
    refine .char c (ih fun hcs => hlast ?_)
    rw [List.getLast?_cons, hcs]
    rfl
  | @stray b bytes cs alone rest ih =>
    have hcs : cs.getLast? ≠ some replacement := by
      intro hcs
      apply hlast
      rw [List.getLast?_cons, hcs]
      rfl
    refine .stray (fun c hc => ?_) (ih hcs)
    rcases prefix_or_continuation? hc with hc | hc
    · exact alone c hc
    · -- Then the bytes after the stray one are stray as well, and so is the last one.
      rw [← decodeAll_of_spelled rest] at hlast
      have hall := eq_replacement_of_continuation? hc
      apply hlast
      rw [List.getLast?_cons]
      cases hl : (decodeAll bytes).getLast? with
      | none => rfl
      | some d => exact congrArg some (hall d (List.mem_of_getLast? hl))

theorem decodeAll_append {bytes : List UInt8}
    (h : (decodeAll bytes).getLast? ≠ some replacement) (later : List UInt8) :
    decodeAll (bytes ++ later) = decodeAll bytes ++ decodeAll later :=
  decodeAll_of_spelled ((spelled_decodeAll bytes).append h (spelled_decodeAll later))

end SmallLisp.Text
