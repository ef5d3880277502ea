import Mathlib
import SmallLisp.Number.Binary64

/-!
# Words, codes and equality

A double-precision number is a word of 64 bits: a sign, an exponent field of eleven bits and a
fraction of 52.  Taking a finite word apart and putting it together again gives the same word
(`pack_unpack`), so a finite number is determined by its sign and the code of its magnitude
(`ofCode_codeOf`), and every code below that of infinity is the code of a finite number
(`codeOf_ofCode`).

The equality of numbers is not equality of words: zero has two words, and what is no number differs
from itself.  On finite numbers it is reflexive (`beq_self_of_isFinite`), and it never holds between
a finite number and another kind (`isFinite_of_beq`).
-/

namespace SmallLisp.Number

open Float.Model Float.Model.UnpackedFloat

/-! ## The fields of a word -/

theorem toNat_unpackExponent (b : BitVec Format.binary64.numBits) :
    (unpackExponent b).toNat = b.toNat / 2 ^ 52 % 2 ^ 11 := by
  simp [unpackExponent, Nat.shiftRight_eq_div_pow]

theorem toNat_unpackMantissa (b : BitVec Format.binary64.numBits) :
    (unpackMantissa b).toNat = b.toNat % 2 ^ 52 := by
  simp [unpackMantissa]

theorem toNat_unpackSign (b : BitVec Format.binary64.numBits) :
    (unpackSign b).toNat = b.toNat / 2 ^ 63 := by
  have hb : b.toNat < 2 ^ 64 := b.isLt
  simp [unpackSign, Nat.shiftRight_eq_div_pow]
  omega

theorem toBitVec_ofBitVec (v : BitVec 1) : (Sign.ofBitVec v).toBitVec = v := by
  revert v
  decide

theorem toNat_append {m n : Nat} (x : BitVec m) (y : BitVec n) :
    (x ++ y).toNat = x.toNat * 2 ^ n + y.toNat := by
  rw [BitVec.toNat_append, ← Nat.shiftLeft_add_eq_or_of_lt y.isLt, Nat.shiftLeft_eq]

/-- A word is its sign, its exponent field and its fraction. -/
theorem packComponents_fields (b : BitVec Format.binary64.numBits) :
    packComponents Format.binary64 (Sign.ofBitVec (unpackSign b)) (unpackExponent b)
      (unpackMantissa b) = b := by
  apply BitVec.eq_of_toNat_eq
  rw [packComponents, toNat_append, toNat_append, toBitVec_ofBitVec, toNat_unpackSign,
    toNat_unpackExponent, toNat_unpackMantissa]
  have hb : b.toNat < 2 ^ 64 := b.isLt
  show (b.toNat / 2 ^ 63 * 2 ^ 11 + _) * 2 ^ 52 + _ = _
  omega

/-! ## Putting a word together -/

/-- A number below the least that has all its places is its fraction. -/
theorem pack_subnormal (s : Sign) {m : Nat} (hm : m < 2 ^ 52) (hpos : 0 < m) :
    UnpackedFloat.pack Format.binary64 (.finite s m (-1074) hpos) =
      packComponents Format.binary64 s 0#_ (BitVec.ofNat _ m) := by
  have hlog : m.log2 < 52 := (Nat.log2_lt (by omega)).2 hm
  rw [UnpackedFloat.pack]
  rw [if_neg (by decide), if_neg ?_]
  show ¬ m.log2 + 1 = 1 + 52
  omega

/-- Any other finite number is its exponent field and its fraction, without the leading one. -/
theorem pack_normal (s : Sign) {m f : Nat} (hm : m < 2 ^ 52) (hf : f < 2047)
    (hpos : 0 < 2 ^ 52 + m) :
    UnpackedFloat.pack Format.binary64 (.finite s (2 ^ 52 + m) ((f : Int) - 1075) hpos) =
      packComponents Format.binary64 s (BitVec.ofNat _ f) (BitVec.ofNat _ m) := by
  have hlog : (2 ^ 52 + m).log2 = 52 := (Nat.log2_eq_iff (by omega)).2 (by omega)
  have he : ((f : Int) - 1075 + (Format.binary64.exponentBias : Nat) + (52 : Nat)).toNat = f := by
    show ((f : Int) - 1075 + (1023 : Nat) + (52 : Nat)).toNat = f
    omega
  have hmod : BitVec.ofNat 52 (2 ^ 52 + m) = BitVec.ofNat 52 m := by
    apply BitVec.eq_of_toNat_eq
    simp
  simp only [UnpackedFloat.pack, hlog]
  rw [he]
  rw [if_neg, if_pos, hmod]
  · rfl
  · show ¬ 2 ^ 11 ≤ f + 1
    omega

/-- A finite word taken apart and put together is the same word. -/
theorem pack_unpack {b : BitVec Format.binary64.numBits} (h : unpackExponent b ≠ -1#_) :
    UnpackedFloat.pack Format.binary64 (UnpackedFloat.unpack Format.binary64 b) = b := by
  conv_rhs => rw [← packComponents_fields b]
  have hm : (unpackMantissa b).toNat < 2 ^ 52 := (unpackMantissa b).isLt
  have he : (unpackExponent b).toNat < 2 ^ 11 := (unpackExponent b).isLt
  have he' : (unpackExponent b).toNat ≠ 2 ^ 11 - 1 := by
    intro heq
    exact h (BitVec.eq_of_toNat_eq heq)
  unfold UnpackedFloat.unpack
  simp only [if_neg h]
  split
  · next hz =>
    split
    · next hm0 =>
      rw [hz, hm0]
      rfl
    · next hm0 =>
      rw [hz]
      refine (pack_subnormal _ hm _).trans ?_
      rw [BitVec.ofNat_toNat, BitVec.setWidth_eq]
  · next hz =>
    have h1 : (1#1 ++ unpackMantissa b).toNat = 2 ^ 52 + (unpackMantissa b).toNat := by
      rw [toNat_append]
      rfl
    simp only [h1]
    refine (pack_normal _ hm (f := (unpackExponent b).toNat) (by omega) _).trans ?_
    simp

/-! ## Codes -/

/-- A word is finite when the code of its magnitude is below that of infinity. -/
theorem unpackExponent_ne_iff (b : UInt64) :
    @unpackExponent Format.binary64 b.toBitVec ≠ -1#_ ↔
      b.toNat % signWord < infinityCode := by
  have hfield : (@unpackExponent Format.binary64 b.toBitVec).toNat =
      b.toNat / 2 ^ 52 % 2 ^ 11 := toNat_unpackExponent b.toBitVec
  have hb : b.toNat < 2 ^ 64 := b.toNat_lt
  rw [infinityCode, signWord]
  constructor
  · intro h
    have hne : b.toNat / 2 ^ 52 % 2 ^ 11 ≠ 2 ^ 11 - 1 := by
      rw [← hfield]
      exact fun heq => h (BitVec.eq_of_toNat_eq heq)
    omega
  · intro h heq
    have hval : b.toNat / 2 ^ 52 % 2 ^ 11 = 2 ^ 11 - 1 := by
      rw [← hfield, heq]
      rfl
    omega

theorem isFinite_iff {x : Float} :
    isFinite x = true ↔ @unpackExponent Format.binary64 x.toBits.toBitVec ≠ -1#_ := by
  rw [unpackExponent_ne_iff, isFinite, decide_eq_true_eq, codeOf]

theorem toBits_ofBits {b : UInt64} (h : b.toNat % signWord < infinityCode) :
    (Float.ofBits b).toBits = b := by
  show UInt64.ofBitVec _ = b
  rw [pack_unpack ((unpackExponent_ne_iff b).2 h)]

theorem eq_of_toBits_eq {x y : Float} (h : x.toBits = y.toBits) : x = y := by
  obtain ⟨bx, hx⟩ := x
  obtain ⟨_, hy⟩ := y
  cases h
  rfl

/-- The word of a finite code: the code itself, after the sign. -/
theorem toNat_toBits_ofCode (negative : Bool) {code : Nat} (h : code < infinityCode) :
    (ofCode negative code).toBits.toNat = if negative then signWord + code else code := by
  have hcode : code < 0x7FF0000000000000 := h
  have hword : (UInt64.ofNat (if negative then signWord + code else code)).toNat =
      if negative then signWord + code else code := by
    apply UInt64.toNat_ofNat_of_lt'
    cases negative with
    | false =>
      show code < 0x10000000000000000
      omega
    | true =>
      show 0x8000000000000000 + code < 0x10000000000000000
      omega
  rw [ofCode, Nat.min_eq_left (Nat.le_of_lt h), toBits_ofBits, hword]
  rw [hword]
  cases negative with
  | false => exact Nat.lt_of_le_of_lt (Nat.mod_le _ _) h
  | true =>
    rw [if_pos rfl, Nat.add_mod_left]
    exact Nat.lt_of_le_of_lt (Nat.mod_le _ _) h

/-- Every code below that of infinity is the code of a number of either sign. -/
theorem codeOf_ofCode (negative : Bool) {code : Nat} (h : code < infinityCode) :
    codeOf (ofCode negative code) = code := by
  have hcode : code < 0x7FF0000000000000 := h
  rw [codeOf, toNat_toBits_ofCode negative h, signWord]
  split <;> omega

/-- A finite number is the one with its sign and its code. -/
theorem ofCode_codeOf {x : Float} (h : isFinite x = true) :
    ofCode (isNegative x) (codeOf x) = x := by
  have hcode : codeOf x < infinityCode := of_decide_eq_true h
  have hbits : x.toBits.toNat < 2 ^ 64 := x.toBits.toNat_lt
  apply eq_of_toBits_eq
  apply UInt64.toNat_inj.1
  rw [toNat_toBits_ofCode _ hcode, codeOf, isNegative, signWord]
  split
  · next hn =>
    have := of_decide_eq_true hn
    omega
  · next hn =>
    have := of_decide_eq_false (Bool.eq_false_iff.2 hn)
    omega

theorem isFinite_ofCode (negative : Bool) {code : Nat} (h : code < infinityCode) :
    isFinite (ofCode negative code) = true := by
  rw [isFinite, codeOf_ofCode negative h, decide_eq_true_eq]
  exact h

/-! ## Equality -/

/-- What a word stands for is finite when its exponent field is not all ones. -/
theorem isFinite_unpack (b : BitVec Format.binary64.numBits) :
    (UnpackedFloat.unpack Format.binary64 b).isFinite = true ↔ unpackExponent b ≠ -1#_ := by
  by_cases h : unpackExponent b = -1#_
  · refine iff_of_false ?_ (fun hne => hne h)
    simp only [UnpackedFloat.unpack, if_pos h]
    split <;> exact Bool.false_ne_true
  · refine iff_of_true ?_ h
    simp only [UnpackedFloat.unpack, if_neg h]
    split_ifs <;> rfl

/-- Finiteness of a word is finiteness of the number it stands for. -/
theorem isFinite_eq (x : Float) : isFinite x = x.toModel.unpack.isFinite := by
  rw [Bool.eq_iff_iff, isFinite_iff]
  exact (isFinite_unpack x.toBits.toBitVec).symm

/-- What compares as equal is zero on both sides, or the same number. -/
theorem compare_eq_iff {a b : UnpackedFloat} :
    a.compare b = some .eq ↔
      (∃ s t, a = .zero s ∧ b = .zero t) ∨ (a = b ∧ a.isNaN = false) := by
  constructor
  · intro h
    cases a with
    | notANumber => cases h
    | infinity s =>
      cases b with
      | infinity t =>
        refine .inr ⟨?_, rfl⟩
        cases s <;> cases t <;> first | rfl | cases h
      | notANumber => cases h
      | zero t | finite t m e hm => cases s <;> cases h
    | zero s =>
      cases b with
      | zero t => exact .inl ⟨s, t, rfl, rfl⟩
      | notANumber => cases h
      | infinity t | finite t m e hm => cases t <;> cases h
    | finite s m e hm =>
      cases b with
      | finite t m' e' hm' =>
        refine .inr ⟨?_, rfl⟩
        cases s <;> cases t <;> simp [UnpackedFloat.compare] at h ⊢ <;> tauto
      | notANumber => cases h
      | infinity t => cases s <;> cases t <;> cases h
      | zero t => cases s <;> cases h
  · rintro (⟨s, t, rfl, rfl⟩ | ⟨rfl, h⟩)
    · rfl
    · cases a with
      | notANumber => cases h
      | infinity s => cases s <;> rfl
      | zero s => rfl
      | finite s m e hm => cases s <;> simp [UnpackedFloat.compare]

/-- A finite number equals itself. -/
theorem beq_self_of_isFinite {x : Float} (h : isFinite x = true) : (x == x) = true := by
  show (x.toModel.unpack.compare x.toModel.unpack == some .eq) = true
  rw [isFinite_eq] at h
  have hnumber : x.toModel.unpack.isNaN = false := by
    cases hx : x.toModel.unpack with
    | notANumber => exact nomatch h.symm.trans (congrArg UnpackedFloat.isFinite hx)
    | _ => rfl
  rw [compare_eq_iff.2 (.inr ⟨rfl, hnumber⟩)]
  rfl

/-- Only a finite number equals a finite number. -/
theorem isFinite_of_beq {x y : Float} (h : (x == y) = true) : isFinite x = isFinite y := by
  rw [isFinite_eq, isFinite_eq]
  rcases compare_eq_iff.1 (eq_of_beq h) with ⟨s, t, hx, hy⟩ | ⟨heq, -⟩
  · rw [hx, hy]
    rfl
  · rw [heq]

end SmallLisp.Number
