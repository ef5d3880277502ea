import SmallLisp.Proofs.Number.Binary64

/-!
# Numbers that are equal

Two numbers are equal when they are the same, and also when both are zero, of whatever sign.  What
is no number equals nothing.  `unsigned` forgets the sign of a zero and changes nothing else, so
`beq_iff` says the same in one equation.

A number is known by what its word stands for (`eq_of_unpack_eq`).  For a word that is not finite
this rests on there being a single word for what is no number.
-/

namespace SmallLisp.Number

open Float.Model Float.Model.UnpackedFloat

/-! ## Words -/

/-- The word of a number taken apart and put together is the same word, finite or not. -/
theorem pack_unpack_toBits (x : Float) :
    UnpackedFloat.pack Format.binary64 x.toModel.unpack = x.toBits.toBitVec := by
  by_cases h : @unpackExponent Format.binary64 x.toBits.toBitVec = -1#_
  · by_cases hm : @unpackMantissa Format.binary64 x.toBits.toBitVec = 0#_
    · have hunpack : x.toModel.unpack =
          .infinity (Sign.ofBitVec (@unpackSign Format.binary64 x.toBits.toBitVec)) := by
        rw [Float.Model.unpack, UnpackedFloat.unpack]
        exact (if_pos h).trans (if_pos hm)
      have hfields := packComponents_fields x.toBits.toBitVec
      rw [h, hm] at hfields
      rw [hunpack]
      exact hfields
    · have hunpack : x.toModel.unpack = .notANumber := by
        rw [Float.Model.unpack, UnpackedFloat.unpack]
        exact (if_pos h).trans (if_neg hm)
      rw [hunpack]
      exact (x.toModel.valid.eq_packedNaN h hm).symm
  · exact pack_unpack h

/-- A number is determined by its parts. -/
theorem eq_of_unpack_eq {x y : Float} (h : x.toModel.unpack = y.toModel.unpack) : x = y := by
  apply eq_of_toBits_eq
  apply UInt64.toBitVec_inj.1
  rw [← pack_unpack_toBits, ← pack_unpack_toBits, h]

/-! ## Signs of zeros -/

/-- The number is zero, of either sign. -/
def IsZero (x : Float) : Prop :=
  x = -0.0 ∨ x = 0.0

theorem isZero_iff {x : Float} : IsZero x ↔ ∃ s, x.toModel.unpack = .zero s := by
  constructor
  · rintro (rfl | rfl)
    · exact ⟨.negative, rfl⟩
    · exact ⟨.positive, rfl⟩
  · rintro ⟨s, h⟩
    cases s with
    | negative => exact .inl (eq_of_unpack_eq h)
    | positive => exact .inr (eq_of_unpack_eq h)

/-- The number, with zero in the place of minus zero. -/
def unsigned (x : Float) : Float :=
  if x = -0.0 then 0.0 else x

theorem unsigned_of_isZero {x : Float} (h : IsZero x) : unsigned x = 0.0 := by
  rcases h with rfl | rfl
  · exact if_pos rfl
  · exact ite_self _

/-- Without signs of zeros, two numbers are equal if they are, or both are zero. -/
theorem unsigned_eq_iff {x y : Float} :
    unsigned x = unsigned y ↔ (IsZero x ∧ IsZero y) ∨ x = y := by
  constructor
  · intro h
    by_cases hx : x = -0.0
    · by_cases hy : y = -0.0
      · exact .inr (hx.trans hy.symm)
      · rw [unsigned, unsigned, if_pos hx, if_neg hy] at h
        exact .inl ⟨.inl hx, .inr h.symm⟩
    · by_cases hy : y = -0.0
      · rw [unsigned, unsigned, if_neg hx, if_pos hy] at h
        exact .inl ⟨.inr h, .inl hy⟩
      · rw [unsigned, unsigned, if_neg hx, if_neg hy] at h
        exact .inr h
  · rintro (⟨hx, hy⟩ | rfl)
    · rw [unsigned_of_isZero hx, unsigned_of_isZero hy]
    · rfl

theorem isNaN_of_isZero {x : Float} (h : IsZero x) : x.isNaN = false := by
  rcases h with rfl | rfl <;> rfl

theorem isNaN_unsigned (x : Float) : (unsigned x).isNaN = x.isNaN := by
  rw [unsigned]
  split
  · next h => rw [h, isNaN_of_isZero (.inl rfl), isNaN_of_isZero (.inr rfl)]
  · rfl

/-- Numbers are equal when they are the same up to the sign of a zero, and are numbers. -/
theorem beq_iff {x y : Float} :
    (x == y) = true ↔ unsigned x = unsigned y ∧ x.isNaN = false := by
  show (x.toModel.unpack.compare y.toModel.unpack == some .eq) = true ↔ _
  rw [beq_iff_eq, compare_eq_iff, unsigned_eq_iff]
  constructor
  · rintro (⟨s, t, hx, hy⟩ | ⟨h, hnumber⟩)
    · have hzero : IsZero x := isZero_iff.2 ⟨s, hx⟩
      exact ⟨.inl ⟨hzero, isZero_iff.2 ⟨t, hy⟩⟩, isNaN_of_isZero hzero⟩
    · exact ⟨.inr (eq_of_unpack_eq h), hnumber⟩
  · rintro ⟨⟨hx, hy⟩ | rfl, hnumber⟩
    · obtain ⟨s, hs⟩ := isZero_iff.1 hx
      obtain ⟨t, ht⟩ := isZero_iff.1 hy
      exact .inl ⟨s, t, hs, ht⟩
    · exact .inr ⟨rfl, hnumber⟩

end SmallLisp.Number
