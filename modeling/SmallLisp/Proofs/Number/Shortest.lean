import Mathlib
import SmallLisp.Number.Shortest

/-!
# The shortest decimal reads back

`readsBack_shortest` says that the decimal chosen for a code rounds to that code again.  A candidate
of the search is kept only if it does, and when there is none the exact expansion is taken, which
does by `codeOfRatio_unitsOfCode`: a whole number of units that has a code rounds to it.

The second part is about the digits of such a decimal.  The digits in front of the point and those
after it, without the zeros at the end, are one whole number over a power of ten, and that ratio is
the decimal (`codeOfRatio_places`).
-/

namespace SmallLisp.Number

/-! ## Rounding -/

/-- A fraction need not be in lowest terms to be rounded. -/
theorem nearest_mul_left {k : Nat} (hk : 0 < k) (num den : Nat) :
    nearest (k * num) (k * den) = nearest num den := by
  have htwo : 2 * (k * (num % den)) = k * (2 * (num % den)) := Nat.mul_left_comm ..
  simp only [nearest, Nat.mul_div_mul_left _ _ hk, Nat.mul_mod_mul_left, htwo,
    Nat.mul_lt_mul_left hk]

/-- A ratio and the same ratio in other terms have one code. -/
theorem codeOfRatio_mul_left {k : Nat} (hk : 0 < k) (num den : Nat) :
    codeOfRatio (k * num) (k * den) = codeOfRatio num den := by
  simp only [codeOfRatio, Nat.mul_assoc]
  rw [Nat.mul_div_mul_left _ _ hk, nearest_mul_left hk]

theorem log2_mul_two_pow {n : Nat} (hn : n ≠ 0) (k : Nat) : (n * 2 ^ k).log2 = n.log2 + k := by
  have hpos : 0 < 2 ^ k := Nat.two_pow_pos k
  obtain ⟨hlow, hhigh⟩ := (Nat.log2_eq_iff hn).1 rfl
  refine (Nat.log2_eq_iff (Nat.mul_ne_zero hn hpos.ne')).2 ⟨?_, ?_⟩
  · rw [Nat.pow_add]
    exact Nat.mul_le_mul_right _ hlow
  · rw [Nat.add_right_comm, Nat.pow_add]
    exact Nat.mul_lt_mul_of_pos_right hhigh hpos

/-- Whole numbers are not rounded. -/
theorem nearest_of_dvd (n : Nat) {den : Nat} (h : 0 < den) : nearest (n * den) den = n := by
  simp [nearest, Nat.mul_div_cancel _ h, h]

theorem unitsPerOne_eq : unitsPerOne = Nat.pow 2 decimalPlaces := by
  unfold unitsPerOne decimalPlaces
  exact Eq.refl _

theorem unitsPerOne_pos : 0 < unitsPerOne := by
  rw [unitsPerOne_eq]
  exact Nat.two_pow_pos _

/-- A whole number of units is rounded by its own length. -/
theorem codeOfRatio_units (units : Nat) :
    codeOfRatio units unitsPerOne =
      (units.log2 - 52) * 2 ^ 52 + nearest units (2 ^ (units.log2 - 52)) := by
  simp only [codeOfRatio]
  rw [Nat.mul_div_cancel _ unitsPerOne_pos, Nat.mul_comm units, nearest_mul_left unitsPerOne_pos]
  rfl

/-- The units of a code, by its exponent and its mantissa. -/
theorem unitsOfCode_eq (code : Nat) :
    unitsOfCode code =
      if code / 2 ^ 52 = 0 then code % 2 ^ 52
      else (2 ^ 52 + code % 2 ^ 52) * 2 ^ (code / 2 ^ 52 - 1) := by
  rfl

/-- The units of a code round to that code. -/
theorem codeOfRatio_unitsOfCode (code : Nat) :
    codeOfRatio (unitsOfCode code) unitsPerOne = code := by
  have hlt : code % 2 ^ 52 < 2 ^ 52 := Nat.mod_lt _ (by decide)
  rw [codeOfRatio_units]
  by_cases h : code / 2 ^ 52 = 0
  · have hu : unitsOfCode code = code := by
      rw [unitsOfCode_eq, if_pos h]
      omega
    have hlog : code.log2 - 52 = 0 := by
      rcases Nat.eq_zero_or_pos code with h0 | h0
      · rw [h0]; rfl
      · have := (Nat.log2_lt (k := 52) (by omega)).2 (show code < 2 ^ 52 by omega)
        omega
    have hone := nearest_of_dvd code Nat.one_pos
    rw [Nat.mul_one] at hone
    rw [hu, hlog, Nat.pow_zero, hone, Nat.zero_mul, Nat.zero_add]
  · have hu : unitsOfCode code = (2 ^ 52 + code % 2 ^ 52) * 2 ^ (code / 2 ^ 52 - 1) := by
      rw [unitsOfCode_eq, if_neg h]
    have hlog : ((2 ^ 52 + code % 2 ^ 52) * 2 ^ (code / 2 ^ 52 - 1)).log2 - 52 =
        code / 2 ^ 52 - 1 := by
      have hlead : (2 ^ 52 + code % 2 ^ 52).log2 = 52 := (Nat.log2_eq_iff (by omega)).2 (by omega)
      rw [log2_mul_two_pow (by omega), hlead, Nat.add_sub_cancel_left]
    rw [hu, hlog, nearest_of_dvd _ (Nat.two_pow_pos _)]
    omega

/-- The exact expansion reads back. -/
theorem readsBack_expansion (code : Nat) : readsBack code (expansion code) = true := by
  have hpow : ∀ k, Nat.pow 10 k = Nat.pow 5 k * Nat.pow 2 k := fun k => Nat.mul_pow 5 2 k
  have hten : placesPerOne = Nat.pow 5 decimalPlaces * unitsPerOne := by
    rw [placesPerOne, unitsPerOne_eq, hpow]
  have hpos : 0 < Nat.pow 5 decimalPlaces := Nat.pow_pos (by decide)
  rw [readsBack, expansion, hten, Nat.mul_comm (unitsOfCode code), codeOfRatio_mul_left hpos,
    codeOfRatio_unitsOfCode, beq_self_eq_true]

/-- The shortest digits are read back as the number. -/
theorem readsBack_shortest (code : Nat) : readsBack code (shortest code) = true := by
  unfold shortest
  dsimp only
  cases h : (searchDigits code (expansion code) (Nat.toDigits 10 (expansion code)).length
      mostDigits 1).filter (readsBack code) with
  | none => exact readsBack_expansion code
  | some places => exact (Option.filter_eq_some_iff.1 h).2

/-! ## Digits -/

theorem eq_dropTrailingZeros_append (cs : List Char) :
    ∃ k, cs = dropTrailingZeros cs ++ List.replicate k '0' := by
  induction cs using List.reverseRecOn with
  | nil => exact ⟨0, rfl⟩
  | append_singleton cs c ih =>
    by_cases hc : c = '0'
    · obtain ⟨k, hk⟩ := ih
      have hdrop : dropTrailingZeros (cs ++ [c]) = dropTrailingZeros cs :=
        List.rdropWhile_concat_pos _ _ _ (by simp [hc])
      refine ⟨k + 1, ?_⟩
      rw [hdrop, List.replicate_succ', ← List.append_assoc, ← hk, hc]
    · have hkeep : dropTrailingZeros (cs ++ [c]) = cs ++ [c] :=
        List.rdropWhile_concat_neg _ _ _ (by simp [hc])
      exact ⟨0, by rw [hkeep, List.replicate_zero, List.append_nil]⟩

theorem isDigit_of_mem_toDigits {n : Nat} {c : Char} (h : c ∈ Nat.toDigits 10 n) :
    c.isDigit = true :=
  Nat.isDigit_of_mem_toDigits (by decide) (by decide) h

theorem isDigit_of_mem_paddedDigits {width n : Nat} {c : Char} (h : c ∈ paddedDigits width n) :
    c.isDigit = true := by
  rcases List.mem_append.1 h with hz | hd
  · rw [(List.mem_replicate.1 hz).2]
    rfl
  · exact isDigit_of_mem_toDigits hd

theorem length_paddedDigits {width n : Nat} (hw : 0 < width) (h : n < 10 ^ width) :
    (paddedDigits width n).length = width := by
  have hle := (Nat.length_toDigits_le_iff (by decide) hw).2 h
  simp only [paddedDigits, List.length_append, List.length_replicate]
  omega

/-- Padding does not change the number that digits stand for. -/
theorem ofDigitChars_paddedDigits (width n : Nat) :
    Nat.ofDigitChars 10 (paddedDigits width n) 0 = n := by
  simp only [paddedDigits, Nat.ofDigitChars_append, Nat.ofDigitChars_replicate_zero, Nat.mul_zero,
    Nat.ofDigitChars_ten_toDigits]

theorem mod_placesPerOne_lt (places : Nat) : places % placesPerOne < 10 ^ decimalPlaces := by
  have hpow : ∀ k, Nat.pow 10 k = 10 ^ k := fun _ => rfl
  rw [placesPerOne, hpow]
  exact Nat.mod_lt _ (Nat.pow_pos (by decide))

/-- The digits of a number of places: those in front of the point, and some after it that leave
only zeros out. -/
theorem ofDigitChars_places {places k : Nat} {after : List Char}
    (h : paddedDigits decimalPlaces (places % placesPerOne) = after ++ List.replicate k '0') :
    after.length + k = decimalPlaces ∧
      10 ^ k * Nat.ofDigitChars 10 (Nat.toDigits 10 (places / placesPerOne) ++ after) 0 =
        places := by
  have hlen : after.length + k = decimalPlaces := by
    have := length_paddedDigits (by decide) (mod_placesPerOne_lt places)
    rwa [h, List.length_append, List.length_replicate] at this
  refine ⟨hlen, ?_⟩
  rw [Nat.ofDigitChars_append, Nat.ofDigitChars_ten_toDigits, ← Nat.ofDigitChars_replicate_zero,
    ← Nat.ofDigitChars_append, ← h, Nat.ofDigitChars_eq_ofDigitChars_zero,
    ofDigitChars_paddedDigits, h, List.length_append, List.length_replicate, hlen]
  exact Nat.div_add_mod places placesPerOne

/-- The digits read back as the ratio that they were taken from. -/
theorem codeOfRatio_places {places k : Nat} {after : List Char}
    (h : paddedDigits decimalPlaces (places % placesPerOne) = after ++ List.replicate k '0') :
    codeOfRatio (Nat.ofDigitChars 10 (Nat.toDigits 10 (places / placesPerOne) ++ after) 0)
      (10 ^ after.length) = codeOfRatio places placesPerOne := by
  obtain ⟨hlen, hval⟩ := ofDigitChars_places h
  have hk : 0 < 10 ^ k := Nat.pow_pos (by decide)
  rw [← codeOfRatio_mul_left hk, hval, ← Nat.pow_add, Nat.add_comm k, hlen]
  rfl

theorem exists_positional (places : Nat) :
    ∃ after k, paddedDigits decimalPlaces (places % placesPerOne) = after ++ List.replicate k '0' ∧
      (positional places = Nat.toDigits 10 (places / placesPerOne) ∧ after = ['0'] ∨
        positional places = Nat.toDigits 10 (places / placesPerOne) ++ '.' :: after) := by
  obtain ⟨k, hk⟩ :=
    eq_dropTrailingZeros_append (paddedDigits decimalPlaces (places % placesPerOne))
  cases hf : dropTrailingZeros (paddedDigits decimalPlaces (places % placesPerOne)) with
  | nil =>
    rw [hf, List.nil_append] at hk
    have hlen := length_paddedDigits (by decide) (mod_placesPerOne_lt places)
    rw [hk, List.length_replicate] at hlen
    refine ⟨['0'], decimalPlaces - 1, ?_, Or.inl ⟨?_, rfl⟩⟩
    · rw [hk, hlen]
      rfl
    · simp only [positional, hf, List.isEmpty_nil, if_true]
  | cons c cs =>
    rw [hf] at hk
    refine ⟨c :: cs, k, hk, Or.inr ?_⟩
    simp only [positional, hf, List.isEmpty_cons, Bool.false_eq_true, if_false]

end SmallLisp.Number
