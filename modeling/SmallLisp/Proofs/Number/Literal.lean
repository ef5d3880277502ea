import Mathlib
import SmallLisp.Number.Literal
import SmallLisp.Proofs.Number.Binary64
import SmallLisp.Proofs.Number.Shortest
import SmallLisp.Value.Text

/-!
# Number words read back

Both texts of numbers are words that read back as the number.

* `readInteger?_integerText`: the text of an integer is read as that integer.
* `readFloat?_floatSource`: the program text of a finite float is read as that float.  It is a sign,
  digits, a point and digits (`floatSource_eq`), so it is no integer word.
* `isFinite_of_readFloat?`: every float word has a finite value.

`signed` puts a minus sign in front of digits.  It is the shape of both texts.
-/

namespace SmallLisp.Number

/-- Digits after a minus sign, or without one. -/
def signed (negative : Bool) (digits : List Char) : List Char :=
  if negative then '-' :: digits else digits

theorem signed_append (negative : Bool) (ds es : List Char) :
    signed negative ds ++ es = signed negative (ds ++ es) := by
  cases negative <;> rfl

theorem mem_signed {negative : Bool} {ds : List Char} {c : Char} (h : c ∈ ds) :
    c ∈ signed negative ds := by
  cases negative with
  | true => exact List.mem_cons_of_mem _ h
  | false => exact h

theorem contains_signed {negative : Bool} {ds : List Char} {c : Char} (hc : c ≠ '-') :
    (signed negative ds).contains c = ds.contains c := by
  cases negative with
  | true => simp [signed, hc]
  | false => rfl

theorem splitSign_of_isDigit {c : Char} (h : c.isDigit = true) (cs : List Char) :
    splitSign (c :: cs) = (false, c :: cs) := by
  unfold splitSign
  split
  · next heq =>
    rw [(List.cons.inj heq).1] at h
    exact absurd h (by decide)
  · next heq =>
    rw [(List.cons.inj heq).1] at h
    exact absurd h (by decide)
  · rfl

/-- A sign in front of digits is split off again. -/
theorem splitSign_signed (negative : Bool) {ds : List Char} (hne : ds ≠ [])
    (h : ∀ c ∈ ds, c.isDigit = true) (rest : List Char) :
    splitSign (signed negative (ds ++ rest)) = (negative, ds ++ rest) := by
  cases negative with
  | true => rfl
  | false =>
    cases ds with
    | nil => exact absurd rfl hne
    | cons c ds => exact splitSign_of_isDigit (h c List.mem_cons_self) _

theorem mem_splitSign {word : List Char} {c : Char} (hc : isSign c = false) (h : c ∈ word) :
    c ∈ (splitSign word).2 := by
  unfold splitSign
  split
  · next cs =>
    rcases List.mem_cons.1 h with rfl | h
    · exact absurd hc (by decide)
    · exact h
  · next cs =>
    rcases List.mem_cons.1 h with rfl | h
    · exact absurd hc (by decide)
    · exact h
  · exact h

/-! ## Integers -/

theorem toList_integerText (n : Int64) :
    (integerText n).toList = signed (n.toInt < 0) (Nat.toDigits 10 n.toInt.natAbs) := by
  rw [integerText, wholeText, String.toList_ofList, signed]
  simp only [decide_eq_true_eq]

/-- The text of an integer is read as that integer. -/
theorem readInteger?_integerText (n : Int64) : readInteger? (integerText n).toList = some n := by
  have hsplit := splitSign_signed (n.toInt < 0) Nat.toDigits_ne_nil
    (fun c => isDigit_of_mem_toDigits (n := n.toInt.natAbs)) []
  rw [List.append_nil] at hsplit
  have hempty : (Nat.toDigits 10 n.toInt.natAbs).isEmpty = false := by
    simp
  have hall : (Nat.toDigits 10 n.toInt.natAbs).all isDigit = true :=
    List.all_eq_true.2 fun c hc => isDigit_of_mem_toDigits hc
  have hvalue : (if n.toInt < 0 then -(n.toInt.natAbs : Int) else n.toInt.natAbs) = n.toInt := by
    split <;> omega
  have hlow : -0x8000000000000000 ≤ n.toInt := n.le_toInt
  have hhigh : n.toInt < 0x8000000000000000 := n.toInt_lt
  rw [toList_integerText, readInteger?, hsplit]
  simp only [hempty, hall, Bool.not_true, Bool.or_self, Bool.false_eq_true, if_false,
    Nat.ofDigitChars_ten_toDigits, decide_eq_true_eq, hvalue, hlow, hhigh, and_self, if_true,
    Int64.ofInt_toInt]

/-- A word with a point in it is no integer. -/
theorem readInteger?_of_point {word : List Char} (h : '.' ∈ word) : readInteger? word = none := by
  have hmem := mem_splitSign (by decide) h
  have hall : (splitSign word).2.all isDigit = false :=
    List.all_eq_false.2 ⟨'.', hmem, by decide⟩
  simp only [readInteger?, hall, Bool.not_false, Bool.or_true, if_true]

/-! ## Floats -/

theorem digit?_of_isDigit {c : Char} (h : c.isDigit = true) :
    digit? 10 c = some (c.toNat - '0'.toNat) := by
  have hd : hexDigit? c = some (c.toNat - '0'.toNat) := if_pos h
  have hlt : c.toNat - '0'.toNat < 10 := by
    simp only [Char.isDigit, Bool.and_eq_true, decide_eq_true_eq] at h
    have h2 : c.toNat ≤ 57 := h.2
    show c.toNat - 48 < 10
    omega
  rw [digit?, hd, Option.filter_some, decide_eq_true hlt, if_pos rfl]

/-- Reading digits adds them to the mantissa. -/
theorem Mantissa.read_digits (m : Mantissa) {ds : List Char} (rest : List Char)
    (h : ∀ c ∈ ds, c.isDigit = true) :
    m.read 10 (ds ++ rest) =
      Mantissa.read 10
        { value := Nat.ofDigitChars 10 ds m.value
          places := if m.point then m.places + ds.length else m.places
          point := m.point
          digits := m.digits || !ds.isEmpty } rest := by
  induction ds generalizing m with
  | nil => simp
  | cons c ds ih =>
    have hc : c.isDigit = true := h c List.mem_cons_self
    have hu : c ≠ '_' := by rintro rfl; cases hc
    have hp : c ≠ '.' := by rintro rfl; cases hc
    rw [List.cons_append, Mantissa.read, if_neg hu, if_neg hp, digit?_of_isDigit hc]
    dsimp only
    rw [ih _ fun d hd => h d (List.mem_cons_of_mem _ hd)]
    congr 1
    simp only [Mantissa.push, Nat.ofDigitChars_cons, Nat.mul_comm 10, List.length_cons,
      List.isEmpty_cons, Bool.not_false, Bool.or_true, Bool.true_or]
    split <;> simp [Nat.add_assoc, Nat.add_comm 1]

theorem codeOfScaled_neg (value k : Nat) :
    codeOfScaled value 10 (-(k : Int)) = codeOfRatio value (10 ^ k) := by
  cases k with
  | zero => simp [codeOfScaled]
  | succ k => rfl

/-- Digits, a point and digits are read as one whole number over a power of ten. -/
theorem decimalCode?_point {whole after : List Char} (hw : ∀ c ∈ whole, c.isDigit = true)
    (hne : whole ≠ []) (ha : ∀ c ∈ after, c.isDigit = true) :
    decimalCode? (whole ++ '.' :: after) =
      some (codeOfRatio (Nat.ofDigitChars 10 (whole ++ after) 0) (10 ^ after.length)) := by
  have hread : Mantissa.read 10 {} (whole ++ '.' :: after) =
      ({ value := Nat.ofDigitChars 10 (whole ++ after) 0, places := after.length, point := true,
         digits := true }, []) := by
    have hafter := Mantissa.read_digits
      { value := Nat.ofDigitChars 10 whole 0, places := 0, point := true, digits := true } [] ha
    rw [List.append_nil] at hafter
    rw [Mantissa.read_digits {} _ hw, Mantissa.read, if_neg (by decide), if_pos rfl]
    have hempty : whole.isEmpty = false := by simpa using hne
    simp only [hempty, Bool.not_false, Bool.or_true, Bool.false_eq_true, if_false]
    rw [hafter, Mantissa.read, Nat.ofDigitChars_append]
    simp
  simp only [decimalCode?, hread, Bool.not_true, Bool.false_eq_true, if_false]
  rw [codeOfScaled_neg]

/-- A word without the letter of the hexadecimal form is decimal. -/
theorem magnitudeCode?_of_not_mem {cs : List Char} (hx : 'x' ∉ cs) (hX : 'X' ∉ cs) :
    magnitudeCode? cs = decimalCode? cs := by
  unfold magnitudeCode?
  split
  · next b c cs =>
    have h1 : b ≠ 'x' := by rintro rfl; exact hx (by simp)
    have h2 : b ≠ 'X' := by rintro rfl; exact hX (by simp)
    simp [h1, h2]
  · rfl

/-- Only digits and points stand in digits, a point and digits. -/
theorem mem_point {whole after : List Char} (hw : ∀ c ∈ whole, c.isDigit = true)
    (ha : ∀ c ∈ after, c.isDigit = true) {c : Char} (h : c ∈ whole ++ '.' :: after) :
    c.isDigit = true ∨ c = '.' := by
  rcases List.mem_append.1 h with h | h
  · exact Or.inl (hw c h)
  · rcases List.mem_cons.1 h with h | h
    · exact Or.inr h
    · exact Or.inl (ha c h)

/-- A sign, digits, a point and digits are read as a float. -/
theorem readFloat?_point (negative : Bool) {whole after : List Char}
    (hw : ∀ c ∈ whole, c.isDigit = true) (hne : whole ≠ [])
    (ha : ∀ c ∈ after, c.isDigit = true) {code : Nat} (hcode : code < infinityCode)
    (h : codeOfRatio (Nat.ofDigitChars 10 (whole ++ after) 0) (10 ^ after.length) = code) :
    readFloat? (signed negative (whole ++ '.' :: after)) = some (ofCode negative code) := by
  have hout : ∀ {c : Char}, c.isDigit = false → c ≠ '.' → c ∉ whole ++ '.' :: after := by
    intro c hd hp hmem
    rcases mem_point hw ha hmem with h | h
    · exact absurd h (by rw [hd]; decide)
    · exact hp h
  have hmagnitude : magnitudeCode? (whole ++ '.' :: after) = some code := by
    rw [magnitudeCode?_of_not_mem (hout rfl (by decide)) (hout rfl (by decide)),
      decimalCode?_point hw hne ha, h]
  have hunderscore : (signed negative (whole ++ '.' :: after)).contains '_' = false := by
    rw [contains_signed (by decide), List.contains_eq_mem, decide_eq_false_iff_not]
    exact hout rfl (by decide)
  simp only [readFloat?, splitSign_signed negative hne hw, hmagnitude, hunderscore, hcode,
    Bool.not_false, Bool.true_or, decide_true, Bool.and_self, if_true]

/-- The program text of a finite float is a sign, digits, a point and digits that round to it. -/
theorem floatSource_eq {x : Float} (h : isFinite x = true) :
    ∃ whole after, whole ≠ [] ∧ (∀ c ∈ whole, c.isDigit = true) ∧
      (∀ c ∈ after, c.isDigit = true) ∧
      (Value.floatSource x).toList = signed (isNegative x) (whole ++ '.' :: after) ∧
      codeOfRatio (Nat.ofDigitChars 10 (whole ++ after) 0) (10 ^ after.length) = codeOf x := by
  obtain ⟨after, k, hpad, hpos⟩ := exists_positional (shortest (codeOf x))
  have hcode := codeOfRatio_places hpad
  rw [eq_of_beq (readsBack_shortest (codeOf x))] at hcode
  have hafter : ∀ c ∈ after, c.isDigit = true := by
    intro c hc
    apply @isDigit_of_mem_paddedDigits decimalPlaces (shortest (codeOf x) % placesPerOne)
    rw [hpad]
    exact List.mem_append_left _ hc
  refine ⟨Nat.toDigits 10 (shortest (codeOf x) / placesPerOne), after, Nat.toDigits_ne_nil,
    fun c => isDigit_of_mem_toDigits, hafter, ?_, hcode⟩
  have htext : (floatText x).toList = signed (isNegative x) (positional (shortest (codeOf x))) := by
    rw [floatText, if_pos h, String.toList_ofList, finiteText, signed]
  rcases hpos with ⟨hwhole, rfl⟩ | hpoint
  · -- A whole number has no point in its text, so one is added.
    have hnone : (floatText x).toList.contains '.' = false := by
      rw [htext, hwhole, contains_signed (by decide), List.contains_eq_mem,
        decide_eq_false_iff_not]
      intro hmem
      exact absurd (isDigit_of_mem_toDigits hmem) (by decide)
    simp only [Value.floatSource, h, hnone, Bool.not_false, Bool.and_self, if_true]
    rw [String.toList_append, htext, hwhole, signed_append]
    rfl
  · have hsome : (floatText x).toList.contains '.' = true := by
      rw [htext, hpoint, contains_signed (by decide), List.contains_eq_mem, decide_eq_true_eq]
      exact List.mem_append_right _ List.mem_cons_self
    simp only [Value.floatSource, h, hsome, Bool.not_true, Bool.and_false, Bool.false_eq_true,
      if_false]
    rw [htext, hpoint]

/-- The program text of a finite float is read as that float. -/
theorem readFloat?_floatSource {x : Float} (h : isFinite x = true) :
    readFloat? (Value.floatSource x).toList = some x := by
  obtain ⟨whole, after, hne, hw, ha, hword, hcode⟩ := floatSource_eq h
  have hlt : codeOf x < infinityCode := by simpa [isFinite] using h
  rw [hword, readFloat?_point (isNegative x) hw hne ha hlt hcode, ofCode_codeOf h]

/-- The value of a float word is finite. -/
theorem isFinite_of_readFloat? {word : List Char} {x : Float} (h : readFloat? word = some x) :
    isFinite x = true := by
  simp only [readFloat?] at h
  cases hc : magnitudeCode? (splitSign word).2 with
  | none =>
    rw [hc] at h
    cases h
  | some code =>
    simp only [hc] at h
    split at h
    · next hok =>
      obtain rfl := Option.some.inj h
      exact isFinite_ofCode _ (of_decide_eq_true (Bool.and_eq_true_iff.1 hok).1)
    · cases h

end SmallLisp.Number
