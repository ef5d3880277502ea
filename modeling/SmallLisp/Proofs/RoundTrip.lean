import Mathlib
import SmallLisp.Proofs.Grammar
import SmallLisp.Proofs.Number.Literal
import SmallLisp.Proofs.Value.Map

/-!
# Program text reads back

`Readable v` says that `v` has a form in the language: it is an integer, a finite float, a text
without a quote, a named keyword, a symbol that is a word of its own, or a list of such values.

Reading gives readable lists only (`Items.readable`), and the program text of a readable list is
read as that list (`parse_source`).  The values equal to a readable one are readable
(`Readable.of_same`), so a value reads back from its program text exactly where it is a readable
list.

All that holds of values with strings.  One with other bytes among its texts is not read back even
if it is a readable list (`strayText_unread`), since what is read has only texts that are spelled in
UTF-8.  Among all values with texts of bytes, those that read back are the readable lists that are
spelled in UTF-8, which is `parse_source_iff`.
-/

namespace SmallLisp

section

open TextType

variable {τ : Type} [TextType τ]

/-- The values that have a form in the language. -/
inductive Readable : Value τ → Prop where
  | int (n : Int64) : Readable (.int n)
  | float {x : Float} (hx : Number.isFinite x = true) : Readable (.float x)
  | str {s : τ} (hs : '"' ∉ chars s) : Readable (.str s)
  | keyword {k : Keyword} (hk : k ∈ Keyword.named) : Readable (.keyword k)
  | symbol {name : τ} (hne : chars name ≠ [])
      (hw : ∀ c ∈ chars name, isWordBreak c = false) (hn : ¬NumberLike (chars name))
      (hk : ∀ k ∈ Keyword.named, ofString k.name ≠ name) : Readable (.symbol name)
  | list {items : List (Value τ)} (hi : ∀ v ∈ items, Readable v) : Readable (.list items)

/-- A readable list. -/
def ReadableList (v : Value τ) : Prop :=
  Readable v ∧ v.kind = .list

end

/-! ## What is read is readable -/

theorem WordMeans.readable {w : List Char} {v : Value} (h : WordMeans w v) (hne : w ≠ [])
    (hw : ∀ c ∈ w, isWordBreak c = false) : Readable v := by
  cases h with
  | integer _ _ => exact .int _
  | float _ _ hx => exact .float (Number.isFinite_of_readFloat? hx)
  | keyword hk => exact .keyword hk
  | symbol hn hk =>
    refine .symbol ?_ ?_ ?_ ?_
    · rwa [TextType.chars_string, String.toList_ofList]
    · rwa [TextType.chars_string, String.toList_ofList]
    · rwa [TextType.chars_string, String.toList_ofList]
    · intro k hk' heq
      rw [TextType.ofString_string] at heq
      exact hk k hk' (by rw [heq, String.toList_ofList])

/-- Items are readable. -/
theorem Items.readable {cs : List Char} {vs : List Value} (h : Items cs vs) :
    ∀ v ∈ vs, Readable v := by
  induction h with
  | nil => simp
  | blank _ _ ih => exact ih
  | list _ _ ihItems ihRest => exact List.forall_mem_cons.2 ⟨.list ihItems, ihRest⟩
  | text hs _ ih =>
    refine List.forall_mem_cons.2 ⟨.str ?_, ih⟩
    rwa [TextType.chars_string, String.toList_ofList]
  | word hne hw _ hv _ ih => exact List.forall_mem_cons.2 ⟨hv.readable hne hw, ih⟩

/-- What is read from bytes is a readable list. -/
theorem readableList_of_parse {bytes : List UInt8} {v : Value} (h : parse bytes = .ok v) :
    ReadableList v := by
  obtain ⟨before, inner, after, vs, -, -, hitems, -, rfl⟩ := parseText_eq_ok_iff.1 h
  exact ⟨.list hitems.readable, rfl⟩

/-! ## What is readable is read -/

theorem isWordBreak_of_mem_signed {negative : Bool} {ds : List Char}
    (hd : ∀ c ∈ ds, isWordBreak c = false) :
    ∀ c ∈ Number.signed negative ds, isWordBreak c = false := by
  cases negative with
  | true => exact List.forall_mem_cons.2 ⟨rfl, hd⟩
  | false => exact hd

theorem NumberLike.ne_nil {w : List Char} (h : NumberLike w) : w ≠ [] := by
  rcases h with ⟨_, _, rfl, _⟩ | ⟨_, _, _, rfl, _⟩ <;> exact List.cons_ne_nil _ _

theorem numberLike_signed (negative : Bool) {ds : List Char} (hne : ds ≠ [])
    (hd : ∀ c ∈ ds, c.isDigit = true) (rest : List Char) :
    NumberLike (Number.signed negative (ds ++ rest)) := by
  cases ds with
  | nil => exact absurd rfl hne
  | cons d ds =>
    have hdigit := hd d List.mem_cons_self
    cases negative with
    | true => exact .inr ⟨'-', d, ds ++ rest, rfl, .inr rfl, hdigit⟩
    | false => exact .inl ⟨d, ds ++ rest, rfl, hdigit⟩

/-- Says that the text of a value may stand in front of other items. -/
def Leads (v : Value) : Prop :=
  ∀ cs vs, EndsWord cs → Items cs vs → Items (v.source.toList ++ cs) (v :: vs)

/-- Source text without breaks leads, if it means the value as a word. -/
theorem leads_word {v : Value} (hne : v.source.toList ≠ [])
    (hw : ∀ c ∈ v.source.toList, isWordBreak c = false) (hv : WordMeans v.source.toList v) :
    Leads v := by
  intro cs vs hcs hitems
  exact .word hne hw hcs hv hitems

theorem toList_source_int (n : Int64) :
    (Value.int n : Value).source.toList =
      Number.signed (n.toInt < 0) (Nat.toDigits 10 n.toInt.natAbs) :=
  Number.toList_integerText n

theorem numberLike_int (n : Int64) : NumberLike (Value.int n : Value).source.toList := by
  have hdigits : ∀ c ∈ Nat.toDigits 10 n.toInt.natAbs, c.isDigit = true :=
    fun c => Number.isDigit_of_mem_toDigits
  have hlike := numberLike_signed (n.toInt < 0) Nat.toDigits_ne_nil hdigits []
  rwa [List.append_nil, ← toList_source_int] at hlike

theorem isWordBreak_source_int (n : Int64) :
    ∀ c ∈ (Value.int n : Value).source.toList, isWordBreak c = false := by
  rw [toList_source_int]
  exact isWordBreak_of_mem_signed fun c hc =>
    isWordBreak_of_isDigit (Number.isDigit_of_mem_toDigits hc)

/-- Whole numbers are read back. -/
theorem leads_int (n : Int64) : Leads (.int n) :=
  leads_word (numberLike_int n).ne_nil (isWordBreak_source_int n)
    (.integer (numberLike_int n) (Number.readInteger?_integerText n))

theorem numberLike_float {x : Float} (hx : Number.isFinite x = true) :
    NumberLike (Value.float x : Value).source.toList := by
  obtain ⟨whole, after, hne, hw, -, htext, -⟩ := Number.floatSource_eq hx
  have hlike := numberLike_signed (Number.isNegative x) hne hw ('.' :: after)
  rwa [← htext] at hlike

theorem isWordBreak_source_float {x : Float} (hx : Number.isFinite x = true) :
    ∀ c ∈ (Value.float x : Value).source.toList, isWordBreak c = false := by
  obtain ⟨whole, after, -, hw, ha, htext, -⟩ := Number.floatSource_eq hx
  have hsource : (Value.float x : Value).source.toList =
      Number.signed (Number.isNegative x) (whole ++ '.' :: after) := htext
  rw [hsource]
  refine isWordBreak_of_mem_signed fun c hc => ?_
  rcases Number.mem_point hw ha hc with hd | rfl
  · exact isWordBreak_of_isDigit hd
  · rfl

/-- So are finite numbers: the digits are the shortest ones that are read back. -/
theorem leads_float {x : Float} (hx : Number.isFinite x = true) : Leads (.float x) := by
  obtain ⟨whole, after, -, -, -, htext, -⟩ := Number.floatSource_eq hx
  have hpoint : '.' ∈ (Value.floatSource x).toList := by
    rw [htext]
    exact Number.mem_signed (List.mem_append_right _ List.mem_cons_self)
  exact leads_word (numberLike_float hx).ne_nil (isWordBreak_source_float hx)
    (.float (numberLike_float hx) (Number.readInteger?_of_point hpoint)
      (Number.readFloat?_floatSource hx))

/-- So are texts, up to the quote behind them. -/
theorem leads_str {s : String} (hs : '"' ∉ s.toList) : Leads (.str s) := by
  intro cs vs _ hitems
  have h := Items.text hs hitems
  rw [String.ofList_toList] at h
  simpa [Value.source] using h

/-- So are keywords, whose names are reserved. -/
theorem leads_keyword {k : Keyword} (hk : k ∈ Keyword.named) : Leads (.keyword k) := by
  have hne : ∀ k ∈ Keyword.named, k.name.toList ≠ [] := by decide
  have hall : ∀ k ∈ Keyword.named, k.name.toList.all (!isWordBreak ·) = true := by decide
  have hw : ∀ c ∈ k.name.toList, isWordBreak c = false := by
    intro c hc
    simpa using List.all_eq_true.1 (hall k hk) c hc
  exact leads_word (hne k hk) hw (.keyword hk)

/-- So are symbols, if the name is no number and not reserved. -/
theorem leads_symbol {name : String} (hne : name.toList ≠ [])
    (hw : ∀ c ∈ name.toList, isWordBreak c = false) (hn : ¬NumberLike name.toList)
    (hk : ∀ k ∈ Keyword.named, k.name ≠ name) : Leads (.symbol name) := by
  refine leads_word hne hw ?_
  have hk' : ∀ k ∈ Keyword.named, k.name.toList ≠ name.toList :=
    fun k hk' heq => hk k hk' (String.toList_inj.1 heq)
  have h := WordMeans.symbol hn hk'
  rwa [String.ofList_toList] at h

/-- Texts of values with a space between neighbours are the values. -/
theorem items_spaced {vs : List Value} (h : ∀ v ∈ vs, Leads v) :
    Items (Text.spaced (Value.sources vs)).toList vs := by
  induction vs with
  | nil => exact .nil
  | cons v vs ih =>
    obtain ⟨hv, hvs⟩ := List.forall_mem_cons.1 h
    cases vs with
    | nil =>
      have hlast := hv [] [] endsWord_nil .nil
      rwa [List.append_nil] at hlast
    | cons w ws =>
      have hblank : Items (' ' :: (Text.spaced (Value.sources (w :: ws))).toList) (w :: ws) :=
        .blank rfl (ih hvs)
      have hfirst := hv _ _ (endsWord_cons rfl _) hblank
      simpa [Value.sources, Text.spaced] using hfirst

theorem toList_source_list (items : List Value) :
    (Value.list items : Value).source.toList =
      '(' :: ((Text.spaced (Value.sources items)).toList ++ [')']) := by
  simp [Value.source]

/-- The text of a readable value may stand in front of other items. -/
theorem Readable.leads {v : Value} (h : Readable v) : Leads v := by
  induction h with
  | int n => exact leads_int n
  | float hx => exact leads_float hx
  | str hs => exact leads_str hs
  | keyword hk => exact leads_keyword hk
  | symbol hne hw hn hk => exact leads_symbol hne hw hn hk
  | list _ ih =>
    intro cs vs _ hitems
    have h := Items.list (items_spaced ih) hitems
    rw [toList_source_list]
    simpa using h

/-- The program text of a readable list is read as that list. -/
theorem parse_source {v : Value} (h : ReadableList v) :
    parse (Text.bytesOf v.source) = .ok v := by
  obtain ⟨hv, hk⟩ := h
  cases hv with
  | @list items hi =>
    have hhead : (Value.list items : Value).source.toList.head? ≠ some Text.byteOrderMark := by
      rw [toList_source_list, List.head?_cons]
      decide
    have hitems := items_spaced fun v hv => (hi v hv).leads
    rw [parse, Text.decode_bytesOf hhead, parseText_eq_ok_iff, toList_source_list]
    exact ⟨[], _, [], items, by simp, by simp, hitems, rfl, rfl⟩
  | _ => cases hk

/-! ## Equality -/

theorem sameAll_iff {τ : Type} [BEq τ] {vs ws : List (Value τ)} :
    Value.sameAll vs ws = true ↔ List.Forall₂ (fun v w => v.same w = true) vs ws := by
  induction vs generalizing ws with
  | nil => cases ws <;> simp [Value.sameAll]
  | cons v vs ih => cases ws <;> simp [Value.sameAll, ih]

/-- A readable value has no NaN in it, so it is the same as itself. -/
theorem Readable.same_self {τ : Type} [TextType τ] [BEq τ] [ReflBEq τ] {v : Value τ}
    (h : Readable v) : v.same v = true := by
  induction h with
  | int n => simp [Value.same]
  | float hx => exact Number.beq_self_of_isFinite hx
  | str _ => simp [Value.same]
  | keyword _ => simp [Value.same]
  | symbol _ _ _ _ => simp [Value.same]
  | list _ ih =>
    rw [Value.same, sameAll_iff]
    exact List.forall₂_same.2 ih

theorem exists_of_forall₂ {vs ws : List Value} {R : Value → Value → Prop}
    (h : List.Forall₂ R vs ws) {w : Value} (hw : w ∈ ws) : ∃ v ∈ vs, R v w := by
  induction h with
  | nil => cases hw
  | @cons v w' vs ws hr _ ih =>
    rcases List.mem_cons.1 hw with rfl | hw
    · exact ⟨v, List.mem_cons_self, hr⟩
    · obtain ⟨u, hu, hr⟩ := ih hw
      exact ⟨u, List.mem_cons_of_mem _ hu, hr⟩

/-- A value equal to a readable one is readable, and of the same kind. -/
theorem Readable.of_same {v w : Value} (h : Readable v) (hs : v.same w = true) :
    Readable w ∧ w.kind = v.kind := by
  induction h generalizing w with
  | int n =>
    cases w with
    | int m => exact ⟨.int m, rfl⟩
    | _ => simp [Value.same] at hs
  | float hx =>
    cases w with
    | float y => exact ⟨.float (Number.isFinite_of_beq hs ▸ hx), rfl⟩
    | _ => simp [Value.same] at hs
  | str ht =>
    cases w with
    | str t =>
      rw [Value.same, beq_iff_eq] at hs
      exact ⟨.str (hs ▸ ht), rfl⟩
    | _ => simp [Value.same] at hs
  | keyword hk =>
    cases w with
    | keyword l =>
      rw [Value.same, beq_iff_eq] at hs
      exact ⟨.keyword (hs ▸ hk), rfl⟩
    | _ => simp [Value.same] at hs
  | symbol hne hw hn hk =>
    cases w with
    | symbol t =>
      rw [Value.same, beq_iff_eq] at hs
      subst hs
      exact ⟨.symbol hne hw hn hk, rfl⟩
    | _ => simp [Value.same] at hs
  | list _ ih =>
    cases w with
    | list ys =>
      rw [Value.same, sameAll_iff] at hs
      refine ⟨.list fun y hy => ?_, rfl⟩
      obtain ⟨x, hx, hxy⟩ := exists_of_forall₂ hs hy
      exact (ih x hx hxy).1
    | _ => simp [Value.same] at hs

/-! ## Texts of bytes -/

/-- Whether a value is readable does not depend on whether its texts are strings or their bytes. -/
theorem readable_utf8 {w : Value} : Readable w.utf8 ↔ Readable w := by
  constructor
  · intro h
    generalize hv : w.utf8 = v at h
    induction h generalizing w with
    | int n =>
      cases w <;> cases hv
      exact .int n
    | float hx =>
      cases w <;> cases hv
      exact .float hx
    | str hs =>
      cases w <;> cases hv
      rw [Text.chars_bytesOf] at hs
      exact .str hs
    | keyword hk =>
      cases w <;> cases hv
      exact .keyword hk
    | symbol hne hw hn hk =>
      cases w <;> cases hv
      rw [Text.chars_bytesOf] at hne hw hn
      exact .symbol hne hw hn fun k hmem heq => hk k hmem (congrArg Text.bytesOf heq)
    | list _ ih =>
      cases w <;> cases hv
      refine .list fun u hu => ih u.utf8 ?_ rfl
      rw [Value.mapAll_eq]
      exact List.mem_map_of_mem hu
  · intro h
    induction h with
    | int n => exact .int n
    | float hx => exact .float hx
    | str hs => exact .str (by rwa [Text.chars_bytesOf])
    | keyword hk => exact .keyword hk
    | symbol hne hw hn hk =>
      refine .symbol ?_ ?_ ?_ fun k hmem heq =>
        hk k hmem (Text.leftInverse_bytesOf.injective heq)
      all_goals rwa [Text.chars_bytesOf]
    | @list items _ ih =>
      rw [Value.utf8, Value.map, Value.mapAll_eq]
      exact .list (List.forall_mem_map.2 ih)

theorem readableList_utf8 {w : Value} : ReadableList w.utf8 ↔ ReadableList w := by
  rw [ReadableList, readable_utf8, Value.utf8, Value.kind_map, ReadableList]

/-! ## Round trip -/

/-- Among all values with texts of bytes, one reads back from its program text exactly where it is a
readable list that is spelled in UTF-8: what is read is such a list, and such a list is read from
its program text. -/
theorem parse_source_iff :
    (∀ bytes v, parse bytes = .ok v → ReadableList v.utf8) ∧
      (∀ v, ReadableList v → v.IsUtf8 →
        ∃ w, parse v.source = .ok w ∧ w.utf8.same v = true) ∧
      ∀ v, (∃ w, parse v.source = .ok w ∧ w.utf8.same v = true) ↔ ReadableList v ∧ v.IsUtf8 := by
  have hread : ∀ v, ReadableList v → v.IsUtf8 →
      ∃ w, parse v.source = .ok w ∧ w.utf8.same v = true := by
    rintro v hv ⟨w, rfl⟩
    refine ⟨w, ?_, hv.1.same_self⟩
    rw [Value.source_utf8]
    exact parse_source (readableList_utf8.1 hv)
  refine ⟨fun bytes v h => readableList_utf8.2 (readableList_of_parse h), hread,
    fun v => ⟨?_, fun hv => hread v hv.1 hv.2⟩⟩
  rintro ⟨w, hw, hsame⟩
  obtain ⟨w', rfl, hsame'⟩ := Value.exists_of_same _ w v hsame
  obtain ⟨hreadable, hkind⟩ := readableList_of_parse hw
  obtain ⟨hw', hk⟩ := hreadable.of_same hsame'
  exact ⟨readableList_utf8.2 ⟨hw', hk.trans hkind⟩, w', rfl⟩

/-- Signs, an empty list and a text are read, and minus zero reads back from its text. -/
theorem parse_source_signs :
    (parse (Text.bytesOf "(if (- -12 +)\"a b\"())") =
        .ok (.list [.keyword .ifElse, .list [.symbol "-", .int (-12), .symbol "+"], .str "a b",
          .list []]) ∧
      ReadableList (Value.list [.keyword .ifElse, .list [.symbol "-", .int (-12), .symbol "+"],
        .str "a b", .list []]).utf8) ∧
      ReadableList (Value.list [.float (-0.0)]).utf8 ∧
      ∃ w, parse (Value.list [.float (-0.0)]).utf8.source = .ok w ∧
        w.utf8.same (Value.list [.float (-0.0)]).utf8 = true := by
  have hread : parse (Text.bytesOf "(if (- -12 +)\"a b\"())") =
      .ok (.list [.keyword .ifElse, .list [.symbol "-", .int (-12), .symbol "+"], .str "a b",
        .list []]) := by
    rfl
  have hzero : ReadableList (Value.list [.float (-0.0)]).utf8 :=
    ⟨.list (List.forall_mem_singleton.2 (.float (by decide))), rfl⟩
  exact ⟨⟨hread, parse_source_iff.1 _ _ hread⟩, hzero, parse_source_iff.2.1 _ hzero ⟨_, rfl⟩⟩

/-- A list with a text of one byte that spells no character. -/
def strayText : Value (List UInt8) :=
  .list [.str [0xFF]]

/-- It is a readable list, but what is read from its program text has the replacement character in
place of the byte. -/
theorem strayText_unread :
    ReadableList strayText ∧
      parse strayText.source = .ok (.list [.str (String.singleton Text.replacement)]) ∧
      ¬∃ w, parse strayText.source = .ok w ∧ w.utf8.same strayText = true := by
  have hread : parse strayText.source =
      .ok (.list [.str (String.singleton Text.replacement)]) := by rfl
  refine ⟨⟨.list (List.forall_mem_singleton.2 (.str (by decide))), rfl⟩, hread, ?_⟩
  rintro ⟨w, hw, hsame⟩
  obtain rfl := Except.ok.inj (hread.symm.trans hw)
  exact absurd hsame (by decide)

end SmallLisp
