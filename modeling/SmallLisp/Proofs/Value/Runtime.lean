import Mathlib
import SmallLisp.Proofs.RoundTrip

/-!
# Values that programs compute

One type holds syntax and data.  `Runtime v` says that `v` is data: a value that a program may
compute from what it was given as text.  Names are syntax and no data.  A lambda is data, and its
parameters and its body are syntax that can be read.  A list holds data other than `void`, which has
no place in a list.

`Runtime.facts` puts together what follows from the shape alone: such a value is no symbol, no list
inside it holds `void`, and its program text has tokens.  The last holds although the text need not
read back as the value.  The text of an item may be a word of another kind, as for a truth value or
an infinite float, or it may be empty (`LeadsAs`).
-/

namespace SmallLisp

/-- The values that programs compute. -/
inductive Runtime : Value → Prop where
  | void : Runtime .void
  | int (n : Int64) : Runtime (.int n)
  | float (x : Float) : Runtime (.float x)
  | bool (b : Bool) : Runtime (.bool b)
  | str {s : String} (hs : '"' ∉ s.toList) : Runtime (.str s)
  | keyword {k : Keyword} (ht : k ≠ .trueName) (hf : k ≠ .falseName) : Runtime (.keyword k)
  | lambda {params : List String} {body : List Value}
      (hp : ∀ name ∈ params, Readable (.symbol name)) (hb : ∀ v ∈ body, Readable v) :
      Runtime (.lambda params body)
  | list {items : List Value} (hv : ∀ v ∈ items, v ≠ .void) (hi : ∀ v ∈ items, Runtime v) :
      Runtime (.list items)

/-! ## No `void` in lists -/

mutual

/-- Whether a list inside the value, or a body, holds `void`. -/
def Value.listsVoid : Value → Bool
  | .list items => anyListsVoid items
  | .lambda _ body => anyListsVoid body
  | _ => false

/-- Whether `void` is among the values, or in a list inside them. -/
def Value.anyListsVoid : List Value → Bool
  | [] => false
  | v :: vs => v.isVoid || v.listsVoid || anyListsVoid vs

end

theorem anyListsVoid_eq_false {vs : List Value} (hv : ∀ v ∈ vs, v ≠ .void)
    (hl : ∀ v ∈ vs, v.listsVoid = false) : Value.anyListsVoid vs = false := by
  induction vs with
  | nil => rfl
  | cons v vs ih =>
    obtain ⟨hv, hvs⟩ := List.forall_mem_cons.1 hv
    obtain ⟨hl, hls⟩ := List.forall_mem_cons.1 hl
    have hvoid : v.isVoid = false := by
      cases v with
      | void => exact absurd rfl hv
      | _ => rfl
    rw [Value.anyListsVoid, hvoid, hl, ih hvs hls]
    rfl

theorem Readable.ne_void {v : Value} (h : Readable v) : v ≠ .void := by
  rintro rfl
  cases h

theorem Readable.listsVoid_eq_false {v : Value} (h : Readable v) : v.listsVoid = false := by
  induction h with
  | list hi ih =>
    rw [Value.listsVoid]
    exact anyListsVoid_eq_false (fun v hv => (hi v hv).ne_void) ih
  | _ => rfl

theorem Runtime.listsVoid_eq_false {v : Value} (h : Runtime v) : v.listsVoid = false := by
  induction h with
  | lambda _ hb =>
    rw [Value.listsVoid]
    exact anyListsVoid_eq_false (fun v hv => (hb v hv).ne_void)
      fun v hv => (hb v hv).listsVoid_eq_false
  | list hv _ ih =>
    rw [Value.listsVoid]
    exact anyListsVoid_eq_false hv ih
  | _ => rfl

/-! ## Texts -/

/-- The text may stand in front of other items, as these items. -/
def LeadsAs (text : String) (us : List Value) : Prop :=
  ∀ cs vs, EndsWord cs → Items cs vs → Items (text.toList ++ cs) (us ++ vs)

theorem Readable.leadsAs {v : Value} (h : Readable v) : LeadsAs v.source [v] :=
  h.leads

theorem leadsAs_empty : LeadsAs "" [] :=
  fun _ _ _ hitems => hitems

/-- Texts with a space between neighbours are the items that each of them is. -/
theorem exists_items_spaced {texts : List String} (h : ∀ t ∈ texts, ∃ us, LeadsAs t us) :
    ∃ us, Items (Text.spaced texts).toList us := by
  induction texts with
  | nil => exact ⟨[], .nil⟩
  | cons t texts ih =>
    obtain ⟨⟨us, ht⟩, hrest⟩ := List.forall_mem_cons.1 h
    obtain ⟨vs, hvs⟩ := ih hrest
    cases texts with
    | nil =>
      have hlast := ht [] [] endsWord_nil .nil
      exact ⟨us ++ [], by simpa [Text.spaced] using hlast⟩
    | cons t' texts =>
      have hblank : Items (' ' :: (Text.spaced (t' :: texts)).toList) vs := .blank rfl hvs
      have hfirst := ht _ _ (endsWord_cons rfl _) hblank
      exact ⟨us ++ vs, by simpa [Text.spaced] using hfirst⟩

/-- Items in parentheses are one item. -/
theorem leadsAs_list {text : String} {us : List Value} (h : Items text.toList us) :
    LeadsAs ("(" ++ text ++ ")") [.list us] := by
  intro cs vs _ hitems
  simpa using Items.list h hitems

theorem sources_eq (vs : List Value) : Value.sources vs = vs.map Value.source := by
  induction vs with
  | nil => rfl
  | cons v vs ih => rw [Value.sources, ih, List.map_cons]

/-- The texts of the floats that are not finite. -/
def notFiniteTexts : List String := ["-inf", "inf", "NaN"]

theorem floatSource_mem_notFiniteTexts {x : Float} (h : Number.isFinite x = false) :
    Value.floatSource x ∈ notFiniteTexts := by
  simp only [Value.floatSource, h, Bool.false_and, Bool.false_eq_true, if_false, Number.floatText]
  split
  · split <;> simp [notFiniteTexts]
  · simp [notFiniteTexts]

/-- A float that is not finite is written as a symbol. -/
theorem readable_of_mem_notFiniteTexts {w : String} (h : w ∈ notFiniteTexts) :
    Readable (.symbol w) := by
  have hne : ∀ w ∈ notFiniteTexts, w.toList ≠ [] := by decide
  have hall : ∀ w ∈ notFiniteTexts, w.toList.all (!isWordBreak ·) = true := by decide
  have hstart : ∀ w ∈ notFiniteTexts, ¬startsNumber w.toList = true := by decide
  have hname : ∀ w ∈ notFiniteTexts, ∀ k ∈ Keyword.named, k.name ≠ w := by decide
  refine .symbol (hne w h) (fun c hc => ?_) (fun hn => ?_) (hname w h)
  · simpa using List.all_eq_true.1 (hall w h) c hc
  · exact hstart w h ((startsNumber_iff _).2 hn)

/-- The text of a value that a program computes may stand in front of other items. -/
theorem Runtime.exists_leadsAs {v : Value} (h : Runtime v) : ∃ us, LeadsAs v.source us := by
  induction h with
  | void => exact ⟨[], leadsAs_empty⟩
  | int n => exact ⟨_, (Readable.int n).leadsAs⟩
  | float x =>
    cases hx : Number.isFinite x with
    | true => exact ⟨_, (Readable.float hx).leadsAs⟩
    | false =>
      have hword := readable_of_mem_notFiniteTexts (floatSource_mem_notFiniteTexts hx)
      exact ⟨_, hword.leadsAs⟩
  | bool b =>
    cases b with
    | true => exact ⟨_, (Readable.keyword (k := .trueName) (by decide)).leadsAs⟩
    | false => exact ⟨_, (Readable.keyword (k := .falseName) (by decide)).leadsAs⟩
  | str hs => exact ⟨_, (Readable.str hs).leadsAs⟩
  | @keyword k _ _ =>
    by_cases hk : k ∈ Keyword.named
    · exact ⟨_, (Readable.keyword hk).leadsAs⟩
    · cases k with
      | unnamed => exact ⟨[], leadsAs_empty⟩
      | _ => exact absurd (by decide) hk
  | @lambda params body hp hb =>
    obtain ⟨us, hus⟩ := exists_items_spaced fun name hname => ⟨_, (hp name hname).leadsAs⟩
    have hsources : ∀ t ∈ Value.sources body, ∃ us, LeadsAs t us := by
      rw [sources_eq]
      exact List.forall_mem_map.2 fun v hv => ⟨_, (hb v hv).leadsAs⟩
    obtain ⟨ws, hws⟩ := exists_items_spaced hsources
    let parts := [Keyword.lambda.name, "(" ++ Text.spaced params ++ ")",
      "(" ++ Text.spaced (Value.sources body) ++ ")"]
    have hparts : ∀ t ∈ parts, ∃ us, LeadsAs t us := by
      refine List.forall_mem_cons.2 ⟨⟨_, (Readable.keyword (k := .lambda) (by decide)).leadsAs⟩, ?_⟩
      exact List.forall_mem_cons.2
        ⟨⟨_, leadsAs_list hus⟩, List.forall_mem_singleton.2 ⟨_, leadsAs_list hws⟩⟩
    obtain ⟨vs, hvs⟩ := exists_items_spaced hparts
    have hsource : (Value.lambda params body).source = "(" ++ Text.spaced parts ++ ")" := by
      apply String.toList_inj.1
      simp [parts, Value.source, Text.spaced, Keyword.name]
    rw [hsource]
    exact ⟨_, leadsAs_list hvs⟩
  | @list items _ _ ih =>
    have hsources : ∀ t ∈ Value.sources items, ∃ us, LeadsAs t us := by
      rw [sources_eq]
      exact List.forall_mem_map.2 ih
    obtain ⟨us, hus⟩ := exists_items_spaced hsources
    exact ⟨_, leadsAs_list hus⟩

/-! ## Tokens -/

/-- Items have tokens. -/
theorem Items.exists_tokens {cs : List Char} {vs : List Value} (h : Items cs vs) :
    ∃ ts, tokenizeText cs = .ok ts := by
  obtain ⟨ps, ts, hps, hts, -, hcount⟩ := h.exists_pieces [] endsWord_nil
  rw [List.append_nil, pieces_nil, List.append_nil] at hps
  have hbalanced : isBalanced cs = true := by rwa [isBalanced_iff, hps]
  refine ⟨ts, ?_⟩
  rw [tokenizeText, if_pos hbalanced, hps]
  exact mapM_token_eq_ok_iff.2 hts

/-- No mark opens the text of a number. -/
theorem NumberLike.head?_ne {w : List Char} (h : NumberLike w) :
    w.head? ≠ some Text.byteOrderMark := by
  rcases h with ⟨d, cs, rfl, hd⟩ | ⟨s, d, cs, rfl, hs, -⟩
  · rintro ⟨⟩
    cases hd
  · rintro ⟨⟩
    rcases hs with hs | hs <;> cases hs

/-- No mark opens the text of a value that a program computes. -/
theorem Runtime.head?_source_ne {v : Value} (h : Runtime v) :
    v.source.toList.head? ≠ some Text.byteOrderMark := by
  cases h with
  | void => decide
  | int n => exact (numberLike_int n).head?_ne
  | float x =>
    cases hx : Number.isFinite x with
    | true => exact (numberLike_float hx).head?_ne
    | false =>
      have hhead : ∀ w ∈ notFiniteTexts, w.toList.head? ≠ some Text.byteOrderMark := by decide
      exact hhead _ (floatSource_mem_notFiniteTexts hx)
  | bool b => cases b <;> decide
  | str hs => simp [Value.source, Text.byteOrderMark]
  | @keyword k _ _ => cases k <;> decide
  | lambda _ _ => simp [Value.source, Text.byteOrderMark]
  | list _ _ => simp [Value.source, Text.byteOrderMark]

/-! ## Texts of scalars -/

theorem mem_floatSource {x : Float} {c : Char} (h : c ∈ (Number.floatText x).toList) :
    c ∈ (Value.floatSource x).toList := by
  simp only [Value.floatSource]
  split
  · rw [String.toList_append]
    exact List.mem_append_left _ h
  · exact h

theorem isWordBreak_floatText {x : Float} :
    ∀ c ∈ (Number.floatText x).toList, isWordBreak c = false := by
  intro c hc
  cases hx : Number.isFinite x with
  | true => exact isWordBreak_source_float hx c (mem_floatSource hc)
  | false =>
    cases readable_of_mem_notFiniteTexts (floatSource_mem_notFiniteTexts hx) with
    | symbol _ hw _ _ => exact hw c (mem_floatSource hc)

/-- No quote is in the text of a scalar that a program computes. -/
theorem Runtime.not_mem_text {v : Value} (h : Runtime v) (hs : v.isScalar = true) :
    '"' ∉ v.text.toList := by
  cases h with
  | int n => exact fun hq => absurd (isWordBreak_source_int n _ hq) (by decide)
  | float x => exact fun hq => absurd (isWordBreak_floatText _ hq) (by decide)
  | bool b => cases b <;> decide
  | str ht => exact ht
  | _ => cases hs

/-! ## What the shape gives -/

/-- What can be told from a value that a program computes. -/
structure RuntimeFacts (v : Value) : Prop where
  runtime : Runtime v
  not_symbol : v.kind ≠ .symbol
  no_void : v.listsVoid = false
  tokens : ∃ ts, tokenize (Text.bytesOf v.source) = .ok ts

theorem Runtime.kind_ne_symbol {v : Value} (h : Runtime v) : v.kind ≠ .symbol := by
  cases h <;> nofun

theorem Runtime.exists_tokens {v : Value} (h : Runtime v) :
    ∃ ts, tokenize (Text.bytesOf v.source) = .ok ts := by
  obtain ⟨us, hus⟩ := h.exists_leadsAs
  have hitems := hus [] [] endsWord_nil .nil
  rw [List.append_nil] at hitems
  rw [tokenize, Text.decode_bytesOf h.head?_source_ne]
  exact hitems.exists_tokens

theorem Runtime.facts {v : Value} (h : Runtime v) : RuntimeFacts v :=
  ⟨h, h.kind_ne_symbol, h.listsVoid_eq_false, h.exists_tokens⟩

end SmallLisp
