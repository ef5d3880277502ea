import SmallLisp.Proofs.Number.Equality
import SmallLisp.Value.Text

/-!
# Values that are equal

The equality of the language compares trees, down to the floats in them.  So it is an equivalence,
but for values with a float that is no number: such a value does not equal itself, wherever in it
the float stands.

Everything follows from one statement (`same_iff`).  `Value.unsigned` puts zero in the place of
every minus zero, also in lists and in bodies of lambdas.  Two values are equal when they are the
same after that, and all floats in one of them are numbers.

Hence the texts of equal values are the same up to minus signs of zeros.  `Value.parts` cuts the
text of a value such that every zero float is a part of its own (`source_eq_joined`), and without
their signs equal values have the same parts.
-/

namespace SmallLisp.Value

/-! ## Signs of zeros -/

mutual

/-- The value, with zero in the place of every minus zero. -/
def unsigned : Value → Value
  | float x => .float (Number.unsigned x)
  | lambda params body => .lambda params (unsignedAll body)
  | list items => .list (unsignedAll items)
  | v => v

/-- Each value, with zero in the place of every minus zero. -/
def unsignedAll : List Value → List Value
  | [] => []
  | v :: vs => unsigned v :: unsignedAll vs

end

/-! ## Floats that are no numbers -/

/-- The first value occurs in the second, as a whole or inside lists and bodies of lambdas. -/
inductive OccursIn (x : Value) : Value → Prop where
  | self : OccursIn x x
  | item {items : List Value} {v : Value} (hv : v ∈ items) (h : OccursIn x v) :
      OccursIn x (.list items)
  | body {params : List String} {body : List Value} {v : Value} (hv : v ∈ body)
      (h : OccursIn x v) : OccursIn x (.lambda params body)

/-- Every float in the value is a number. -/
def Defined (v : Value) : Prop :=
  ¬ ∃ x : Float, x.isNaN = true ∧ (Value.float x).OccursIn v

theorem defined_float {x : Float} : (Value.float x).Defined ↔ x.isNaN = false := by
  constructor
  · intro h
    exact Bool.eq_false_iff.2 fun hx => h ⟨x, hx, .self⟩
  · rintro h ⟨y, hy, hoccurs⟩
    cases hoccurs
    exact nomatch h.symm.trans hy

theorem defined_list {items : List Value} :
    (Value.list items).Defined ↔ ∀ v ∈ items, v.Defined := by
  constructor
  · rintro h v hv ⟨x, hx, hoccurs⟩
    exact h ⟨x, hx, .item hv hoccurs⟩
  · rintro h ⟨x, hx, hoccurs⟩
    cases hoccurs with
    | item hv hoccurs => exact h _ hv ⟨x, hx, hoccurs⟩

theorem defined_lambda {params : List String} {body : List Value} :
    (Value.lambda params body).Defined ↔ ∀ v ∈ body, v.Defined := by
  constructor
  · rintro h v hv ⟨x, hx, hoccurs⟩
    exact h ⟨x, hx, .body hv hoccurs⟩
  · rintro h ⟨x, hx, hoccurs⟩
    cases hoccurs with
    | body hv hoccurs => exact h _ hv ⟨x, hx, hoccurs⟩

/-- What holds nothing holds no float. -/
theorem defined_of_kind {v : Value} (hfloat : v.kind ≠ .float) (hlist : v.kind ≠ .list)
    (hlambda : v.kind ≠ .lambda) : v.Defined := by
  rintro ⟨x, -, hoccurs⟩
  cases hoccurs with
  | self => exact hfloat rfl
  | item _ _ => exact hlist rfl
  | body _ _ => exact hlambda rfl

mutual

theorem defined_unsigned : (v : Value) → (v.unsigned.Defined ↔ v.Defined)
  | .float x => by
    rw [unsigned, defined_float, defined_float, Number.isNaN_unsigned]
  | .lambda params body => by
    rw [unsigned, defined_lambda, defined_lambda]
    exact defined_unsignedAll body
  | .list items => by
    rw [unsigned, defined_list, defined_list]
    exact defined_unsignedAll items
  | .void | .int _ | .bool _ | .str _ | .symbol _ | .keyword _ => Iff.rfl

theorem defined_unsignedAll :
    (vs : List Value) → ((∀ v ∈ unsignedAll vs, v.Defined) ↔ ∀ v ∈ vs, v.Defined)
  | [] => Iff.rfl
  | v :: vs => by
    rw [unsignedAll, List.forall_mem_cons, List.forall_mem_cons, defined_unsigned v,
      defined_unsignedAll vs]

end

/-! ## Equality -/

mutual

theorem same_iff : (a b : Value) → (a.same b = true ↔ a.unsigned = b.unsigned ∧ a.Defined)
  | .float x, b => by
    cases b with
    | float y => rw [same, Number.beq_iff, unsigned, unsigned, Value.float.injEq, defined_float]
    | _ => simp [same, unsigned]
  | .lambda params body, b => by
    cases b with
    | lambda params' body' =>
      have hbody := sameAll_iff_unsigned body body'
      rw [same, Bool.and_eq_true, beq_iff_eq, hbody, unsigned, unsigned, Value.lambda.injEq,
        defined_lambda, and_assoc]
    | _ => simp [same, unsigned]
  | .list items, b => by
    cases b with
    | list items' =>
      rw [same, sameAll_iff_unsigned items items', unsigned, unsigned, Value.list.injEq,
        defined_list]
    | _ => simp [same, unsigned]
  | .void, b | .int _, b | .bool _, b | .str _, b | .symbol _, b | .keyword _, b => by
    refine Iff.trans ?_ (and_iff_left (defined_of_kind ?_ ?_ ?_)).symm
    · cases b <;> simp [same, unsigned]
    all_goals nofun

theorem sameAll_iff_unsigned : (as bs : List Value) →
    (sameAll as bs = true ↔ unsignedAll as = unsignedAll bs ∧ ∀ a ∈ as, a.Defined)
  | [], [] => by simp [sameAll]
  | [], _ :: _ => by simp [sameAll, unsignedAll]
  | _ :: _, [] => by simp [sameAll, unsignedAll]
  | a :: as, b :: bs => by
    rw [sameAll, Bool.and_eq_true, same_iff a b, sameAll_iff_unsigned as bs, unsignedAll,
      unsignedAll, List.cons.injEq, List.forall_mem_cons, and_and_and_comm]

end

theorem defined_iff_of_unsigned_eq {a b : Value} (h : a.unsigned = b.unsigned) :
    a.Defined ↔ b.Defined := by
  rw [← defined_unsigned a, h, defined_unsigned b]

/-! ## Parts of a text -/

/-- A part of the text of a value. -/
inductive SourcePart where
  /-- A zero float, with or without a minus sign. -/
  | zero (minus : Bool)
  /-- Anything else. -/
  | other (text : String)

namespace SourcePart

/-- How a part is written. -/
def text : SourcePart → String
  | zero minus => if minus then "-0.0" else "0.0"
  | other text => text

/-- The part without the sign of a zero. -/
def unsigned : SourcePart → SourcePart
  | zero _ => zero false
  | other text => other text

end SourcePart

/-- The text of parts, one after the other. -/
def joined (parts : List SourcePart) : String :=
  String.join (parts.map SourcePart.text)

/-- The parts of several texts, with a space between neighbours. -/
def spacedParts : List (List SourcePart) → List SourcePart
  | [] => []
  | [parts] => parts
  | parts :: next :: rest => parts ++ .other " " :: spacedParts (next :: rest)

mutual

/-- The program text of a value in parts, with each zero float as a part of its own. -/
def parts : Value → List SourcePart
  | float x =>
    if x = -0.0 then [.zero true] else if x = 0.0 then [.zero false] else [.other (floatSource x)]
  | lambda params body =>
    .other ("(lambda (" ++ Text.spaced params ++ ") (") :: spacedParts (partsOfAll body) ++
      [.other "))"]
  | list items => .other "(" :: spacedParts (partsOfAll items) ++ [.other ")"]
  | v => [.other v.source]

/-- The parts of each value. -/
def partsOfAll : List Value → List (List SourcePart)
  | [] => []
  | v :: vs => parts v :: partsOfAll vs

end

@[simp] theorem joined_nil : joined [] = "" := rfl

@[simp] theorem joined_cons (part : SourcePart) (parts : List SourcePart) :
    joined (part :: parts) = part.text ++ joined parts := by
  simp [joined]

@[simp] theorem joined_append (parts parts' : List SourcePart) :
    joined (parts ++ parts') = joined parts ++ joined parts' := by
  simp [joined]

theorem joined_spacedParts (all : List (List SourcePart)) :
    joined (spacedParts all) = Text.spaced (all.map joined) := by
  induction all with
  | nil => rfl
  | cons parts rest ih =>
    cases rest with
    | nil => rfl
    | cons next rest => simp [spacedParts, Text.spaced, SourcePart.text, ih, String.append_assoc]

mutual

theorem source_eq_joined : (v : Value) → v.source = joined v.parts
  | .float x => by
    rw [parts]
    split
    · next h =>
      rw [h]
      decide +kernel
    · split
      · next h =>
        rw [h]
        decide +kernel
      · simp [source, SourcePart.text]
  | .lambda params body => by
    simp [source, parts, SourcePart.text, joined_spacedParts, sources_eq_joined body,
      String.append_assoc]
  | .list items => by
    simp [source, parts, SourcePart.text, joined_spacedParts, sources_eq_joined items,
      String.append_assoc]
  | .void | .int _ | .bool _ | .str _ | .symbol _ | .keyword _ => by
    simp [parts, SourcePart.text]

theorem sources_eq_joined : (vs : List Value) → sources vs = (partsOfAll vs).map joined
  | [] => rfl
  | v :: vs => by
    rw [sources, partsOfAll, List.map_cons, source_eq_joined v, sources_eq_joined vs]

end

theorem map_unsigned_spacedParts (all : List (List SourcePart)) :
    (spacedParts all).map SourcePart.unsigned =
      spacedParts (all.map (List.map SourcePart.unsigned)) := by
  induction all with
  | nil => rfl
  | cons parts rest ih =>
    cases rest with
    | nil => rfl
    | cons next rest => simp [spacedParts, SourcePart.unsigned, ih]

mutual

/-- Parts without signs are the parts of the value without signs. -/
theorem parts_unsigned : (v : Value) → v.unsigned.parts = v.parts.map SourcePart.unsigned
  | .float x => by
    by_cases hminus : x = -0.0
    · rw [hminus]
      rfl
    · rw [unsigned, Number.unsigned, if_neg hminus, parts, if_neg hminus]
      split <;> rfl
  | .lambda params body => by
    simp [unsigned, parts, partsOfAll_unsigned body, map_unsigned_spacedParts,
      SourcePart.unsigned]
  | .list items => by
    simp [unsigned, parts, partsOfAll_unsigned items, map_unsigned_spacedParts,
      SourcePart.unsigned]
  | .void | .int _ | .bool _ | .str _ | .symbol _ | .keyword _ => by
    simp [unsigned, parts, SourcePart.unsigned]

theorem partsOfAll_unsigned : (vs : List Value) →
    partsOfAll (unsignedAll vs) = (partsOfAll vs).map (List.map SourcePart.unsigned)
  | [] => rfl
  | v :: vs => by
    rw [unsignedAll, partsOfAll, partsOfAll, List.map_cons, parts_unsigned v,
      partsOfAll_unsigned vs]

end

/-- Equality is symmetric and transitive, and reflexive but for values that hold a float that is no
number.  Equal values are the same up to the signs of zeros, and so are their texts. -/
theorem same_partial_equivalence :
    (∀ a b : Value, a.same b = b.same a) ∧
      (∀ a b c : Value, a.same b = true → b.same c = true → a.same c = true) ∧
      (∀ a : Value, a.same a = true ↔
        ¬ ∃ x : Float, x.isNaN = true ∧ (Value.float x).OccursIn a) ∧
      (∀ a b : Value, a.same b = true →
        a.unsigned = b.unsigned ∧
          a.parts.map SourcePart.unsigned = b.parts.map SourcePart.unsigned) ∧
      ∀ a : Value, a.source = joined a.parts := by
  refine ⟨fun a b => ?_, fun a b c hab hbc => ?_, fun a => ?_, fun a b hab => ?_, source_eq_joined⟩
  · rw [Bool.eq_iff_iff, same_iff, same_iff, eq_comm]
    exact and_congr_right fun h => defined_iff_of_unsigned_eq h.symm
  · rw [same_iff] at hab hbc ⊢
    exact ⟨hab.1.trans hbc.1, hab.2⟩
  · rw [same_iff]
    exact and_iff_right rfl
  · obtain ⟨h, -⟩ := (same_iff a b).1 hab
    rw [← parts_unsigned, ← parts_unsigned, h]
    exact ⟨rfl, rfl⟩

/-- Zeros of both signs, in a list and in the body of a lambda. -/
theorem zeros_same :
    let a := Value.list [.float 0.0, .lambda ["x"] [.float (-0.0), .str "-0.0"]]
    let b := Value.list [.float (-0.0), .lambda ["x"] [.float (-0.0), .str "-0.0"]]
    let c := Value.list [.float (-0.0), .lambda ["x"] [.float 0.0, .str "-0.0"]]
    (a.same b = true ∧ b.same c = true) ∧ a.same c = true ∧ a.unsigned = c.unsigned ∧
      a.source = "(0.0 (lambda (x) (-0.0 \"-0.0\")))" ∧
      c.source = "(-0.0 (lambda (x) (0.0 \"-0.0\")))" := by
  intro a b c
  obtain ⟨-, htrans, -, halike, -⟩ := same_partial_equivalence
  have hab : a.same b = true := by decide
  have hbc : b.same c = true := by decide
  have hac : a.same c = true := htrans a b c hab hbc
  exact ⟨⟨hab, hbc⟩, hac, (halike a c hac).1, by decide +kernel, by decide +kernel⟩

end SmallLisp.Value
