import Mathlib
import SmallLisp.Proofs.Text.Utf8
import SmallLisp.Value.Text

/-!
# Values with other texts

`Value.map` replaces the texts and names of a value.  With the bytes that spell them it gives a
value whose texts are bytes, `Value.utf8`, and that one is written down as the bytes of what the
value is written down as (`source_utf8`).  It equals no value but one made in the same way
(`exists_of_same`), so no value made of other bytes equals one that was read.
-/

namespace SmallLisp

namespace Text

/-- The bytes of a string tell it from every other. -/
theorem leftInverse_bytesOf :
    Function.LeftInverse (fun bytes => String.ofList (decodeAll bytes)) bytesOf := by
  intro s
  simp only [bytesOf, decodeAll_encode, String.ofList_toList]

theorem chars_bytesOf (s : String) : TextType.chars (bytesOf s) = TextType.chars s :=
  decodeAll_encode s.toList

theorem bytesOf_append (s t : String) : bytesOf (s ++ t) = bytesOf s ++ bytesOf t := by
  simp [bytesOf, encode]

theorem bytesOf_spaced (ss : List String) : bytesOf (spaced ss) = spaced (ss.map bytesOf) := by
  induction ss with
  | nil => rfl
  | cons s ss ih =>
    cases ss with
    | nil => rfl
    | cons t rest =>
      rw [spaced, bytesOf_append, bytesOf_append, ih]
      rfl

end Text

namespace Value

variable {τ σ ρ : Type}

mutual

/-- A value with its texts and names replaced. -/
def map (f : τ → σ) : Value τ → Value σ
  | void => void
  | int n => int n
  | float x => float x
  | bool b => bool b
  | str s => str (f s)
  | symbol name => symbol (f name)
  | keyword k => keyword k
  | lambda params body => lambda (params.map f) (mapAll f body)
  | list items => list (mapAll f items)

/-- Each value with its texts and names replaced. -/
def mapAll (f : τ → σ) : List (Value τ) → List (Value σ)
  | [] => []
  | v :: vs => map f v :: mapAll f vs

end

/-- All values of a list are changed. -/
theorem mapAll_eq (f : τ → σ) (vs : List (Value τ)) : mapAll f vs = vs.map (map f) := by
  induction vs with
  | nil => rfl
  | cons v vs ih => rw [mapAll, ih, List.map_cons]

@[simp]
theorem kind_map (f : τ → σ) (v : Value τ) : (v.map f).kind = v.kind := by
  cases v <;> rfl

mutual

/-- Texts may be changed in two steps. -/
theorem map_map (g : σ → ρ) (f : τ → σ) : (v : Value τ) → (v.map f).map g = v.map (g ∘ f)
  | void | int _ | float _ | bool _ | str _ | symbol _ | keyword _ => rfl
  | lambda params body => by rw [map, map, map, List.map_map, mapAll_mapAll g f body]
  | list items => by rw [map, map, map, mapAll_mapAll g f items]

theorem mapAll_mapAll (g : σ → ρ) (f : τ → σ) :
    (vs : List (Value τ)) → mapAll g (mapAll f vs) = mapAll (g ∘ f) vs
  | [] => rfl
  | v :: vs => by rw [mapAll, mapAll, mapAll, map_map g f v, mapAll_mapAll g f vs]

end

mutual

/-- Texts may be left as they are. -/
@[simp]
theorem map_id : (v : Value τ) → v.map id = v
  | void | int _ | float _ | bool _ | str _ | symbol _ | keyword _ => rfl
  | lambda params body => by rw [map, List.map_id, mapAll_id body]
  | list items => by rw [map, mapAll_id items]

theorem mapAll_id : (vs : List (Value τ)) → mapAll id vs = vs
  | [] => rfl
  | v :: vs => by rw [mapAll, map_id v, mapAll_id vs]

end

theorem map_ofString (v : Value) : v.map TextType.ofString = v :=
  map_id v

/-- The bytes of the texts and names. -/
def utf8 (v : Value) : Value (List UInt8) :=
  v.map Text.bytesOf

/-- All texts and names are spelled in UTF-8. -/
def IsUtf8 (v : Value (List UInt8)) : Prop :=
  ∃ w : Value, w.utf8 = v

/-- The bytes of a value tell it from every other. -/
theorem utf8_injective : Function.Injective utf8 := by
  refine Function.LeftInverse.injective
    (g := map fun bytes => String.ofList (Text.decodeAll bytes)) fun v => ?_
  rw [utf8, map_map, Text.leftInverse_bytesOf.comp_eq_id, map_id]

/-! ## Program text -/

mutual

/-- The bytes of the source text are the source text with bytes for texts. -/
theorem source_utf8 : (v : Value) → v.utf8.source = Text.bytesOf v.source
  | void | int _ | float _ | bool _ | symbol _ | keyword _ => rfl
  | str s => by
    rw [source, Text.bytesOf_append, Text.bytesOf_append]
    rfl
  | lambda params body => by
    simp only [source, Text.bytesOf_append, Text.bytesOf_spaced]
    rw [← sources_utf8 body]
    rfl
  | list items => by
    simp only [source, Text.bytesOf_append, Text.bytesOf_spaced]
    rw [← sources_utf8 items]
    rfl

theorem sources_utf8 : (vs : List Value) →
    sources (mapAll Text.bytesOf vs) = (sources vs).map Text.bytesOf
  | [] => rfl
  | v :: vs => by
    rw [mapAll, sources, sources, List.map_cons, sources_utf8 vs, ← source_utf8 v]
    rfl

end

/-! ## Equality -/

mutual

/-- What equals a value with replaced texts is such a value. -/
theorem exists_of_same [BEq τ] [ReflBEq τ] [BEq σ] [LawfulBEq σ] (f : τ → σ) : (w : Value τ) →
    (v : Value σ) → (w.map f).same v = true → ∃ w', w'.map f = v ∧ w.same w' = true
  | void, v, h => by
    cases v with
    | void => exact ⟨void, rfl, rfl⟩
    | _ => cases h
  | int m, v, h => by
    cases v with
    | int n => exact ⟨int n, rfl, h⟩
    | _ => cases h
  | float x, v, h => by
    cases v with
    | float y => exact ⟨float y, rfl, h⟩
    | _ => cases h
  | bool a, v, h => by
    cases v with
    | bool b => exact ⟨bool b, rfl, h⟩
    | _ => cases h
  | str s, v, h => by
    cases v with
    | str t =>
      obtain rfl := eq_of_beq h
      exact ⟨str s, rfl, by simp [same]⟩
    | _ => cases h
  | symbol s, v, h => by
    cases v with
    | symbol t =>
      obtain rfl := eq_of_beq h
      exact ⟨symbol s, rfl, by simp [same]⟩
    | _ => cases h
  | keyword k, v, h => by
    cases v with
    | keyword l => exact ⟨keyword l, rfl, h⟩
    | _ => cases h
  | lambda params body, v, h => by
    cases v with
    | lambda params' body' =>
      rw [map, same, Bool.and_eq_true] at h
      obtain ⟨hparams, hbody⟩ := h
      obtain rfl := eq_of_beq hparams
      obtain ⟨body'', rfl, hsame⟩ := exists_of_sameAll f body body' hbody
      exact ⟨lambda params body'', rfl, by simp [same, hsame]⟩
    | _ => cases h
  | list items, v, h => by
    cases v with
    | list items' =>
      obtain ⟨items'', rfl, hsame⟩ := exists_of_sameAll f items items' h
      exact ⟨list items'', rfl, hsame⟩
    | _ => cases h

theorem exists_of_sameAll [BEq τ] [ReflBEq τ] [BEq σ] [LawfulBEq σ] (f : τ → σ) :
    (ws : List (Value τ)) → (vs : List (Value σ)) → sameAll (mapAll f ws) vs = true →
      ∃ ws', mapAll f ws' = vs ∧ sameAll ws ws' = true
  | [], vs, h => by
    cases vs with
    | nil => exact ⟨[], rfl, rfl⟩
    | cons => cases h
  | w :: ws, vs, h => by
    cases vs with
    | nil => cases h
    | cons v vs =>
      rw [mapAll, sameAll, Bool.and_eq_true] at h
      obtain ⟨w', rfl, hw⟩ := exists_of_same f w v h.1
      obtain ⟨ws', rfl, hws⟩ := exists_of_sameAll f ws vs h.2
      exact ⟨w' :: ws', rfl, by rw [sameAll, hw, hws]; rfl⟩

end

mutual

/-- A value that equals itself does so with its texts replaced. -/
theorem same_self_map [BEq τ] [BEq σ] [ReflBEq σ] (f : τ → σ) :
    (v : Value τ) → v.same v = true → (v.map f).same (v.map f) = true
  | void, h | int _, h | float _, h | bool _, h | keyword _, h => h
  | str s, _ => beq_self_eq_true (f s)
  | symbol s, _ => beq_self_eq_true (f s)
  | lambda params body, h => by
    rw [same, Bool.and_eq_true] at h
    rw [map, same, beq_self_eq_true, Bool.true_and]
    exact sameAll_self_map f body h.2
  | list items, h => sameAll_self_map f items h

theorem sameAll_self_map [BEq τ] [BEq σ] [ReflBEq σ] (f : τ → σ) :
    (vs : List (Value τ)) → sameAll vs vs = true → sameAll (mapAll f vs) (mapAll f vs) = true
  | [], _ => rfl
  | v :: vs, h => by
    rw [sameAll, Bool.and_eq_true] at h
    rw [mapAll, sameAll, same_self_map f v h.1, Bool.true_and]
    exact sameAll_self_map f vs h.2

end

end Value

end SmallLisp
