import SmallLisp.Proofs.Eval.Following
import SmallLisp.Proofs.Event
import SmallLisp.Session

/-!
# Loading modules in order

A session loads modules one after the other, in one frame, up to the first that fails.  `Loads` says
which loads are tried, given how each of them ends.  If every load ends in one way there is one way
to load modules, and what comes after a failure has no part in it.

`Session.Tries` says what such loads make of a step of a session: whether it succeeds, what it
writes, what happens, and whether it is cut off.
-/

namespace SmallLisp

/-! ## Loads -/

/-- Modules are loaded in order, each in the bindings that the one before has left, up to the first
that fails.  The outcomes are those of the loads that are tried; `ends` says how each load ends. -/
inductive Loads (ends : Bindings → String → Outcome Value → Prop) :
    Bindings → List String → List (Outcome Value) → Bindings → Prop where
  | nil (own : Bindings) : Loads ends own [] [] own
  | error {own : Bindings} {path : String} {paths : List String} {o : Outcome Value} {e : Error}
      (h : ends own path o) (he : o.result = .error e) :
      Loads ends own (path :: paths) [o] o.own
  | ok {own after : Bindings} {path : String} {paths : List String} {o : Outcome Value} {v : Value}
      {os : List (Outcome Value)} (h : ends own path o) (hv : o.result = .ok v)
      (hrest : Loads ends o.own paths os after) : Loads ends own (path :: paths) (o :: os) after

/-- None of the loads has failed. -/
def Succeed (os : List (Outcome Value)) : Prop :=
  ∀ o ∈ os, ∃ v, o.result = .ok v

/-- What happened in loads. -/
def momentsOf (os : List (Outcome Value)) : List Moment :=
  os.flatMap fun o => Activity.moments o.record

theorem momentsOf_append (os os' : List (Outcome Value)) :
    momentsOf (os ++ os') = momentsOf os ++ momentsOf os' :=
  List.flatMap_append

theorem not_succeed_of_error {o : Outcome Value} {e : Error} (he : o.result = .error e) :
    ¬ Succeed [o] := by
  intro h
  obtain ⟨v, hv⟩ := h o (List.mem_singleton_self o)
  rw [he] at hv
  cases hv

theorem succeed_cons {o : Outcome Value} {v : Value} (hv : o.result = .ok v)
    (os : List (Outcome Value)) : Succeed (o :: os) ↔ Succeed os := by
  refine ⟨fun h o ho => h o (.tail _ ho), fun h => List.forall_mem_cons.2 ⟨⟨v, hv⟩, h⟩⟩

namespace Loads

variable {ends ends' : Bindings → String → Outcome Value → Prop} {own own' after after' : Bindings}
  {paths more : List String} {os os' : List (Outcome Value)}

/-- Loads may go on in the frame that others have left. -/
theorem append (h : Loads ends own paths os own') (hok : Succeed os)
    (h' : Loads ends own' more os' after) : Loads ends own (paths ++ more) (os ++ os') after := by
  induction h with
  | nil own => exact h'
  | error h he => exact absurd hok (not_succeed_of_error he)
  | ok h hv _ ih => exact .ok h hv (ih ((succeed_cons hv _).1 hok) h')

theorem mono (h : Loads ends own paths os after)
    (hends : ∀ own path, ∀ o ∈ os, ends own path o → ends' own path o) :
    Loads ends' own paths os after := by
  induction h with
  | nil own => exact .nil own
  | error h he => exact .error (hends _ _ _ (.head _) h) he
  | ok h hv _ ih =>
    exact .ok (hends _ _ _ (.head _) h) hv (ih fun own path o ho => hends own path o (.tail _ ho))

/-- If every load ends in one way only, there is one way to load modules. -/
theorem unique (hends : ∀ own path o o', ends own path o → ends own path o' → o = o')
    (h : Loads ends own paths os after) (h' : Loads ends own paths os' after') :
    os = os' ∧ after = after' := by
  induction h generalizing os' after' with
  | nil own =>
    cases h'
    exact ⟨rfl, rfl⟩
  | error h he =>
    cases h' with
    | error h' _ =>
      obtain rfl := hends _ _ _ _ h h'
      exact ⟨rfl, rfl⟩
    | ok h' hv _ =>
      obtain rfl := hends _ _ _ _ h h'
      rw [he] at hv
      cases hv
  | ok h hv _ ih =>
    cases h' with
    | error h' he =>
      obtain rfl := hends _ _ _ _ h h'
      rw [he] at hv
      cases hv
    | ok h' _ hrest' =>
      obtain rfl := hends _ _ _ _ h h'
      obtain ⟨rfl, rfl⟩ := ih hrest'
      exact ⟨rfl, rfl⟩

end Loads

/-! ## Loads of a session -/

namespace Session

/-- The step is what trying these loads comes to. -/
structure Tries (tried : List (Outcome Value)) (ok : Prop) (t : Step (Except Error Unit)) :
    Prop where
  answer : t.answer = .ok () ↔ ok
  output : t.output = outputOf (momentsOf tried)
  moments : t.moments = momentsOf tried
  cutsOff (l : Limit) : l.CutsOff t.answer ↔ ∃ o ∈ tried, l.CutsOff o.result

theorem Tries.congr {tried : List (Outcome Value)} {ok ok' : Prop} {t : Step (Except Error Unit)}
    (h : Tries tried ok t) (hok : ok ↔ ok') : Tries tried ok' t :=
  ⟨h.answer.trans hok, h.output, h.moments, h.cutsOff⟩

/-- How loading a module ends in a frame with these bindings inside the base frame. -/
def load (s : Session) (own : Bindings) (path : String) : Outcome Value :=
  s.interpreter.load path ⟨own, s.base.get?⟩

end Session

end SmallLisp
