import SmallLisp.Proofs.Eval.Correspondence
import SmallLisp.Proofs.Event

/-!
# Evaluation and lookups

All that evaluation learns about a scope it learns by looking names up.  How the answers are spread
over the frames around it cannot make a difference, although a call copies the nearest frame only
and goes on inside the same frames as its caller.

`Indistinct R Excused` lists what a relation of scopes needs for that: lookups give the same answers
in related scopes, and names bound in both keep them related.  A name may be missing in the first
scope only, if the error that follows is *excused*: then no more is said about the two runs.  An
evaluation is *blind* to the relation when it goes the same way in related scopes and leaves related
scopes.  Requests are, one by one (`Indistinct.correspondence`), so whatever an interpreter is asked
to do is (`Indistinct.request`).

Two relations are such.  Scopes that give the same answers are not told apart at all
(`indistinct_eq`), and a scope that gives more is not told apart by a run in which no name was
missing (`indistinct_within`).
-/

namespace SmallLisp

/-! ## Records -/

/-- The event without the bindings that the frame of a call starts with. -/
def Event.bare : Event → Event
  | called name args _ => called name args .empty
  | e => e

theorem Event.output_bare (e : Event) : e.bare.output = e.output := by
  cases e <;> rfl

theorem Event.traceText?_bare (e : Event) : e.bare.traceText? = e.traceText? := by
  cases e <;> rfl

/-- The same event at the same depth, without the bindings of a frame. -/
def Moment.bare (m : Moment) : Moment :=
  ⟨m.depth, m.event.bare⟩

theorem outputOf_bare (ms : List Moment) : outputOf (ms.map Moment.bare) = outputOf ms := by
  simp [outputOf, List.foldl_map, Moment.bare, Event.output_bare]

theorem traceOf_bare (label : String) (ms : List Moment) :
    traceOf label (ms.map Moment.bare) = traceOf label ms := by
  simp [traceOf, List.foldl_map, Moment.traceEntry, Moment.bare, Event.traceText?_bare]

namespace Activity

/-- At every depth the two records have the same moments, up to the bindings of frames. -/
def Alike (r r' : List Activity) : Prop :=
  ∀ depth, (momentsAt depth r').map Moment.bare = (momentsAt depth r).map Moment.bare

namespace Alike

variable {r r' q q' : List Activity}

theorem refl (r : List Activity) : Alike r r :=
  fun _ => rfl

/-- Alike records in a row. -/
theorem append (h : Alike r r') (h' : Alike q q') : Alike (r ++ q) (r' ++ q') := by
  intro depth
  simp [h depth, h' depth]

/-- Alike records inside a call or load. -/
theorem nested (h : Alike r r') : Alike [.nested r] [.nested r'] :=
  fun depth => h (depth + 1)

/-- Calls are alike whatever their frames. -/
theorem called (name : String) (args : List Value) (frame frame' : Bindings) :
    Alike [.event (.called name args frame)] [.event (.called name args frame')] :=
  fun _ => rfl

/-- Alike records print the same. -/
theorem outputOf_eq (h : Alike r r') : outputOf (moments r') = outputOf (moments r) := by
  rw [← outputOf_bare, moments_eq, h 0, outputOf_bare, moments_eq]

/-- And their traces are the same. -/
theorem traceOf_eq (h : Alike r r') (label : String) :
    traceOf label (moments r') = traceOf label (moments r) := by
  rw [← traceOf_bare, moments_eq, h 0, traceOf_bare, moments_eq]

end Alike

end Activity

open Activity (Alike)

/-! ## Blind evaluations -/

section

variable {α β : Type} {R : Scope → Scope → Prop} {Excused : Error → Prop}

/-- What keeps evaluation from telling related scopes apart. -/
structure Indistinct (R : Scope → Scope → Prop) (Excused : Error → Prop) : Prop where
  lookup : ∀ {s s'}, R s s' → ∀ name,
    s'.get? name = s.get? name ∨ s.get? name = none ∧ Excused (.unbound name)
  define : ∀ {s s'}, R s s' → ∀ name value,
    R { s with own := s.own.set name value } { s' with own := s'.own.set name value }

/-- Two runs that started in these scopes went the same way, unless the first failed and that is
excused. -/
inductive Like (R : Scope → Scope → Prop) (Excused : Error → Prop) (s s' : Scope) :
    Outcome α → Outcome α → Prop where
  | excused {o o' : Outcome α} {e : Error} (ho : o.result = .error e) (he : Excused e) :
      Like R Excused s s' o o'
  | same {result : Except Error α} {own own' : Bindings} {record record' : List Activity}
      (hrecord : Alike record record') (hscope : R { s with own := own } { s' with own := own' }) :
      Like R Excused s s' ⟨result, own, record⟩ ⟨result, own', record'⟩

/-- In related scopes the evaluation goes the same way. -/
def Blind (R : Scope → Scope → Prop) (Excused : Error → Prop) (x : Evaluation α) : Prop :=
  ∀ s s', R s s' → Like R Excused s s' (x s) (x s')

/-- Evaluations in a row: what the first leaves is what the second starts with. -/
theorem Like.bind {x y : Evaluation α} {f g : α → Evaluation β} {s s' : Scope}
    (hx : Like R Excused s s' (x s) (y s'))
    (hf : ∀ a own own', R { s with own := own } { s' with own := own' } →
      Like R Excused { s with own := own } { s' with own := own' } (f a { s with own := own })
        (g a { s' with own := own' })) :
    Like R Excused s s' ((x >>= f) s) ((y >>= g) s') := by
  generalize hox : x s = ox at hx
  generalize hoy : y s' = oy at hx
  cases hx with
  | excused ho he =>
    obtain ⟨result, own, record⟩ := ox
    cases ho
    rw [Evaluation.bind_of_error hox]
    exact .excused rfl he
  | @same result own own' record record' hrecord hscope =>
    cases result with
    | error e =>
      rw [Evaluation.bind_of_error hox, Evaluation.bind_of_error hoy]
      exact .same hrecord hscope
    | ok a =>
      rw [Evaluation.bind_of_ok hox, Evaluation.bind_of_ok hoy]
      have hsecond := hf a own own' hscope
      generalize f a { s with own := own } = of at hsecond
      generalize g a { s' with own := own' } = og at hsecond
      cases hsecond with
      | excused ho he => exact .excused ho he
      | same hrecord' hscope' => exact .same (hrecord.append hrecord') hscope'

theorem Like.nested {x y : Evaluation α} {s s' : Scope} (h : Like R Excused s s' (x s) (y s')) :
    Like R Excused s s' (Evaluation.nested x s) (Evaluation.nested y s') := by
  unfold Evaluation.nested
  generalize x s = o at h
  generalize y s' = o' at h
  cases h with
  | excused ho he => exact .excused ho he
  | same hrecord hscope => exact .same hrecord.nested hscope

/-- What a run does in a frame of its own does not show in the frame around it. -/
theorem Like.inFrame {x y : Evaluation α} {s s' : Scope} (hs : R s s') {frame frame' : Bindings}
    (h : Like R Excused { s with own := frame } { s' with own := frame' }
      (x { s with own := frame }) (y { s' with own := frame' })) :
    Like R Excused s s' (Evaluation.inFrame frame x s) (Evaluation.inFrame frame' y s') := by
  unfold Evaluation.inFrame
  generalize x { s with own := frame } = o at h
  generalize y { s' with own := frame' } = o' at h
  cases h with
  | excused ho he => exact .excused ho he
  | same hrecord _ => exact .same hrecord hs

theorem blind_pure (a : α) : Blind R Excused (pure a) :=
  fun _ _ hs => .same (.refl _) hs

theorem blind_fail (e : Error) : Blind R Excused (.fail e : Evaluation α) :=
  fun _ _ hs => .same (.refl _) hs

theorem blind_note (e : Event) : Blind R Excused (.note e) :=
  fun _ _ hs => .same (.refl _) hs

namespace Indistinct

variable (h : Indistinct R Excused)

include h

/-- A lookup finds the same in both scopes, or is excused from failing in the first. -/
theorem blind_lookup (name : String) : Blind R Excused (.lookup name) := by
  intro s s' hs
  unfold Evaluation.lookup
  rcases h.lookup hs name with hget | ⟨hnone, he⟩
  · rw [hget]
    cases s.get? name with
    | some v => exact .same (.refl _) hs
    | none => exact .same (.refl _) hs
  · rw [hnone]
    exact .excused rfl he

theorem blind_define (name : String) (value : Value) :
    Blind R Excused (.define name value) :=
  fun _ _ hs => .same (.refl _) (h.define hs name value)

/-- Requests go the same way in related scopes.  The frames of a call start from bindings that
differ; by the time the body runs they have to make up related scopes. -/
theorem correspondence :
    Correspondence .any
      (fun x y : Evaluation Value => ∀ s s', R s s' → Like R Excused s s' (x s) (y s'))
      (fun frame frame' x y => ∀ s s', R { s with own := frame } { s' with own := frame' } →
        R s s' → Like R Excused s s' (x s) (y s')) where
  done _ := blind_pure _
  fail _ := blind_fail _
  lookup name hf s s' hs :=
    (h.blind_lookup name s s' hs).bind fun v _ _ hown => hf v trivial _ _ hown
  define _ _ hx s s' hs :=
    (h.blind_define _ _ s s' hs).bind fun _ _ _ hown => hx _ _ hown
  print _ hx s s' hs :=
    (blind_note (.printed _) s s' hs).bind fun _ _ _ hown => hx _ _ hown
  bind hx hf s s' hs := (hx s s' hs).bind fun v _ _ hown => hf v trivial _ _ hown
  fetch _ _ hf s s' hs :=
    (blind_note (.loading _) s s' hs).bind fun _ _ _ hown => hf _ _ _ hown
  clone hf s s' hs := hf s.own s'.own s s' hs hs
  argument hx hf s s' hframe hs :=
    (hx s s' hs).bind fun v _ _ hown => hf v trivial _ _ hframe hown
  bindParam _ _ hf s s' hframe hs := hf _ _ s s' (h.define hframe _ _) hs
  body name args frame frame' hx _ _ hframe hs :=
    Like.bind (.same (.called name args frame frame') hs) fun _ _ _ hown =>
      Like.inFrame hown (hx _ _ hframe)

/-- Whatever an interpreter is asked to do, it goes the same way in related scopes. -/
theorem request (i : Interpreter) (q : Request) : Blind R Excused (q.run i) :=
  h.correspondence.request Discipline.sound_any (fun hx s s' hs => (hx s s' hs).nested) i
    (fun _ _ => trivial) fun _ _ => trivial

end Indistinct

end

/-! ## Two relations -/

/-- The second gives the answers of the first, and perhaps more. -/
def AnswersWithin (answers answers' : String → Option Value) : Prop :=
  ∀ name v, answers name = some v → answers' name = some v

/-- Scopes that bind the same names to the same values are not told apart. -/
theorem indistinct_eq : Indistinct (fun s s' => s.get? = s'.get?) fun _ => False where
  lookup hs name := .inl (congrFun hs.symm name)
  define hs name value := by
    funext other
    simp only [Scope.get?_set]
    rw [← hs]

/-- A name that only the second scope has stops the run in the first. -/
theorem indistinct_within :
    Indistinct (fun s s' => AnswersWithin s.get? s'.get?) (·.kind = .unboundSymbol) where
  lookup {s s'} hs name := by
    cases hget : s.get? name with
    | some v => exact .inl (hs name v hget)
    | none => exact .inr ⟨rfl, rfl⟩
  define hs name value other v := by
    simp only [Scope.get?_set]
    split
    · exact id
    · exact hs other v

end SmallLisp
