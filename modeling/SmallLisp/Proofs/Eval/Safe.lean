import SmallLisp.Proofs.Eval.Discipline
import SmallLisp.Proofs.Value.Runtime

/-!
# Syntax and data kept apart

Scripts handle runtime values and hand out what can be read.  A symbol that they bind has been read,
so has the body of a lambda that they call, and what they compute from runtime values is a runtime
value again (`Discipline.sound_runtime`).  Nothing is said of how they fail.
-/

namespace SmallLisp

/-! ## Operations -/

/-- An operator gives a number or a truth value. -/
theorem runtime_apply {op : Operator} {l r v : Value} (h : op.apply l r = .ok v) : Runtime v := by
  have happlies := op.applies_apply l r
  rw [h] at happlies
  cases happlies with
  | value _ _ hkind =>
    have hcases := op.resultKind_cases l.kind r.kind
    rw [← hkind] at hcases
    cases v with
    | int n => exact .int n
    | float x => exact .float x
    | bool b => exact .bool b
    | _ => simp [Value.kind] at hcases

/-- Texts without a quote are joined to one without a quote. -/
theorem runtime_concatenate {l r v : Value} (hl : Runtime l) (hr : Runtime r)
    (h : concatenate l r = .ok v) : Runtime v := by
  unfold concatenate at h
  split at h
  · cases h
  · next hls =>
    split at h
    · cases h
    · next hrs =>
      cases h
      refine .str ?_
      rw [String.toList_append, List.mem_append, not_or]
      exact ⟨hl.not_mem_text (by simpa using hls), hr.not_mem_text (by simpa using hrs)⟩

theorem readable_paramNames {params : List Value} (h : ∀ v ∈ params, Readable v)
    {names : List String} (hn : paramNames params = .ok names) :
    ∀ name ∈ names, Readable (.symbol name) := by
  induction params generalizing names with
  | nil =>
    cases hn
    nofun
  | cons v params ih =>
    obtain ⟨hv, hrest⟩ := List.forall_mem_cons.1 h
    cases v with
    | symbol name =>
      simp only [paramNames] at hn
      cases hp : paramNames params with
      | error e =>
        rw [hp] at hn
        cases hn
      | ok others =>
        rw [hp] at hn
        cases hn
        exact List.forall_mem_cons.2 ⟨hv, ih hrest hp⟩
    | _ => cases hn

theorem runtime_lambdaForm {params body v : Value} (hp : Readable params) (hb : Readable body)
    (h : lambdaForm params body = .ok v) : Runtime v := by
  cases hp with
  | @list params hp =>
    cases hn : paramNames params with
    | error e =>
      simp only [lambdaForm, hn] at h
      cases h
    | ok names =>
      cases hb with
      | list hb =>
        simp only [lambdaForm, hn] at h
        cases h
        exact .lambda (readable_paramNames hp hn) hb
      | _ =>
        simp only [lambdaForm, hn] at h
        cases h
  | _ => cases h

/-! ## The discipline -/

/-- Values are runtime values, and parts of programs can be read. -/
def Discipline.runtime : Discipline where
  value := Runtime
  node := Readable
  error _ := True

theorem Discipline.sound_runtime : runtime.Sound where
  error _ _ _ := trivial
  void := .void
  bool := .bool
  list h := by
    refine .list (fun v hv => ?_) fun v hv => (h v hv).2
    rintro rfl
    cases (h _ hv).1
  scalar hv hs := by
    cases hv with
    | int n => exact .int n
    | float _ => exact .float _
    | str ht => exact .str ht
    | _ => cases hs
  keyword _ ht hf := .keyword ht hf
  items h := by
    cases h with
    | list hi => exact hi
  lambda := runtime_lambdaForm
  params h := by
    cases h with
    | lambda hp _ => exact hp
  body h := by
    cases h with
    | lambda _ hb => exact .list hb
  apply := runtime_apply
  concatenate := runtime_concatenate
  parsed h := (readableList_of_parse h).1

end SmallLisp
