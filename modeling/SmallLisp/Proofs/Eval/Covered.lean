import SmallLisp.Proofs.Eval.Correspondence

/-!
# What evaluation fails with

`Covered P` says of an evaluation that it fails only with errors that have a property.  For a
property that leaves out nothing but invalid operators and the end of what is followed, everything
that a script can ask for is covered (`Covered.congruence`), so a run is if its limit refuses levels
with such errors only (`covered_run`).

At two properties this says that no operator is invalid (`covered_eval`), and that under a limit
every run is followed to its end (`Request.covered_run`).
-/

namespace SmallLisp

section

variable {α β : Type} {P : Error → Prop}

/-- Every error that the evaluation fails with has the property. -/
def Covered (P : Error → Prop) (x : Evaluation α) : Prop :=
  ∀ (s : Scope) (e : Error), (x s).result = .error e → P e

theorem covered_pure (a : α) : Covered P (pure a) :=
  nofun

theorem covered_fail {e : Error} (h : P e) : Covered P (.fail e : Evaluation α) := by
  rintro s _ ⟨⟩
  exact h

/-- An unbound name is an ordinary error. -/
theorem covered_lookup (hP : Ordinary P) (name : String) : Covered P (.lookup name) := by
  intro s e he
  rw [Evaluation.lookup] at he
  split at he
  · cases he
  · cases he
    exact hP _ nofun nofun

/-- In a row, the first evaluation fails or the second does. -/
theorem Covered.bind {x : Evaluation α} {f : α → Evaluation β} (hx : Covered P x)
    (hf : ∀ a, Covered P (f a)) : Covered P (x >>= f) := by
  intro s e he
  rcases ho : x s with ⟨result, own, record⟩
  cases result with
  | error e' =>
    rw [Evaluation.bind_of_error ho] at he
    cases he
    exact hx s e (congrArg Outcome.result ho)
  | ok a =>
    rw [Evaluation.bind_of_ok ho] at he
    exact hf a _ e he

theorem Covered.nested {x : Evaluation α} (h : Covered P x) : Covered P (.nested x) :=
  fun s => h s

/-- The frame does not matter. -/
theorem Covered.inFrame {x : Evaluation α} (h : Covered P x) (frame : Bindings) :
    Covered P (.inFrame frame x) :=
  fun s => h { s with own := frame }

/-- Everything that a script can ask for is covered. -/
theorem Covered.congruence (hP : Ordinary P) :
    Congruence P fun {α : Type} (x _ : Evaluation α) => Covered P x where
  pure := covered_pure
  bind := Covered.bind
  fail := covered_fail
  lookup := covered_lookup hP
  define _ _ := nofun
  print _ := nofun
  clone := nofun
  bindParam _ _ _ := nofun
  called _ _ _ := nofun
  inFrame frame h := h.inFrame frame
  fetch _ _ := nofun

end

/-- A run fails with errors that have the property, if its limit refuses levels with such errors. -/
theorem covered_run {P : Error → Prop} (hP : Ordinary P) (i : Interpreter)
    (hrefusal : ∀ depth what, P (i.limit.refusal depth what)) (q : Request) :
    Covered P (q.run i) := by
  exact (Covered.congruence hP).correspondence.request (Discipline.sound_failing hP)
    Covered.nested i hrefusal fun _ _ => trivial

/-- No evaluation fails with an invalid operator. -/
theorem covered_eval (i : Interpreter) (v : Value) :
    Covered (fun e => e.kind ≠ .invalidOperator) (i.eval v) := by
  refine covered_run (fun _ h _ => h) i (fun depth what => ?_) (.eval v)
  cases i.limit <;> nofun

/-- With a limit every run is followed to its end. -/
theorem Request.covered_run (q : Request) (read : ModuleReader) (n : Nat) :
    Covered (fun e => e.kind ≠ .other) (q.run ⟨.atMost n, read⟩) :=
  SmallLisp.covered_run (fun _ _ h => h) ⟨.atMost n, read⟩ (fun _ _ => nofun) q

end SmallLisp
