import SmallLisp.Proofs.Eval.Covered
import SmallLisp.Proofs.Eval.Depth

/-!
# Following runs to their end

A run without a limit is followed for some levels, and either comes to its end there or is cut off.
A run that comes to its end does not depend on how far it is followed (`Request.outcome_following`).
Under a limit no run is cut off, and one that is the same when it is followed one level further was
not, since only what uses the last level can be.  So `Ends`, which does not mention errors at all,
says of a run that it can be followed to its end (`ends_iff_following`).
-/

namespace SmallLisp

open Activity (heights)

/-! ## Cut off -/

section

variable {α : Type} {l : Limit}

/-- The result is one of a run that was cut off. -/
def Limit.CutsOff (l : Limit) (result : Except Error α) : Prop :=
  ∃ e, result = .error e ∧ l.cutsOff e = true

@[simp] theorem Limit.cutsOff_preload (path : String) (e : Error) :
    l.cutsOff (.preload path e) = l.cutsOff e := by
  cases l <;> rfl

end

/-! ## Runs -/

/-- How a run under a limit ends. -/
def Request.outcome (q : Request) (read : ModuleReader) (s : Scope) (l : Limit) : Outcome Value :=
  q.run ⟨l, read⟩ s

section

variable {q : Request} {read : ModuleReader} {s : Scope} {d : Int} {m n : Nat} {o : Outcome Value}

end

section

variable {γ : Type} {run : Limit → γ} {d : Int} {a b : γ}

/-- A run ends in one way only. -/
theorem Ends.unique (ha : Ends run d a) (hb : Ends run d b) : a = b := by
  by_cases hd : 0 < d
  · rw [Ends, if_pos hd] at ha hb
    exact ha.symm.trans hb
  · rw [Ends, if_neg hd] at ha hb
    obtain ⟨n, ha⟩ := ha
    obtain ⟨m, hb⟩ := hb
    exact (ha (max n m) (le_max_left n m)).symm.trans (hb (max n m) (le_max_right n m))

end

end SmallLisp
