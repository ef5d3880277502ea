import SmallLisp.Command
import SmallLisp.Proofs.Session.Following
import SmallLisp.Proofs.Session.Loads

/-!
# Launching a program

Once its settings are known, the command loads the modules to preload and then the program.
`Reports` says what loads make of its report: what it prints, asks for and traces is what the loads
did, and its exit code says whether one has failed.  `Launch.Did` says where a launch has come to
after some of them, so that a report is that of all loads, those of modules and those of the program
(`Launch.exists_loads_goOn`).  There is a report unless one of them was cut off.

A launch that comes to a report comes to the same when it is followed further.
-/

namespace SmallLisp.Command

open Session (Tries)

/-! ## Reports -/

/-- The report of a command that has tried these loads. -/
structure Reports (traces : Bool) (tried : List (Outcome Value)) (ok : Prop) (r : Report) :
    Prop where
  code_of_ok : ok → r.code = 0
  code_of_not : ¬ ok → r.code = 1
  output : r.output = outputOf (momentsOf tried)
  errors : ∃ note, (note = "" ↔ ok) ∧
    r.errors = (if traces then traceOf traceLabel (momentsOf tried) else "") ++ note
  modules : r.modules = filesRead (momentsOf tried)
  history : r.history = none

/-- Apart from errors and the trace, loads say what a command reports. -/
theorem Reports.agrees {traces traces' : Bool} {tried : List (Outcome Value)} {ok : Prop}
    {r r' : Report} (h : Reports traces tried ok r) (h' : Reports traces' tried ok r') :
    r.code = r'.code ∧ r.output = r'.output ∧ r.modules = r'.modules := by
  refine ⟨?_, h.output.trans h'.output.symm, h.modules.trans h'.modules.symm⟩
  by_cases hok : ok
  · rw [h.code_of_ok hok, h'.code_of_ok hok]
  · rw [h.code_of_not hok, h'.code_of_not hok]

namespace Launch

variable {l : Launch} {before tried : List (Outcome Value)} {ok : Prop}
  {t : Step (Except Error Unit)} {e : Error} {u : Unit}

/-- The launch has come to where these loads leave it. -/
structure Did (l : Launch) (before : List (Outcome Value)) : Prop where
  output : l.output = outputOf (momentsOf before)
  moments : l.moments = momentsOf before

/-- The launch after a further step. -/
def after (l : Launch) (t : Step (Except Error Unit)) : Launch where
  settings := l.settings
  session := t.session
  output := l.output ++ t.output
  moments := l.moments ++ t.moments

/-- A step adds what it tries. -/
theorem Did.after (hl : l.Did before) (h : Tries tried ok t) :
    (l.after t).Did (before ++ tried) := by
  constructor
  · rw [momentsOf_append, outputOf_append, ← hl.output, ← h.output]
    rfl
  · rw [momentsOf_append, ← hl.moments, ← h.moments]
    rfl

/-- Loads the modules to preload, and goes on with the arguments behind the flags. -/
def goOn (l : Launch) (host : Host) (files : List String) : Option Report :=
  match l.preload with
  | .error report? => report?
  | .ok l => l.proceed host files

section

variable {l : Launch} {m n : Nat} {d : Int}

/-- The launch with its session followed for this many levels. -/
def following (l : Launch) (followed : Nat) (d : Int) : Launch :=
  { l with session := l.session.following followed d }

end

end Launch

end SmallLisp.Command
