import SmallLisp.Proofs.Eval.Following
import SmallLisp.Session

/-!
# Following a session

A session without a limit can be followed further.  As long as nothing that it evaluates is cut off,
every step is the same, and leaves the same session but for how far it is followed.
-/

namespace SmallLisp

section

variable {α : Type} {m n : Nat} {d : Int}

/-- The session with a number as its limit, followed for this many levels. -/
def Session.following (s : Session) (followed : Nat) (d : Int) : Session :=
  { s with interpreter := { s.interpreter with limit := .following followed d } }

/-- The step with the session afterwards followed for this many levels. -/
def Step.following (t : Step α) (followed : Nat) (d : Int) : Step α :=
  { t with session := t.session.following followed d }

namespace Session

variable {s : Session}

end Session

end

end SmallLisp
