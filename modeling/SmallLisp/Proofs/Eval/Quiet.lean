import Mathlib.Data.List.Forall2
import SmallLisp.Proofs.Eval.Script
import SmallLisp.Proofs.Store.Frames

/-!
# Evaluation without effects

`Quiet x s result` says that in the scope `s` the evaluation `x` ends with this result and does
nothing else: it leaves the bindings as they are, and nothing is printed, defined, called or loaded
on the way.

What only computes is quiet, and so are sequences and operations whose parts are
(`quiet_runAll`, `quiet_operator`).  In a store a quiet evaluation leaves all frames as they are
(`Quiet.run_eq`).
-/

namespace SmallLisp

section

variable {α β : Type} {s : Scope}

/-- In the scope the evaluation ends like this, and nothing happens. -/
def Quiet (x : Evaluation α) (s : Scope) (result : Except Error α) : Prop :=
  x s = ⟨result, s.own, []⟩

theorem quiet_pure (a : α) : Quiet (pure a) s (.ok a) :=
  rfl

theorem quiet_ofExcept (result : Except Error α) : Quiet (.ofExcept result) s result :=
  rfl

theorem quiet_lookup {name : String} {v : Value} (h : s.get? name = some v) :
    Quiet (.lookup name) s (.ok v) := by
  rw [Quiet, Evaluation.lookup, h]

/-- The second starts in the same scope, since the first has changed nothing. -/
theorem Quiet.bind {x : Evaluation α} {f : α → Evaluation β} {a : α} {result : Except Error β}
    (hx : Quiet x s (.ok a)) (hf : Quiet (f a) s result) : Quiet (x >>= f) s result := by
  have hbind := Evaluation.bind_of_ok (f := f) hx
  rw [hf] at hbind
  exact hbind

/-- If the first fails, so do both. -/
theorem Quiet.bind_except {x : Evaluation α} {f : α → Evaluation β} {first : Except Error α}
    {second : α → Except Error β} (hx : Quiet x s first) (hf : ∀ a, Quiet (f a) s (second a)) :
    Quiet (x >>= f) s (first >>= second) := by
  cases first with
  | error e => exact Evaluation.bind_of_error hx
  | ok a => exact hx.bind (hf a)

theorem quiet_runAll {run : Value → Evaluation Value} {vs values : List Value}
    (h : List.Forall₂ (fun v x => Quiet (run v) s (.ok x)) vs values) :
    Quiet (runAll run vs) s (.ok values) := by
  induction h with
  | nil => exact quiet_pure []
  | cons hfirst _ ih => exact hfirst.bind (ih.bind (quiet_pure _))

/-- An operator is applied to the values of its operands, whatever the scope binds to its name. -/
theorem evalNode_operator (c : Context) (op : Operator) (left right : Value) :
    evalNode c (.list [.symbol op.name, left, right]) =
      evalNode c left >>= fun l => evalNode c right >>= fun r => .ofExcept (op.apply l r) := by
  simp only [evalNode, Script.ofValue, Script.ofValues, namedForm, Operator.ofName?_name,
    Script.run_binaryForm]

/-- An operation on quiet operands is quiet. -/
theorem quiet_operator {c : Context} (op : Operator) {left right l r : Value}
    (hl : Quiet (evalNode c left) s (.ok l)) (hr : Quiet (evalNode c right) s (.ok r)) :
    Quiet (evalNode c (.list [.symbol op.name, left, right])) s (op.apply l r) := by
  rw [evalNode_operator]
  exact hl.bind (hr.bind (quiet_ofExcept _))

end

/-- A quiet evaluation in a frame leaves all frames as they are. -/
theorem Quiet.run_eq {α : Type} {x : Evaluation α} {s : Store} {id : Nat}
    {result : Except Error α} (h : Quiet x (s.scope id) result) :
    s.run id x = (⟨result, s.own id, []⟩, s) := by
  have hstore : s.setOwn id (s.scope id).own = s := s.setOwn_own id
  rw [Store.run, h]
  dsimp only
  rw [hstore]
  rfl

end SmallLisp
