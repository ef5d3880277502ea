import Mathlib.Logic.Basic
import SmallLisp.Proofs.Session.Routine
import SmallLisp.Proofs.Store.Machine

/-!
# Sessions on shared frames

A session may also keep its frames in one store, side by side with the frames of all calls ever
made, and leave the counting of calls and loads to a machine.  Then `reset` only starts another
frame inside the base frame.  The dropped frames are still there, the base frame could have been
written, and the counter could be off, so that it is not plain that a session without definitions is
like a new one.

`Shares s t` says which session `s` the shared one `t` is: its base and its user's frame are there,
and the counter is at zero.  Whatever the two are given keeps them that way, and they reply the same
(`simulates_shared`).  The other frames do not matter, so after a reset nothing is left of what was
before (`serve_after_reset`).
-/

namespace SmallLisp

/-- A session that works on shared frames. -/
structure SharedSession where
  interpreter : Interpreter
  prompt : String
  memory : Memory
  /-- The frame with the truth values. -/
  base : Nat
  /-- The frame that the user's definitions are written to. -/
  user : Nat

namespace SharedSession

/-- A session with two frames. -/
def start (interpreter : Interpreter) (prompt : String) : SharedSession where
  interpreter := interpreter
  prompt := prompt
  memory := { store := ((Store.new {}).bindBooleans 0).enclose 0 }
  base := 0
  user := 1

/-- Goes on in a new frame inside the base frame. -/
def reset (t : SharedSession) : SharedSession :=
  { t with
    memory := t.memory.write (t.memory.store.enclose t.base)
    user := t.memory.store.size }

/-- Does what is asked in the user's frame. -/
def ask (t : SharedSession) (q : Request) : Reply (Except Error Value) × SharedSession :=
  let h := q.operate t.interpreter t.user t.memory
  (⟨h.result, outputOf h.log, h.log⟩, { t with memory := h.memory })

def get? (t : SharedSession) (name : String) : Option Value :=
  t.memory.store.get? t.user name

def backend : Backend SharedSession where
  ask q t := t.ask q
  reset := reset
  get? name t := t.get? name

/-- What a session on shared frames does with one input after the other. -/
def serve (inputs : List Input) (t : SharedSession) : List (Reply Answer) × SharedSession :=
  backend.serve t.prompt inputs t

end SharedSession

/-! ## The session that is shared -/

/-- The frames of the session are among those of the shared one. -/
structure Shares (s : Session) (t : SharedSession) : Prop where
  interpreter : t.interpreter = s.interpreter
  prompt : t.prompt = s.prompt
  depth : t.memory.depth = 0
  linked : t.memory.store.Linked
  base : t.memory.store.frame? t.base = some ⟨none, s.base⟩
  user : t.memory.store.frame? t.user = some ⟨some t.base, s.user⟩

namespace Shares

variable {s : Session} {t : SharedSession}

theorem start (i : Interpreter) (prompt : String) :
    Shares (.start i prompt) (.start i prompt) where
  interpreter := rfl
  prompt := rfl
  depth := rfl
  linked := Store.linked_enclose Store.linked_bindBooleans (by decide)
  base := rfl
  user := rfl

theorem base_lt_user (h : Shares s t) : t.base < t.user :=
  h.linked _ _ _ h.user rfl

theorem user_lt_size (h : Shares s t) : t.user < t.memory.store.size :=
  Store.lt_size_of_frame? h.user

/-- The user's frame sees in the store what the session sees. -/
theorem scope (h : Shares s t) : t.memory.store.scope t.user = s.scope := by
  have houter : t.memory.store.outer t.user = s.base.get? := by
    funext name
    rw [Store.outer_eq h.user, Option.bind_some, Store.get?_eq h.linked h.base, Option.bind_none,
      Option.or_none]
  rw [Store.scope, Store.own_eq h.user, houter]
  rfl

theorem get? (h : Shares s t) (name : String) : t.get? name = s.get? name := by
  rw [SharedSession.get?, ← Store.get?_scope h.linked h.user_lt_size, h.scope]
  rfl

theorem reset (h : Shares s t) : Shares s.reset t.reset where
  interpreter := h.interpreter
  prompt := h.prompt
  depth := h.depth
  linked := Store.linked_enclose h.linked (Store.lt_size_of_frame? h.base)
  base := (if_neg (Nat.ne_of_lt (Store.lt_size_of_frame? h.base))).trans h.base
  user := if_pos rfl

/-- What is asked of both ends the same, and writes the user's frame only. -/
theorem ask (h : Shares s t) (q : Request) :
    (t.ask q).1 = (Session.backend.ask q s).1 ∧ Shares (Session.backend.ask q s).2 (t.ask q).2 := by
  have hcopies := q.tracks t.interpreter t.user t.memory h.depth
  have hfollows := q.realizes t.interpreter t.memory.store t.user h.linked h.user_lt_size
  rw [h.scope, h.interpreter] at hfollows
  rw [h.interpreter] at hcopies
  obtain ⟨hresult, hstore, hdepth, hlog⟩ := hcopies
  rw [hfollows.result] at hresult
  rw [hfollows.record, ← Activity.moments_eq] at hlog
  have hframes := fun j hj => (congrArg (Store.frame? · j) hstore).trans (hfollows.frames j hj)
  simp only [SharedSession.ask, Session.backend_ask, Step.split, Session.perform, h.interpreter]
  refine ⟨?_, rfl, h.prompt, hdepth, ?_, ?_, ?_⟩
  · rw [hresult, hlog]
    rfl
  · rw [hstore]
    exact hfollows.linked
  · rw [hframes _ (Store.lt_size_of_frame? h.base), Store.frame?_setOwn,
      if_neg (Nat.ne_of_lt h.base_lt_user), h.base]
  · rw [hframes _ h.user_lt_size, Store.frame?_setOwn, if_pos rfl, h.user]
    rfl

end Shares

/-- A session replies the same whether its frames are shared or not. -/
theorem simulates_shared : Simulates Session.backend SharedSession.backend Shares where
  ask h q := h.ask q
  reset h := h.reset
  get? h name := h.get? name

theorem Shares.serve {s : Session} {t : SharedSession} (h : Shares s t) (inputs : List Input) :
    (t.serve inputs).1 = (s.serve inputs).1 ∧ Shares (s.serve inputs).2 (t.serve inputs).2 := by
  rw [Session.serve_eq, SharedSession.serve, h.prompt]
  exact simulates_shared.serve s.prompt inputs h

/-! ## Inputs that reset -/

/-- The input drops the user's definitions. -/
def Input.Resets : Input → Prop
  | reset => True
  | handle line => Text.trim line = "clean"
  | _ => False

theorem Input.Resets.run {x : Input} (h : x.Resets) (prompt : String) {σ : Type} (b : Backend σ)
    (s : σ) : ((x.routine prompt).run b s).2 = b.reset s := by
  cases x with
  | reset => rfl
  | handle line =>
    have hline : Text.trim line = "clean" := h
    simp [Input.routine, Routine.handle, hline, Session.isQuit, Routine.bind, Routine.run]
  | _ => exact h.elim

theorem Input.Resets.serve {x : Input} (h : x.Resets) (prompt : String) {σ : Type}
    (b : Backend σ) (history : List Input) (s : σ) :
    (b.serve prompt (history ++ [x]) s).2 = b.reset (b.serve prompt history s).2 := by
  induction history generalizing s with
  | nil => exact h.run prompt b s
  | cons y history ih => exact ih _

/-- A session that was started and, after any history, reset is a session that was started. -/
theorem serve_resets (i : Interpreter) (prompt : String) (history : List Input) {x : Input}
    (h : x.Resets) :
    ((Session.start i prompt).serve (history ++ [x])).2 = Session.start i prompt := by
  rw [Session.serve_eq, h.serve]
  exact (Session.start i prompt).keeps_reset.serve prompt history rfl

/-- After any history and a reset a session replies to everything as a new one does: the same
answers, the same output, and the same events at the same depths, which is all that a trace shows.
That holds also on shared frames, where the dropped frames stay and the counter is used on. -/
theorem serve_after_reset (i : Interpreter) (prompt : String) (history : List Input) {x : Input}
    (h : x.Resets) (inputs : List Input) :
    (((Session.start i prompt).serve (history ++ [x])).2.serve inputs).1 =
        ((Session.start i prompt).serve inputs).1 ∧
      (((SharedSession.start i prompt).serve (history ++ [x])).2.serve inputs).1 =
        ((SharedSession.start i prompt).serve inputs).1 ∧
      ((SharedSession.start i prompt).serve inputs).1 =
        ((Session.start i prompt).serve inputs).1 := by
  have hstart := Shares.start i prompt
  have hfresh := (hstart.serve inputs).1
  obtain ⟨-, hafter⟩ := hstart.serve (history ++ [x])
  rw [serve_resets i prompt history h] at hafter
  refine ⟨?_, ?_, hfresh⟩
  · rw [serve_resets i prompt history h]
  · rw [(hafter.serve inputs).1, hfresh]

/-- Room for two calls, and no modules. -/
def shallow : Interpreter :=
  ⟨.atMost 2, fun _ => .error "no such file"⟩

/-- Defines a lambda that calls itself without end, and calls it. -/
def recursing : List Input :=
  [.handle "(define f (lambda () (f)))", .handle "(f)"]

/-- The call fails at the limit, and after the reset the lambda is gone. -/
theorem recursing_cleaned :
    ((Session.start shallow "> ").serve recursing).1.map Reply.output =
        ["", Session.resultText (.error (.recursionLimit "f" 2))] ∧
      (((SharedSession.start shallow "> ").serve (recursing ++ [.handle "\tclean "])).2.serve
        [.get "f"]).1 = [⟨.value none, "", []⟩] := by
  have hclean : (Input.handle "\tclean ").Resets := by
    change Text.trim "\tclean " = "clean"
    decide
  have hsame := (serve_after_reset shallow "> " recursing hclean [.get "f"]).2.1
  have hdefine : parse (Text.bytesOf (Text.trim "(define f (lambda () (f)))")) =
      .ok (.list [.keyword .define, .symbol "f",
        .list [.keyword .lambda, .list [], .list [.symbol "f"]]]) := rfl
  have hcall : parse (Text.bytesOf (Text.trim "(f)")) = .ok (.list [.symbol "f"]) := rfl
  refine ⟨?_, hsame.trans rfl⟩
  simp only [Session.serve, recursing, Session.respond, Session.handle, Session.perform,
    Interpreter.evaluate, hdefine, hcall, Step.split]
  rfl

end SmallLisp
