import Mathlib.Logic.Basic
import SmallLisp.Proofs.Session.Reset
import SmallLisp.Proofs.Store.World

/-!
# Sessions in the world

A *live* session works on shared frames in the world, where programs print, modules are read and,
if there is a logger, entries are written to it.  Its replies have no list of what happened, since
nobody keeps one.

`Renders` compares such a backend with one that does keep that list.  The replies are the same
without the list, and what has happened altogether is found in the state of the other.  So a live
session replies as the session that it stands for, and its logger holds the entries of all that
happened (`LiveSession.serve_start`).
-/

namespace SmallLisp

/-! ## Backends without a record -/

section

variable {α β σ τ : Type}

/-- The reply without what happened. -/
def Reply.quiet (r : Reply α) : Reply α :=
  { r with moments := [] }

@[simp] theorem Reply.quiet_answer (r : Reply α) : r.quiet.answer = r.answer := rfl

/-- The replies of the second backend are those of the first without what happened.  The states are
related by what has happened so far. -/
structure Renders (b : Backend σ) (c : Backend τ) (R : List Moment → σ → τ → Prop) : Prop where
  ask : ∀ {ms s t}, R ms s t → ∀ q,
    (c.ask q t).1 = (b.ask q s).1.quiet ∧
      R (ms ++ (b.ask q s).1.moments) (b.ask q s).2 (c.ask q t).2
  reset : ∀ {ms s t}, R ms s t → R ms (b.reset s) (c.reset t)
  get? : ∀ {ms s t}, R ms s t → ∀ name, c.get? name t = b.get? name s

variable {b : Backend σ} {c : Backend τ} {R : List Moment → σ → τ → Prop}

theorem Renders.run (h : Renders b c R) (x : Routine α) {ms : List Moment} {s : σ} {t : τ}
    (hst : R ms s t) :
    (x.run c t).1 = (x.run b s).1.quiet ∧
      R (ms ++ (x.run b s).1.moments) (x.run b s).2 (x.run c t).2 := by
  induction x generalizing ms s t with
  | done a => exact ⟨rfl, (List.append_nil ms).symm ▸ hst⟩
  | ask q hq next ih =>
    obtain ⟨hreply, hafter⟩ := h.ask hst q
    obtain ⟨hlater, hend⟩ := ih (b.ask q s).1.answer hafter
    rw [List.append_assoc] at hend
    simp only [Routine.run, hreply, Reply.quiet_answer]
    exact ⟨congrArg (Reply.after · _) hlater, hend⟩
  | reset next ih => exact ih (h.reset hst)
  | get name next ih =>
    simp only [Routine.run, h.get? hst]
    exact ih _ hst
  | write text next ih =>
    obtain ⟨hlater, hend⟩ := ih hst
    exact ⟨congrArg (Reply.after · _) hlater, hend⟩

/-- What has happened in a list of replies. -/
def happened (replies : List (Reply Answer)) : List Moment :=
  replies.flatMap Reply.moments

theorem Renders.serve (h : Renders b c R) (prompt : String) (inputs : List Input)
    {ms : List Moment} {s : σ} {t : τ} (hst : R ms s t) :
    (c.serve prompt inputs t).1 = (b.serve prompt inputs s).1.map Reply.quiet ∧
      R (ms ++ happened (b.serve prompt inputs s).1) (b.serve prompt inputs s).2
        (c.serve prompt inputs t).2 := by
  induction inputs generalizing ms s t with
  | nil => exact ⟨rfl, (List.append_nil ms).symm ▸ hst⟩
  | cons x inputs ih =>
    obtain ⟨hreply, hafter⟩ := h.run (x.routine prompt) hst
    obtain ⟨hlater, hend⟩ := ih hafter
    rw [List.append_assoc] at hend
    exact ⟨congrArg₂ List.cons hreply hlater, hend⟩

end

/-! ## Live sessions -/

/-- The world with an empty output. -/
def World.cleared (w : World) : World :=
  { w with output := "" }

/-- A session that acts on the world. -/
structure LiveSession where
  interpreter : Interpreter
  prompt : String
  world : World
  /-- The frame with the truth values. -/
  base : Nat
  /-- The frame that the user's definitions are written to. -/
  user : Nat

namespace LiveSession

/-- A session with two frames, and perhaps a logger. -/
def start (interpreter : Interpreter) (prompt : String) (logger : Option Logger) :
    LiveSession where
  interpreter := interpreter
  prompt := prompt
  world := { store := ((Store.new {}).bindBooleans 0).enclose 0, logger := logger }
  base := 0
  user := 1

/-- Goes on in a new frame inside the base frame. -/
def reset (t : LiveSession) : LiveSession :=
  { t with
    world := { t.world with store := t.world.store.enclose t.base }
    user := t.world.store.size }

/-- Does what is asked in the user's frame.  The reply has what is printed meanwhile. -/
def ask (t : LiveSession) (q : Request) : Reply (Except Error Value) × LiveSession :=
  let e := q.act t.interpreter t.user t.world.cleared
  (⟨e.1, e.2.output, []⟩, { t with world := e.2 })

def get? (t : LiveSession) (name : String) : Option Value :=
  t.world.store.get? t.user name

def backend : Backend LiveSession where
  ask q t := t.ask q
  reset := reset
  get? name t := t.get? name

/-- What a live session does with one input after the other. -/
def serve (inputs : List Input) (t : LiveSession) : List (Reply Answer) × LiveSession :=
  backend.serve t.prompt inputs t

/-- The session as a machine sees it. -/
def shared (t : LiveSession) : SharedSession where
  interpreter := t.interpreter
  prompt := t.prompt
  memory := t.world.memory []
  base := t.base
  user := t.user

end LiveSession

/-- The live session stands for a session in which this has happened, starting with these paths
asked for and this logger. -/
structure Lives (asked : List String) (logger : Option Logger) (ms : List Moment) (s : Session)
    (t : LiveSession) : Prop where
  shares : Shares s t.shared
  asked : t.world.asked = asked ++ filesRead ms
  logger : t.world.logger = logger.map (·.record ms)

namespace Lives

variable {asked : List String} {logger : Option Logger} {ms : List Moment} {s : Session}
  {t : LiveSession}

theorem start (i : Interpreter) (prompt : String) (logger : Option Logger) :
    Lives [] logger [] (.start i prompt) (.start i prompt logger) where
  shares := ⟨rfl, rfl, rfl, (Shares.start i prompt).linked, rfl, rfl⟩
  asked := rfl
  logger := by
    cases logger with
    | none => rfl
    | some l => exact congrArg some l.record_nil.symm

theorem reset (h : Lives asked logger ms s t) : Lives asked logger ms s.reset t.reset := by
  have hshares := h.shares.reset
  exact ⟨⟨hshares.interpreter, hshares.prompt, hshares.depth, hshares.linked, hshares.base,
    hshares.user⟩, h.asked, h.logger⟩

/-- What is asked of both ends the same, and writes the user's frame only. -/
theorem ask (h : Lives asked logger ms s t) (q : Request) :
    (t.ask q).1 = (Session.backend.ask q s).1.quiet ∧
      Lives asked logger (ms ++ (Session.backend.ask q s).1.moments)
        (Session.backend.ask q s).2 (t.ask q).2 := by
  have hbase : t.world.cleared.store.frame? t.base = some ⟨none, s.base⟩ := h.shares.base
  have huser : t.world.cleared.store.frame? t.user = some ⟨some t.base, s.user⟩ := h.shares.user
  have hlt : t.base < t.user := h.shares.base_lt_user
  have hscope : t.world.cleared.store.scope t.user = s.scope := h.shares.scope
  have hinterpreter : t.interpreter = s.interpreter := h.shares.interpreter
  have hacts := Request.acts t.interpreter q (w := t.world.cleared) h.shares.depth h.shares.linked
    (Store.lt_size_of_frame? huser)
  rw [hscope, hinterpreter] at hacts
  simp only [LiveSession.ask, Session.backend_ask, Step.split, Session.perform, hinterpreter]
  refine ⟨?_, ⟨rfl, h.shares.prompt, hacts.depth, hacts.linked, ?_, ?_⟩, ?_, ?_⟩
  · rw [hacts.result, hacts.output]
    exact congrArg₂ (Reply.mk _ · ·) String.empty_append rfl
  · refine (hacts.frames t.base (Store.lt_size_of_frame? hbase)).trans ?_
    rw [Store.frame?_setOwn, if_neg (Nat.ne_of_lt hlt), hbase]
  · refine (hacts.frames t.user (Store.lt_size_of_frame? huser)).trans ?_
    rw [Store.frame?_setOwn, if_pos rfl, huser]
    rfl
  · rw [hacts.asked, filesRead_append, ← List.append_assoc]
    exact congrArg (· ++ _) h.asked
  · have hlogger : t.world.cleared.logger = logger.map (·.record ms) := h.logger
    rw [hacts.logger, hlogger, Option.map_map]
    simp only [Function.comp_def, Logger.record_record]

end Lives

theorem renders_live (asked : List String) (logger : Option Logger) :
    Renders Session.backend LiveSession.backend (Lives asked logger) where
  ask h q := h.ask q
  reset h := h.reset
  get? h name := h.shares.get? name

/-- A live session replies as the session that it stands for.  What it has asked for and logged is
what has happened in that session. -/
theorem LiveSession.serve_start (i : Interpreter) (prompt : String) (logger : Option Logger)
    (inputs : List Input) :
    ((start i prompt logger).serve inputs).1 =
        ((Session.start i prompt).serve inputs).1.map Reply.quiet ∧
      Lives [] logger (happened ((Session.start i prompt).serve inputs).1)
        ((Session.start i prompt).serve inputs).2 ((start i prompt logger).serve inputs).2 := by
  rw [Session.serve_eq]
  exact (renders_live [] logger).serve prompt inputs (Lives.start i prompt logger)

end SmallLisp
