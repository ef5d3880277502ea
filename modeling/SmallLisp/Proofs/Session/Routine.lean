import Mathlib.Logic.Basic
import SmallLisp.Proofs.Eval.Shape
import SmallLisp.Session

/-!
# Routines of a session

`Session.serve` gives a session one input after the other and collects what is seen of it: the
answers, what is written and what happens.

What a session does with an input is a *routine*: programs and modules to evaluate, the user's frame
to drop, names to look up, texts to write.  A routine does not say where the frames are.  `Backend`
lists what has to be known for that, `Routine.run` carries a routine out on a backend, and
`Session.serve_eq` says that a session is one.  So two kinds of session are compared by comparing
their backends (`Simulates.serve`), and what a backend keeps is kept in the long run
(`Backend.Keeps.serve`).
-/

namespace SmallLisp

/-! ## Inputs and replies -/

/-- What is seen of a step of a session. -/
structure Reply (α : Type) where
  answer : α
  /-- What was written. -/
  output : String
  /-- What happened, in order. -/
  moments : List Moment

/-- What a session can be given. -/
inductive Input where
  | handle (line : String)
  | run (echo : Bool) (events : List Prompted)
  | reset
  | preload (paths : List String)
  | exec (file : String)
  | get (name : String)

/-- What a session answers. -/
inductive Answer where
  | ends (quit : Bool)
  | report (r : RunReport)
  | done
  | outcome (result : Except Error Unit)
  | value (v : Option Value)

section

variable {α β : Type}

/-- The reply of a step and the session afterwards. -/
def Step.split (t : Step α) (f : α → β) : Reply β × Session :=
  (⟨f t.answer, t.output, t.moments⟩, t.session)

namespace Session

/-- What a session does with an input. -/
def respond (s : Session) : Input → Reply Answer × Session
  | .handle line => (s.handle line).split .ends
  | .run echo events => (s.run echo events).split .report
  | .reset => (⟨.done, "", []⟩, s.reset)
  | .preload paths => (s.preload paths).split .outcome
  | .exec file => (s.exec file).split .outcome
  | .get name => (⟨.value (s.get? name), "", []⟩, s)

/-- What a session does with one input after the other. -/
def serve : List Input → Session → List (Reply Answer) × Session
  | [], s => ([], s)
  | x :: inputs, s =>
    let first := s.respond x
    let later := serve inputs first.2
    (first.1 :: later.1, later.2)

end Session

/-! ## Routines -/

/-- What a session does, one request after the other. -/
inductive Routine (α : Type) : Type where
  | done (a : α)
  | ask (q : Request) (hq : q.IsText) (next : Except Error Value → Routine α)
  | reset (next : Routine α)
  | get (name : String) (next : Option Value → Routine α)
  | write (text : String) (next : Routine α)

/-- Where the frames of a session are. -/
structure Backend (σ : Type) where
  /-- Evaluates in the user's frame. -/
  ask : Request → σ → Reply (Except Error Value) × σ
  /-- Starts a new frame for the user. -/
  reset : σ → σ
  /-- Looks a name up from the user's frame. -/
  get? : String → σ → Option Value

/-- A later reply, with what was seen before it. -/
def Reply.after (later : Reply β) (first : Reply α) : Reply β :=
  ⟨later.answer, first.output ++ later.output, first.moments ++ later.moments⟩

@[simp] theorem Reply.after_answer (later : Reply β) (first : Reply α) :
    (later.after first).answer = later.answer := rfl

theorem Reply.after_after {γ : Type} (r : Reply γ) (r' : Reply β) (r'' : Reply α) :
    (r.after r').after r'' = r.after (r'.after r'') := by
  simp [Reply.after, String.append_assoc]

theorem Reply.after_empty (r : Reply β) (a : α) : r.after ⟨a, "", []⟩ = r := by
  simp [Reply.after]

namespace Routine

variable {σ : Type}

protected def bind (x : Routine α) (f : α → Routine β) : Routine β :=
  match x with
  | done a => f a
  | ask q hq next => ask q hq fun result => (next result).bind f
  | reset next => reset (next.bind f)
  | get name next => get name fun v => (next v).bind f
  | write text next => write text (next.bind f)

/-- Carries a routine out. -/
def run (b : Backend σ) : Routine α → σ → Reply α × σ
  | done a, s => (⟨a, "", []⟩, s)
  | ask q _ next, s =>
    let first := b.ask q s
    let later := (next first.1.answer).run b first.2
    (later.1.after first.1, later.2)
  | reset next, s => next.run b (b.reset s)
  | get name next, s => (next (b.get? name s)).run b s
  | write text next, s =>
    let later := next.run b s
    (later.1.after ⟨(), text, []⟩, later.2)

theorem run_bind (b : Backend σ) (x : Routine α) (f : α → Routine β) (s : σ) :
    (x.bind f).run b s =
      let first := x.run b s
      let later := (f first.1.answer).run b first.2
      (later.1.after first.1, later.2) := by
  induction x generalizing s with
  | done a => simp only [Routine.bind, run, Reply.after_empty]
  | ask q hq next ih => simp only [Routine.bind, run, ih, Reply.after_after, Reply.after_answer]
  | reset next ih => simp only [Routine.bind, run, ih]
  | get name next ih => simp only [Routine.bind, run, ih]
  | write text next ih => simp only [Routine.bind, run, ih, Reply.after_after, Reply.after_answer]

/-! ## Routines of inputs -/

def handle (line : String) : Routine Bool :=
  let input := Text.trim line
  if input.isEmpty then done false
  else if Session.isQuit input then done true
  else if input == "clean" then reset (write "Env cleaned\n" (done false))
  else
    ask (.evaluate (Text.bytesOf input)) (Request.isText_evaluate _) fun result =>
      write (Session.resultText result) (done false)

def preload : List String → Routine (Except Error Unit)
  | [] => done (.ok ())
  | path :: paths =>
    ask (.load path) (Request.isText_load _) fun result =>
      match result with
      | .error e => done (.error (.preload path e))
      | .ok _ => preload paths

def exec (file : String) : Routine (Except Error Unit) :=
  if isSourceFile file then
    ask (.load file) (Request.isText_load _) fun result => done (result.map fun _ => ())
  else done (.error (.notASource file))

/-- Handles what comes from the prompt, which is written in front of each event as given. -/
def converse (prompt shown : String) : List Prompted → Routine RunReport
  | [] =>
    write (shown ++ "\n" ++ Session.farewell)
      (done { prompts := [prompt], history := [], unread := [], failure := none })
  | .interrupt :: rest =>
    write shown ((converse prompt shown rest).bind fun later =>
      done { later with prompts := prompt :: later.prompts })
  | .failure message :: rest =>
    write (shown ++ Session.farewell)
      (done { prompts := [prompt], history := [], unread := rest, failure := some message })
  | .line text :: rest =>
    let remembered := if (Text.trim text).isEmpty then [] else [text]
    write shown ((handle text).bind fun quit =>
      if quit then
        write Session.farewell
          (done { prompts := [prompt], history := remembered, unread := rest, failure := none })
      else
        (converse prompt shown rest).bind fun later =>
          done
            { later with
              prompts := prompt :: later.prompts
              history := remembered ++ later.history })

end Routine

/-- The routine of an input to a session with this prompt. -/
def Input.routine (prompt : String) : Input → Routine Answer
  | handle line => (Routine.handle line).bind fun quit => .done (.ends quit)
  | run echo events =>
    (Routine.converse prompt (if echo then prompt else "") events).bind fun r => .done (.report r)
  | reset => .reset (.done .done)
  | preload paths => (Routine.preload paths).bind fun result => .done (.outcome result)
  | exec file => (Routine.exec file).bind fun result => .done (.outcome result)
  | get name => .get name fun v => .done (.value v)

/-- Carries out the routines of inputs, one after the other. -/
def Backend.serve {σ : Type} (b : Backend σ) (prompt : String) :
    List Input → σ → List (Reply Answer) × σ
  | [], s => ([], s)
  | x :: inputs, s =>
    let first := (x.routine prompt).run b s
    let later := b.serve prompt inputs first.2
    (first.1 :: later.1, later.2)

/-! ## Comparing and keeping -/

section

variable {σ τ : Type}

/-- What the backend does leaves the property as it is. -/
structure Backend.Keeps (b : Backend σ) (I : σ → Prop) : Prop where
  ask : ∀ {s}, I s → ∀ q : Request, q.IsText → I (b.ask q s).2
  reset : ∀ {s}, I s → I (b.reset s)

theorem Backend.Keeps.run {b : Backend σ} {I : σ → Prop} (h : b.Keeps I) (x : Routine α) {s : σ}
    (hs : I s) : I (x.run b s).2 := by
  induction x generalizing s with
  | done a => exact hs
  | ask q hq next ih => exact ih _ (h.ask hs q hq)
  | reset next ih => exact ih (h.reset hs)
  | get name next ih => exact ih _ hs
  | write text next ih => exact ih hs

theorem Backend.Keeps.serve {b : Backend σ} {I : σ → Prop} (h : b.Keeps I) (prompt : String)
    (inputs : List Input) {s : σ} (hs : I s) : I (b.serve prompt inputs s).2 := by
  induction inputs generalizing s with
  | nil => exact hs
  | cons x inputs ih => exact ih (h.run _ hs)

/-- In related states the two backends cannot be told apart. -/
structure Simulates (b : Backend σ) (c : Backend τ) (R : σ → τ → Prop) : Prop where
  ask : ∀ {s t}, R s t → ∀ q, (c.ask q t).1 = (b.ask q s).1 ∧ R (b.ask q s).2 (c.ask q t).2
  reset : ∀ {s t}, R s t → R (b.reset s) (c.reset t)
  get? : ∀ {s t}, R s t → ∀ name, c.get? name t = b.get? name s

theorem Simulates.run {b : Backend σ} {c : Backend τ} {R : σ → τ → Prop} (h : Simulates b c R)
    (x : Routine α) {s : σ} {t : τ} (hst : R s t) :
    (x.run c t).1 = (x.run b s).1 ∧ R (x.run b s).2 (x.run c t).2 := by
  induction x generalizing s t with
  | done a => exact ⟨rfl, hst⟩
  | ask q hq next ih =>
    obtain ⟨hreply, hafter⟩ := h.ask hst q
    obtain ⟨hlater, hend⟩ := ih (b.ask q s).1.answer hafter
    simp only [Routine.run, hreply]
    exact ⟨congrArg (Reply.after · _) hlater, hend⟩
  | reset next ih => exact ih (h.reset hst)
  | get name next ih =>
    simp only [Routine.run, h.get? hst]
    exact ih _ hst
  | write text next ih =>
    obtain ⟨hlater, hend⟩ := ih hst
    exact ⟨congrArg (Reply.after · _) hlater, hend⟩

theorem Simulates.serve {b : Backend σ} {c : Backend τ} {R : σ → τ → Prop} (h : Simulates b c R)
    (prompt : String) (inputs : List Input) {s : σ} {t : τ} (hst : R s t) :
    (c.serve prompt inputs t).1 = (b.serve prompt inputs s).1 ∧
      R (b.serve prompt inputs s).2 (c.serve prompt inputs t).2 := by
  induction inputs generalizing s t with
  | nil => exact ⟨rfl, hst⟩
  | cons x inputs ih =>
    obtain ⟨hreply, hafter⟩ := h.run (x.routine prompt) hst
    obtain ⟨hlater, hend⟩ := ih hafter
    exact ⟨congrArg₂ List.cons hreply hlater, hend⟩

end

/-! ## A session carries out routines -/

namespace Session

/-- A session as a backend. -/
def backend : Backend Session where
  ask q s := (s.perform (q.run s.interpreter)).split id
  reset := Session.reset
  get? name s := s.get? name

theorem backend_ask (q : Request) (s : Session) :
    backend.ask q s = (s.perform (q.run s.interpreter)).split id := rfl

theorem run_handle (s : Session) (line : String) :
    (Routine.handle line).run backend s = (s.handle line).split id := by
  simp only [Routine.handle, handle]
  split
  · rfl
  · split
    · rfl
    · split
      · rfl
      · simp [Routine.run, backend_ask, Reply.after, Step.split, Request.run]

theorem run_preload (s : Session) (paths : List String) :
    (Routine.preload paths).run backend s = (s.preload paths).split id := by
  induction paths generalizing s with
  | nil => rfl
  | cons path paths ih =>
    simp only [Routine.preload, preload, Routine.run, backend_ask, Request.run, Step.split, id_eq]
    cases (s.perform (s.interpreter.load path)).answer with
    | error e => simp [Routine.run, Reply.after]
    | ok v =>
      simp only [ih]
      rfl

theorem run_exec (s : Session) (file : String) :
    (Routine.exec file).run backend s = (s.exec file).split id := by
  simp only [Routine.exec, exec]
  split
  · simp [Routine.run, backend_ask, Reply.after, Step.split, Request.run]
  · rfl

theorem prompt_perform (s : Session) (x : Evaluation α) : (s.perform x).session.prompt = s.prompt :=
  rfl

/-- Handling a line does not change the prompt. -/
theorem prompt_handle (s : Session) (line : String) :
    (s.handle line).session.prompt = s.prompt := by
  simp only [handle]
  split
  · rfl
  · split
    · rfl
    · split
      · rfl
      · exact s.prompt_perform _

theorem run_converse (s : Session) (echo : Bool) (events : List Prompted) :
    (Routine.converse s.prompt (s.shownPrompt echo) events).run backend s =
      (s.run echo events).split id := by
  induction events generalizing s with
  | nil => simp [Routine.converse, run, Routine.run, Reply.after, Step.split]
  | cons event rest ih =>
    cases event with
    | interrupt =>
      simp only [Routine.converse, run, Routine.run, Routine.run_bind, ih]
      simp [Reply.after, Step.split]
    | failure message => simp [Routine.converse, run, Routine.run, Reply.after, Step.split]
    | line text =>
      have hshown : (s.handle text).session.shownPrompt echo = s.shownPrompt echo := by
        rw [shownPrompt, shownPrompt, prompt_handle]
      have hlater := ih (s.handle text).session
      rw [prompt_handle, hshown] at hlater
      simp only [Routine.converse, run, Routine.run, Routine.run_bind, run_handle, Step.split,
        id_eq]
      split
      · simp [Routine.run, Reply.after, String.append_assoc]
      · simp [Routine.run, Routine.run_bind, hlater, Step.split, Reply.after, String.append_assoc]

theorem run_bind_done {x : Routine α} {s : Session} {t : Step α} (h : x.run backend s = t.split id)
    (f : α → β) : (x.bind fun a => .done (f a)).run backend s = t.split f := by
  simp [Routine.run_bind, h, Routine.run, Step.split, Reply.after]

/-- A session does with an input what its routine says. -/
theorem respond_eq (s : Session) (x : Input) :
    s.respond x = (x.routine s.prompt).run backend s := by
  cases x with
  | handle line => exact (run_bind_done (s.run_handle line) _).symm
  | run echo events => exact (run_bind_done (s.run_converse echo events) _).symm
  | reset => rfl
  | preload paths => exact (run_bind_done (s.run_preload paths) _).symm
  | exec file => exact (run_bind_done (s.run_exec file) _).symm
  | get name => rfl

/-- Without the user's definitions a session is as it was. -/
theorem keeps_reset (s : Session) : backend.Keeps fun t => t.reset = s.reset where
  ask h _ _ := h
  reset h := h

theorem serve_eq (inputs : List Input) (s : Session) :
    s.serve inputs = backend.serve s.prompt inputs s := by
  induction inputs generalizing s with
  | nil => rfl
  | cons x inputs ih =>
    have hreset := congrArg Session.prompt (s.keeps_reset.run (x.routine s.prompt) rfl)
    have hprompt : ((x.routine s.prompt).run backend s).2.prompt = s.prompt := hreset
    simp only [serve, Backend.serve, respond_eq, ih, hprompt]

end Session

end

end SmallLisp
