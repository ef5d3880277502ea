import Mathlib.Logic.Basic
import SmallLisp.Proofs.Session.Live

/-!
# The prompt loop

A prompt loop hears the events of a script in order, up to and including the first that ends it: a
line that quits, or a failure to get a line.  `UpToFirst` says where a list has such a place.

What the loop does is to handle the lines that it hears, one after the other, and nothing else with
the session.  `Session.Hears` lists what is seen of it beside that.  An interrupt and a blank line
cost a prompt and leave no other mark, and the empty line in front of the farewell is there when the
input has ended, not when a line or a failure ended the loop.  Each kind of event has a lemma that
puts it in front of what is heard, and `run_handles_lines` follows by going back through the
script.
-/

namespace SmallLisp

/-! ## Up to the first element of a kind -/

section

variable {α : Type} {p : α → Prop} {xs passed rest : List α} {x : α} {first : Option α}

/-- A list is gone through up to the first element with the property, or to its end. -/
structure UpToFirst (p : α → Prop) (xs passed : List α) (first : Option α) (rest : List α) :
    Prop where
  eq_append : xs = passed ++ first.toList ++ rest
  passes : ∀ x ∈ passed, ¬ p x
  stops : ∀ x ∈ first, p x
  rest_eq : first = none → rest = []

theorem upToFirst_nil : UpToFirst p [] [] none [] :=
  ⟨rfl, nofun, nofun, fun _ => rfl⟩

theorem upToFirst_cons_of_pos (hx : p x) (xs : List α) : UpToFirst p (x :: xs) [] (some x) xs := by
  refine ⟨rfl, nofun, fun y hy => ?_, nofun⟩
  cases hy
  exact hx

theorem UpToFirst.cons_of_neg (h : UpToFirst p xs passed first rest) (hx : ¬ p x) :
    UpToFirst p (x :: xs) (x :: passed) first rest := by
  refine ⟨?_, List.forall_mem_cons.2 ⟨hx, h.passes⟩, h.stops, h.rest_eq⟩
  rw [h.eq_append, List.cons_append, List.cons_append]

/-- Every list has such a place. -/
theorem exists_upToFirst (p : α → Prop) (xs : List α) :
    ∃ passed first rest, UpToFirst p xs passed first rest := by
  induction xs with
  | nil => exact ⟨[], none, [], upToFirst_nil⟩
  | cons x xs ih =>
    by_cases hx : p x
    · exact ⟨[], some x, xs, upToFirst_cons_of_pos hx xs⟩
    · obtain ⟨passed, first, rest, h⟩ := ih
      exact ⟨x :: passed, first, rest, h.cons_of_neg hx⟩

end

/-! ## Events -/

namespace Prompted

/-- Nothing is asked for after the event. -/
inductive Ends : Prompted → Prop where
  | quit {text : String} (h : Text.trim text = "exit" ∨ Text.trim text = "q") : Ends (.line text)
  | failure (message : String) : Ends (.failure message)

/-- The line that was entered. -/
def line? : Prompted → Option String
  | line text => some text
  | interrupt | failure _ => none

/-- The lines among events. -/
def lines (events : List Prompted) : List String :=
  events.filterMap line?

theorem lines_line (text : String) (events : List Prompted) :
    lines (.line text :: events) = text :: lines events := rfl

theorem ends_line_iff {text : String} :
    (line text).Ends ↔ Session.isQuit (Text.trim text) = true := by
  simp only [Session.isQuit, Bool.or_eq_true, beq_iff_eq]
  constructor
  · rintro ⟨h⟩
    exact h
  · exact .quit

end Prompted

namespace Session

/-- A line that quits ends a session, and nothing else does. -/
theorem answer_handle (s : Session) (line : String) :
    (s.handle line).answer = isQuit (Text.trim line) := by
  unfold handle
  dsimp only
  split
  · next hempty =>
    rw [String.isEmpty_iff.1 hempty]
    rfl
  · split
    · next hquit => exact hquit.symm
    · next hquit =>
      have hfalse : isQuit (Text.trim line) = false := Bool.eq_false_iff.2 hquit
      rw [hfalse]
      split <;> rfl

/-- Handles the lines among events, one after the other. -/
def handleAll (s : Session) (events : List Prompted) : List (Reply Answer) × Session :=
  s.serve ((Prompted.lines events).map .handle)

theorem handleAll_nil (s : Session) : s.handleAll [] = ([], s) := rfl

theorem handleAll_interrupt (s : Session) (events : List Prompted) :
    s.handleAll (.interrupt :: events) = s.handleAll events := rfl

theorem handleAll_line (s : Session) (text : String) (events : List Prompted) :
    s.handleAll (.line text :: events) =
      let first := s.handle text
      let later := first.session.handleAll events
      (⟨.ends first.answer, first.output, first.moments⟩ :: later.1, later.2) := by
  rw [handleAll, Prompted.lines_line, List.map_cons, serve, respond, Step.split, ← handleAll]

/-! ## What is seen of a loop -/

/-- What a loop comes to that has heard these events and not those left unread.  The last that it
has heard stopped it, or the input ended. -/
structure Hears (s : Session) (events : List Prompted) (stop : Option Prompted)
    (unread : List Prompted) (r : Step RunReport) : Prop where
  prompts : r.answer.prompts =
    List.replicate (events.length + if stop.isNone then 1 else 0) s.prompt
  history : r.answer.history =
    (Prompted.lines events).filter fun text => !(Text.trim text).isEmpty
  unread : r.answer.unread = unread
  failure : ∀ message, r.answer.failure = some message ↔ stop = some (.failure message)
  session : r.session = (s.handleAll events).2
  output : r.output = String.join ((s.handleAll events).1.map Reply.output) ++
    (if stop.isNone then "\n" else "") ++ "Good bye\n"
  moments : r.moments = happened (s.handleAll events).1

theorem hears_nothing (s : Session) : s.Hears [] none [] (s.run false []) where
  prompts := rfl
  history := rfl
  unread := rfl
  failure message := by simp [run]
  session := rfl
  output := rfl
  moments := rfl

theorem hears_failure (s : Session) (message : String) (rest : List Prompted) :
    s.Hears [.failure message] (some (.failure message)) rest
      (s.run false (.failure message :: rest)) where
  prompts := rfl
  history := rfl
  unread := rfl
  failure m := by simp [run]
  session := rfl
  output := rfl
  moments := rfl

/-- A line that quits is remembered like any other. -/
theorem hears_quit (s : Session) {text : String} (h : isQuit (Text.trim text) = true)
    (rest : List Prompted) :
    s.Hears [.line text] (some (.line text)) rest (s.run false (.line text :: rest)) := by
  have hne : (Text.trim text).isEmpty = false := by
    rw [Bool.eq_false_iff]
    intro hempty
    rw [String.isEmpty_iff.1 hempty] at h
    cases h
  have hanswer : (s.handle text).answer = true := (s.answer_handle text).trans h
  rw [run, if_pos hanswer]
  refine ⟨rfl, ?_, rfl, fun message => ?_, ?_, ?_, ?_⟩
  · simp [Prompted.lines, Prompted.line?, hne]
  · simp
  · simp [handleAll_line, handleAll_nil]
  · simp [handleAll_line, handleAll_nil, shownPrompt, farewell]
  · simp [handleAll_line, handleAll_nil, happened]

variable {s : Session} {events unread rest : List Prompted} {stop : Option Prompted}

/-- One more event costs one more prompt. -/
theorem replicate_length_cons (e : Prompted) (n : Nat) (prompt : String) :
    List.replicate ((e :: events).length + n) prompt =
      prompt :: List.replicate (events.length + n) prompt := by
  rw [List.length_cons, Nat.add_right_comm, List.replicate_succ]

theorem Hears.interrupt (h : s.Hears events stop unread (s.run false rest)) :
    s.Hears (.interrupt :: events) stop unread (s.run false (.interrupt :: rest)) := by
  refine ⟨?_, h.history, h.unread, h.failure, ?_, ?_, ?_⟩
  · rw [replicate_length_cons, ← h.prompts, run]
  · rw [handleAll_interrupt, ← h.session, run]
  · rw [handleAll_interrupt, ← h.output, run]
    exact String.empty_append
  · rw [handleAll_interrupt, ← h.moments, run]

/-- A line that does not quit is handled, and the loop goes on in the session that it leaves. -/
theorem Hears.line {text : String} (hpass : isQuit (Text.trim text) = false)
    (h : (s.handle text).session.Hears events stop unread
      ((s.handle text).session.run false rest)) :
    s.Hears (.line text :: events) stop unread (s.run false (.line text :: rest)) := by
  have hanswer : ¬ (s.handle text).answer = true := by simp [answer_handle, hpass]
  rw [run, if_neg hanswer]
  refine ⟨?_, ?_, h.unread, h.failure, ?_, ?_, ?_⟩
  · rw [replicate_length_cons, ← s.prompt_handle text, ← h.prompts]
  · rw [Prompted.lines_line, List.filter_cons, ← h.history]
    cases (Text.trim text).isEmpty <;> rfl
  · rw [handleAll_line, ← h.session]
  · simp [handleAll_line, shownPrompt, h.output, String.append_assoc]
  · simp [handleAll_line, happened, h.moments]

/-- A loop hears its script up to the event that ends it. -/
theorem hears_upToFirst {script passed : List Prompted}
    (h : UpToFirst Prompted.Ends script passed stop unread) (s : Session) :
    s.Hears (passed ++ stop.toList) stop unread (s.run false script) := by
  obtain ⟨rfl, hpasses, hstops, hunread⟩ := h
  induction passed generalizing s with
  | nil =>
    cases stop with
    | none =>
      rw [hunread rfl]
      exact s.hears_nothing
    | some e =>
      cases hstops e rfl with
      | quit hquit => exact s.hears_quit (Prompted.ends_line_iff.1 (.quit hquit)) unread
      | failure message => exact s.hears_failure message unread
  | cons e passed ih =>
    obtain ⟨he, hpassed⟩ := List.forall_mem_cons.1 hpasses
    cases e with
    | line text =>
      have hpass : isQuit (Text.trim text) = false :=
        Bool.eq_false_iff.2 fun hquit => he (Prompted.ends_line_iff.2 hquit)
      exact (ih (s.handle text).session hpassed).line hpass
    | interrupt => exact (ih s hpassed).interrupt
    | failure message => exact absurd (.failure message) he

/-- The prompt loop is a fold of handling lines.  A script is heard up to the first line that quits
or the first failure, or else to its end.  The lines up to there are handled one after the other,
and what is written, what happens and the session afterwards are those of handling them, with an
empty line at the end of the input and then the farewell.  Every event heard costs a prompt, as does
the end, the lines that are not blank are remembered as they are, and a failure that stopped the
loop is reported. -/
theorem run_handles_lines (script : List Prompted) :
    ∃ passed stop unread, UpToFirst Prompted.Ends script passed stop unread ∧
      ∀ s : Session, s.Hears (passed ++ stop.toList) stop unread (s.run false script) := by
  obtain ⟨passed, stop, unread, h⟩ := exists_upToFirst Prompted.Ends script
  exact ⟨passed, stop, unread, h, hears_upToFirst h⟩

/-- Neither the interrupt nor the blank line is remembered, and nothing is asked for after the line
that quits. -/
example (s : Session) :
    s.run false [.line " ", .interrupt, .line "\tq ", .line "clean"] =
      { answer :=
          { prompts := [s.prompt, s.prompt, s.prompt]
            history := ["\tq "]
            unread := [.line "clean"]
            failure := none }
        session := s
        output := "Good bye\n"
        moments := [] } := rfl

end Session

end SmallLisp
