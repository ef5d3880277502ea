import SmallLisp.Eval.Interpreter

/-!
# Sessions

A session keeps the bindings made by one input for the next.  The truth values are bound in a base
frame, and everything that the user defines goes to a frame inside it, which `clean` empties.

An input line is trimmed first.  A blank line does nothing, `exit` and `q` end the session, `clean`
drops the definitions, and any other line is a program: its result is shown, or its error.

`Session.run` takes its lines from a script of events at the prompt, as they come from a terminal or
a file: lines, interrupts and failures, then the end of the input.
-/

namespace SmallLisp

/-- A session between two inputs. -/
structure Session where
  /-- How programs are evaluated. -/
  interpreter : Interpreter
  /-- What is shown in front of an input line. -/
  prompt : String
  /-- The bindings that `clean` keeps. -/
  base : Bindings
  /-- The bindings made by the user. -/
  user : Bindings

/-- What one step of a session did. -/
structure Step (α : Type) where
  /-- The answer of the step. -/
  answer : α
  /-- The session afterwards. -/
  session : Session
  /-- What was written. -/
  output : String
  /-- What happened, in order. -/
  moments : List Moment

/-- An event at the prompt. -/
inductive Prompted where
  /-- A line was entered. -/
  | line (text : String)
  /-- The line was given up. -/
  | interrupt
  /-- No line could be had. -/
  | failure (message : String)
deriving DecidableEq

/-- What a prompt loop did, beside what it wrote. -/
structure RunReport where
  /-- The prompts that were shown, in order. -/
  prompts : List String
  /-- The lines that were remembered, in order. -/
  history : List String
  /-- The events that were never asked for. -/
  unread : List Prompted
  /-- The failure that ended the loop. -/
  failure : Option String

namespace Session

/-- A session without definitions. -/
def start (interpreter : Interpreter) (prompt : String) : Session :=
  { interpreter, prompt, base := Bindings.empty.withBooleans, user := .empty }

/-- The scope of the user's frame. -/
def scope (s : Session) : Scope :=
  { own := s.user, outer := s.base.get? }

/-- The value of a name in the user's frame. -/
def get? (s : Session) (name : String) : Option Value :=
  s.scope.get? name

/-- The session without the user's definitions. -/
def reset (s : Session) : Session :=
  { s with user := .empty }

/-- Does an evaluation in the user's frame. -/
def perform {α : Type} (s : Session) (x : Evaluation α) : Step (Except Error α) :=
  let o := x s.scope
  let moments := Activity.moments o.record
  { answer := o.result
    session := { s with user := o.own }
    output := outputOf moments
    moments }

/-- What is written about a result. -/
def resultText : Except Error Value → String
  | .ok v =>
    match v.shown? with
    | some text => text ++ "\n"
    | none => ""
  | .error e => "Error: " ++ e.message ++ "\n"

/-- Whether a trimmed line ends the session. -/
def isQuit (input : String) : Bool :=
  input == "exit" || input == "q"

/-- Handles one line; the answer says whether the session ends. -/
def handle (s : Session) (line : String) : Step Bool :=
  let input := Text.trim line
  if input.isEmpty then { answer := false, session := s, output := "", moments := [] }
  else if isQuit input then { answer := true, session := s, output := "", moments := [] }
  else if input == "clean" then
    { answer := false, session := s.reset, output := "Env cleaned\n", moments := [] }
  else
    let step := s.perform (s.interpreter.evaluate (Text.bytesOf input))
    { answer := false
      session := step.session
      output := step.output ++ resultText step.answer
      moments := step.moments }

/-- Loads modules in order, up to the first that fails. -/
def preload (s : Session) : List String → Step (Except Error Unit)
  | [] => { answer := .ok (), session := s, output := "", moments := [] }
  | path :: paths =>
    let first := s.perform (s.interpreter.load path)
    match first.answer with
    | .error e => { first with answer := .error (.preload path e) }
    | .ok _ =>
      let rest := first.session.preload paths
      { rest with
        output := first.output ++ rest.output
        moments := first.moments ++ rest.moments }

/-- Runs a program file, which has to be a source file. -/
def exec (s : Session) (file : String) : Step (Except Error Unit) :=
  if isSourceFile file then
    let step := s.perform (s.interpreter.load file)
    { step with answer := step.answer.map fun _ => () }
  else { answer := .error (.notASource file), session := s, output := "", moments := [] }

/-- What is written when a prompt loop ends. -/
def farewell : String := "Good bye\n"

/-- The prompt, where it is written at all. -/
def shownPrompt (s : Session) (echo : Bool) : String :=
  if echo then s.prompt else ""

/-- Handles lines until the input ends, a line ends the session or no line can be had.  Lines that
are not blank are remembered.  With `echo` the prompt is part of what is written, in front of each
event and of the end. -/
def run (s : Session) (echo : Bool) : List Prompted → Step RunReport
  | [] =>
    { answer := { prompts := [s.prompt], history := [], unread := [], failure := none }
      session := s
      output := s.shownPrompt echo ++ "\n" ++ farewell
      moments := [] }
  | .interrupt :: rest =>
    let later := s.run echo rest
    { later with
      answer := { later.answer with prompts := s.prompt :: later.answer.prompts }
      output := s.shownPrompt echo ++ later.output }
  | .failure message :: rest =>
    { answer := { prompts := [s.prompt], history := [], unread := rest, failure := some message }
      session := s
      output := s.shownPrompt echo ++ farewell
      moments := [] }
  | .line text :: rest =>
    let remembered := if (Text.trim text).isEmpty then [] else [text]
    let step := s.handle text
    if step.answer then
      { answer :=
          { prompts := [s.prompt], history := remembered, unread := rest, failure := none }
        session := step.session
        output := s.shownPrompt echo ++ step.output ++ farewell
        moments := step.moments }
    else
      let later := step.session.run echo rest
      { answer :=
          { later.answer with
            prompts := s.prompt :: later.answer.prompts
            history := remembered ++ later.answer.history }
        session := later.session
        output := s.shownPrompt echo ++ step.output ++ later.output
        moments := step.moments ++ later.moments }

/-! ## Without a limit -/

/-- Whether a run of a program came to its end and was not cut off. -/
def finishes {α : Type} (s : Session) : Except Error α → Bool
  | .ok _ => true
  | .error e => !s.interpreter.limit.cutsOff e

/-- Whether all that a prompt loop evaluates comes to its end. -/
def finishesAll (s : Session) : List Prompted → Bool
  | [] => true
  | .interrupt :: rest => s.finishesAll rest
  | .failure _ :: _ => true
  | .line text :: rest =>
    let program := s.interpreter.evaluate (Text.bytesOf (Text.trim text))
    let step := s.handle text
    s.finishes (s.perform program).answer && (step.answer || step.session.finishesAll rest)

end Session

end SmallLisp
