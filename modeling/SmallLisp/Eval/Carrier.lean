import SmallLisp.Eval.Form
import SmallLisp.ModulePath

/-!
# Carrying scripts out

A carrier has an answer to each kind of request: it looks names up and binds them, prints, makes
frames for calls, and has modules read.  `Script.run` carries a script out with what is done at a
level, and calls and loads are the same for every carrier.

A call evaluates its arguments, from left to right, in the frame of the caller.  Its body then runs
in a frame that copies what the caller's frame bound before the first argument was evaluated, with
the parameters bound on top, one after the other.  So the body sees what is visible where the call
is made, and nothing that it defines is left behind.

A load reads a module and evaluates it in the frame of the caller, where its definitions stay.

Both go one level deeper, arguments included.  A `Gate` says what happens there, and `Gate.level`
ties the knot by recursion on the number of levels that are left.
-/

namespace SmallLisp

/-- Gives the bytes of a file, or the reason why they cannot be had. -/
abbrev ModuleReader : Type :=
  String → Except String (List UInt8)

/-- What answers requests by things to be done in `m`, and knows frames of calls by a `φ`. -/
class Carrier (m : Type → Type) (φ : outParam Type) where
  /-- Fails. -/
  fail {α : Type} (e : Error) : m α
  /-- The value of a name. -/
  lookup (name : String) : m Value
  /-- Binds a name in the frame. -/
  define (name : String) (value : Value) : m Unit
  /-- Prints a line. -/
  print (text : String) : m Unit
  /-- A copy of the frame. -/
  clone : m φ
  /-- Binds a parameter in the frame of a call. -/
  bindParam (frame : φ) (name : String) (value : Value) : m φ
  /-- Notes that a lambda is called by a name, with unevaluated arguments. -/
  called (name : String) (args : List Value) (frame : φ) : m Unit
  /-- Does something in the frame of a call. -/
  inFrame (frame : φ) (x : m Value) : m Value
  /-- Notes that a module is loaded, and reads it. -/
  fetch (read : ModuleReader) (file : String) : m (Except String (List UInt8))

/-- What is done with calls and loads at a level. -/
structure Level (m : Type → Type) where
  /-- How modules are read. -/
  read : ModuleReader
  /-- Does something that is described one level deeper, with the evaluation to use there. -/
  enter (what : String) (body : (Value → m Value) → m Value) : m Value

section

variable {m : Type → Type} {φ : Type} [Monad m] [Carrier m φ]

/-- Evaluates arguments in order, binds each in the frame of the call, and goes on with that. -/
def bindArgs (run : Value → m Value) (next : φ → m Value) :
    φ → List String → List Value → m Value
  | frame, param :: params, arg :: args => do
    let v ← run arg
    let frame ← Carrier.bindParam frame param v
    bindArgs run next frame params args
  | frame, _, _ => next frame

namespace Level

/-- Calls the lambda with these parameters and this body by a name. -/
def call (l : Level m) (name : String) (params : List String) (body args : List Value) : m Value :=
  if args.length ≠ params.length then
    Carrier.fail (.arity name params.length args.length)
  else
    l.enter name fun run => do
      let frame ← Carrier.clone
      let start := fun frame => do
        Carrier.called name args frame
        Carrier.inFrame frame (run (.list body))
      bindArgs run start frame params args

/-- Loads the module at a path. -/
def load (l : Level m) (path : String) : m Value :=
  match modulePath path with
  | .error e => Carrier.fail e
  | .ok file =>
    l.enter ("load " ++ file) fun run => do
      let answer ← Carrier.fetch l.read file
      match answer with
      | .error reason => Carrier.fail (.moduleNotFound file reason)
      | .ok bytes =>
        match parse bytes with
        | .error e => Carrier.fail (.read e)
        | .ok program => run program

end Level

/-- Carries a script out at a level. -/
@[specialize]
def Script.run {α : Type} (l : Level m) : Script α → m α
  | done a => pure a
  | fail e => Carrier.fail e
  | lookup name next => do
    let v ← Carrier.lookup name
    (next v).run l
  | define name value next => do
    Carrier.define name value
    next.run l
  | print text next => do
    Carrier.print text
    next.run l
  | call name params body args next => do
    let v ← l.call name params body args
    (next v).run l
  | load path next => do
    let v ← l.load path
    (next v).run l

/-- How levels are entered, with this many calls and loads active. -/
structure Gate (m : Type → Type) where
  /-- A call or load for which there is no further level. -/
  refuse (depth : Nat) (what : String) : m Value
  /-- Does something inside a call or a load. -/
  inside (depth : Nat) (what : String) (x : m Value) : m Value

/-- The level with `depth` calls and loads active and `room` further ones allowed. -/
@[specialize]
def Gate.level (gate : Gate m) (read : ModuleReader) : (room depth : Nat) → Level m
  | 0, depth => { read, enter := fun what _ => gate.refuse depth what }
  | room + 1, depth =>
    { read
      enter := fun what body =>
        gate.inside depth what
          (body fun v => (Script.ofValue v).run (gate.level read room (depth + 1))) }

end

end SmallLisp
