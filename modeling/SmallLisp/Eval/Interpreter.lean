import SmallLisp.Eval.Carrier
import SmallLisp.Eval.Evaluation

/-!
# Interpreters

Evaluating a value is carrying its script out in a scope.  Here the frame of a call is known by its
bindings, which a call puts together while its arguments are evaluated.

Under a limit the levels that are left are all there is to termination, since every cycle of calls
and loads goes one level deeper.

A run without a limit is followed for a number of levels that is at choice.  As long as it does not
nest deeper the choice makes no difference.  A run that does has not come to its end: what it fails
with says that it was cut off (`Limit.cutsOff`), and nothing else fails in that way.
`unlimitedRoom`, the usual choice, is more than fits in memory.
-/

namespace SmallLisp

instance : Carrier Evaluation Bindings where
  fail := Evaluation.fail
  lookup := Evaluation.lookup
  define := Evaluation.define
  print := Evaluation.printLine
  clone := Evaluation.ownBindings
  bindParam frame name value := pure (frame.set name value)
  called name args frame := Evaluation.note (.called name args frame)
  inFrame := Evaluation.inFrame
  fetch read file := do
    Evaluation.note (.loading file)
    pure (read file)

/-- What evaluation needs to know beside the scope. -/
abbrev Context : Type :=
  Level Evaluation

/-- Evaluates a value. -/
def evalNode (c : Context) (v : Value) : Evaluation Value :=
  (Script.ofValue v).run c

/-! ## Levels -/

/-- How many calls and loads may be inside each other. -/
inductive Limit where
  /-- At most this many. -/
  | atMost (n : Nat)
  /-- Any number; a run is followed for this many. -/
  | unlimited (followed : Nat)
deriving DecidableEq, Inhabited

/-- The limit unless another one is asked for. -/
def defaultDepth : Nat := 10000

/-- How far a run without a limit is followed, unless said otherwise. -/
def unlimitedRoom : Nat := 1000000000000

/-- The limit that a number stands for; zero and negative numbers are no limit, and a run without
one is followed for this many levels. -/
def Limit.following (followed : Nat) (n : Int) : Limit :=
  if 0 < n then .atMost n.toNat else .unlimited followed

theorem Limit.following_of_pos (followed : Nat) {n : Int} (h : 0 < n) :
    following followed n = .atMost n.toNat :=
  if_pos h

/-- The limit that a number stands for, with the usual choice. -/
def Limit.ofInt (n : Int) : Limit :=
  .following unlimitedRoom n

/-- How many levels are allowed. -/
def Limit.room : Limit → Nat
  | atMost n => n
  | unlimited followed => followed

/-- The error of a call or load beyond the last level. -/
def Limit.refusal (limit : Limit) (depth : Nat) (what : String) : Error :=
  match limit with
  | .atMost _ => .recursionLimit what depth
  | .unlimited _ => .exhausted what

/-- Whether an error says that a run was cut off, and so nothing about where it would have ended. -/
def Limit.cutsOff : Limit → Error → Bool
  | .atMost _, _ => false
  | .unlimited _, e => e.kind == .other

/-- The value of `f ()`, computed by a thread of its own. -/
def onFreshStack {α : Type} (f : Unit → α) : α :=
  (Task.spawn f).get

@[simp] theorem onFreshStack_eq {α : Type} (f : Unit → α) : onFreshStack f = f () := rfl

/-- How many levels share a thread. -/
def levelsPerStack : Nat := 1000

/-- The value of `f ()`, computed by a new thread if the level is one of those where a thread
starts.  A deep run so uses several stacks. -/
def atLevel {α : Type} (depth : Nat) (f : Unit → α) : α :=
  if depth % levelsPerStack = 0 then onFreshStack f else f ()

@[simp] theorem atLevel_eq {α : Type} (depth : Nat) (f : Unit → α) : atLevel depth f = f () := by
  simp [atLevel]

/-- Levels of evaluation, with the error of a call or load for which there is none left. -/
def Evaluation.gate (refusal : Nat → String → Error) : Gate Evaluation where
  refuse depth what := .fail (refusal depth what)
  inside depth _ x := fun s => atLevel (depth + 1) fun _ => Evaluation.nested x s

/-- The context with `depth` calls and loads active and `room` further ones allowed. -/
def contextAt (read : ModuleReader) (refusal : Nat → String → Error) (room depth : Nat) : Context :=
  (Evaluation.gate refusal).level read room depth

/-! ## Interpreters -/

/-- The settings of evaluation. -/
structure Interpreter where
  /-- How deep calls and loads may nest. -/
  limit : Limit := .atMost defaultDepth
  /-- How modules are read. -/
  read : ModuleReader

namespace Interpreter

/-- The context in which evaluation starts. -/
def context (i : Interpreter) : Context :=
  contextAt i.read i.limit.refusal i.limit.room 0

/-- Evaluates a value. -/
def eval (i : Interpreter) (v : Value) : Evaluation Value :=
  evalNode i.context v

/-- Evaluates the program that the bytes of a text spell. -/
def evaluate (i : Interpreter) (bytes : List UInt8) : Evaluation Value :=
  match parse bytes with
  | .error e => .fail (.read e)
  | .ok program => i.eval program

/-- Loads the module at a path. -/
def load (i : Interpreter) (path : String) : Evaluation Value :=
  i.context.load path

end Interpreter

end SmallLisp
