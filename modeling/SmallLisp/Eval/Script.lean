import SmallLisp.Error

/-!
# Scripts

A *script* is what evaluating a value asks of its surroundings, one request after the other: names
to look up and to define, lines to print, lambdas to call and modules to load.  What it goes on with
may depend on the answer.

A script says nothing about frames, levels or records.  So it can be carried out in more than one
way, and what is said of scripts holds of all of them.
-/

namespace SmallLisp

/-- Requests, each with what follows its answer. -/
inductive Script (α : Type) : Type where
  /-- Asks for nothing more. -/
  | done (a : α)
  /-- Fails. -/
  | fail (e : Error)
  /-- Asks for the value of a name. -/
  | lookup (name : String) (next : Value → Script α)
  /-- Asks for a name to be bound. -/
  | define (name : String) (value : Value) (next : Script α)
  /-- Asks for a line to be printed. -/
  | print (text : String) (next : Script α)
  /-- Asks for the lambda with these parameters and this body to be called by a name. -/
  | call (name : String) (params : List String) (body args : List Value) (next : Value → Script α)
  /-- Asks for the module at a path to be loaded. -/
  | load (path : String) (next : Value → Script α)

namespace Script

variable {α β : Type}

/-- One script after the other. -/
protected def bind (x : Script α) (f : α → Script β) : Script β :=
  match x with
  | done a => f a
  | fail e => fail e
  | lookup name next => lookup name fun v => (next v).bind f
  | define name value next => define name value (next.bind f)
  | print text next => print text (next.bind f)
  | call name params body args next => call name params body args fun v => (next v).bind f
  | load path next => load path fun v => (next v).bind f

instance : Monad Script where
  pure := done
  bind := Script.bind

/-- The value, or the request to fail. -/
def ofExcept : Except Error α → Script α
  | .ok a => done a
  | .error e => fail e

end Script

end SmallLisp
