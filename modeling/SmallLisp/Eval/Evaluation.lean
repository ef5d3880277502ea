import SmallLisp.Error
import SmallLisp.Event

/-!
# Evaluations

An evaluation works in a scope: the bindings of one frame, which it may extend, and what the frames
around it answer, which it cannot change.  It ends with a result or an error, and in both cases
with the bindings that it leaves and the record of what happened.

Evaluations are joined by `bind`: the second starts with the bindings that the first leaves, and
does not start at all if the first fails.
-/

namespace SmallLisp

/-- Where names are looked up. -/
structure Scope where
  /-- The bindings of the frame itself. -/
  own : Bindings
  /-- What the frames around it answer. -/
  outer : String → Option Value

/-- The value of a name: the frame's own, else what the frames around it answer. -/
def Scope.get? (s : Scope) (name : String) : Option Value :=
  match s.own.get? name with
  | some v => some v
  | none => s.outer name

/-- How an evaluation ended. -/
structure Outcome (α : Type) where
  /-- The result, or why there is none. -/
  result : Except Error α
  /-- The frame's bindings afterwards. -/
  own : Bindings
  /-- What happened, in order. -/
  record : List Activity

/-- Something to be done in a scope. -/
def Evaluation (α : Type) : Type :=
  Scope → Outcome α

namespace Evaluation

variable {α β : Type}

/-- Does nothing. -/
@[inline] protected def pure (a : α) : Evaluation α :=
  fun s => ⟨.ok a, s.own, []⟩

/-- Does the first, then the second with its result. -/
@[inline] protected def bind (x : Evaluation α) (f : α → Evaluation β) : Evaluation β :=
  fun s =>
    match x s with
    | ⟨.error e, own, record⟩ => ⟨.error e, own, record⟩
    | ⟨.ok a, own, record⟩ =>
      match f a { s with own := own } with
      | ⟨result, own, later⟩ => ⟨result, own, record ++ later⟩

instance : Monad Evaluation where
  pure := Evaluation.pure
  bind := Evaluation.bind

instance : LawfulMonad Evaluation := LawfulMonad.mk' _
  (fun x => by
    funext s
    change Evaluation.bind x (fun a => Evaluation.pure (id a)) s = x s
    unfold Evaluation.bind Evaluation.pure
    rcases x s with ⟨result, own, record⟩
    cases result <;> simp)
  (fun a f => by
    funext s
    rfl)
  (fun x f g => by
    funext s
    change Evaluation.bind (Evaluation.bind x f) g s =
      Evaluation.bind x (fun a => Evaluation.bind (f a) g) s
    unfold Evaluation.bind
    rcases x s with ⟨result, own, record⟩
    cases result with
    | error e => rfl
    | ok a =>
      dsimp only
      rcases f a { s with own := own } with ⟨result, own', record'⟩
      cases result with
      | error e => rfl
      | ok b =>
        dsimp only
        rcases g b { s with own := own' } with ⟨result, own'', record''⟩
        simp)

/-- Fails. -/
def fail (e : Error) : Evaluation α :=
  fun s => ⟨.error e, s.own, []⟩

/-- Fails if there is an error, and else gives the value. -/
def ofExcept (x : Except Error α) : Evaluation α :=
  fun s => ⟨x, s.own, []⟩

/-- The value of a name. -/
def lookup (name : String) : Evaluation Value :=
  fun s =>
    match s.get? name with
    | some v => ⟨.ok v, s.own, []⟩
    | none => ⟨.error (.unbound name), s.own, []⟩

/-- The frame's own bindings. -/
def ownBindings : Evaluation Bindings :=
  fun s => ⟨.ok s.own, s.own, []⟩

/-- Binds a name in the frame. -/
def define (name : String) (value : Value) : Evaluation Unit :=
  fun s => ⟨.ok (), s.own.set name value, [.event (.defined name value)]⟩

/-- Notes an event that changes nothing. -/
def note (e : Event) : Evaluation Unit :=
  fun s => ⟨.ok (), s.own, [.event e]⟩

/-- Prints a line. -/
def printLine (text : String) : Evaluation Unit :=
  note (.printed (text ++ "\n"))

/-- Does something inside a call or a load. -/
def nested (x : Evaluation α) : Evaluation α :=
  fun s =>
    match x s with
    | ⟨result, own, record⟩ => ⟨result, own, [.nested record]⟩

/-- Does something in a frame of its own with the same frames around it.  The bindings of that
frame are dropped afterwards. -/
def inFrame (frame : Bindings) (x : Evaluation α) : Evaluation α :=
  fun s =>
    match x { s with own := frame } with
    | ⟨result, _, record⟩ => ⟨result, s.own, record⟩

end Evaluation

end SmallLisp
