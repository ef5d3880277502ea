import Mathlib.Logic.Basic
import SmallLisp.Eval.Interpreter

/-!
# Scripts carried out by evaluation

Scripts one after the other are carried out one after the other (`Script.run_bind`), so what a form
comes to can be read off its script.  The arguments of a call can be evaluated before any of them is
bound, since nothing looks into the frame of the call in between (`bindArgs_eq`).

`Request` lists what an interpreter can be asked to do.
-/

namespace SmallLisp

/-! ## Scopes -/

theorem Scope.get?_set (own : Bindings) (outer : String → Option Value) (name : String)
    (value : Value) (other : String) :
    (Scope.mk (own.set name value) outer).get? other =
      if other = name then some value else (Scope.mk own outer).get? other := by
  by_cases h : other = name
  · simp [Scope.get?, Bindings.get?_set, h]
  · simp [Scope.get?, Bindings.get?_set, h]

/-! ## Outcomes of two evaluations -/

namespace Evaluation

variable {α β : Type} {x : Evaluation α} {f : α → Evaluation β} {s : Scope} {own : Bindings}
  {record : List Activity}

/-- The second does not start if the first fails. -/
theorem bind_of_error {e : Error} (h : x s = ⟨.error e, own, record⟩) :
    (x >>= f) s = ⟨.error e, own, record⟩ := by
  change Evaluation.bind x f s = _
  rw [Evaluation.bind, h]

/-- The second starts with the bindings that the first leaves. -/
theorem bind_of_ok {a : α} (h : x s = ⟨.ok a, own, record⟩) :
    (x >>= f) s =
      ⟨(f a { s with own := own }).result, (f a { s with own := own }).own,
        record ++ (f a { s with own := own }).record⟩ := by
  change Evaluation.bind x f s = _
  rw [Evaluation.bind, h]

/-- A function of the result changes nothing else. -/
theorem bind_pure_apply (x : Evaluation α) (f : α → β) (s : Scope) :
    (x >>= fun a => pure (f a)) s = ⟨(x s).result.map f, (x s).own, (x s).record⟩ := by
  rcases h : x s with ⟨result, own, record⟩
  cases result with
  | error e =>
    rw [bind_of_error h]
    rfl
  | ok a =>
    rw [bind_of_ok h]
    exact congrArg (Outcome.mk _ _) (List.append_nil record)

end Evaluation

theorem ownBindings_bind {α : Type} (f : Bindings → Evaluation α) (s : Scope) :
    (Evaluation.ownBindings >>= f) s = f s.own s := rfl

/-! ## Modules -/

theorem fetch_bind {α : Type} (read : ModuleReader) (file : String)
    (f : Except String (List UInt8) → Evaluation α) :
    (Carrier.fetch read file >>= f : Evaluation α) =
      (Evaluation.note (.loading file) >>= fun _ => f (read file)) := rfl

/-- Loading a module that can be read is evaluating its program, one level deeper. -/
theorem load_of_parse {c : Context} {path file : String} {bytes : List UInt8} {program : Value}
    (hpath : modulePath path = .ok file) (hread : c.read file = .ok bytes)
    (hparse : parse bytes = .ok program) :
    c.load path =
      c.enter ("load " ++ file) fun run =>
        Evaluation.note (.loading file) >>= fun _ => run program := by
  simp only [Level.load, hpath, fetch_bind, hread, hparse]

/-! ## Scripts -/

namespace Script

variable {α β : Type} (c : Context)

theorem run_pure {m : Type → Type} {φ : Type} [Monad m] [Carrier m φ] (l : Level m) (a : α) :
    (pure a : Script α).run l = pure a := rfl

theorem run_bind (x : Script α) (f : α → Script β) :
    (x >>= f).run c = x.run c >>= fun a => (f a).run c := by
  change (x.bind f).run c = _
  induction x with
  | done a => simp only [Script.bind, run, pure_bind]
  | fail e => rfl
  | lookup name next ih => simp only [Script.bind, run, ih, bind_assoc]
  | define name value next ih => simp only [Script.bind, run, ih, bind_assoc]
  | print text next ih => simp only [Script.bind, run, ih, bind_assoc]
  | call name params body args next ih => simp only [Script.bind, run, ih, bind_assoc]
  | load path next ih => simp only [Script.bind, run, ih, bind_assoc]

theorem run_ofExcept (x : Except Error α) : (ofExcept x).run c = .ofExcept x := by
  cases x <;> rfl

theorem run_binaryForm (name : String) (op : Value → Value → Except Error Value)
    (left right : Operand) :
    (binaryForm name op [left, right]).run c =
      left.meaning.run c >>= fun l => right.meaning.run c >>= fun r => .ofExcept (op l r) := by
  simp only [binaryForm, run_bind, run_ofExcept]

/-- What is done after the test depends on its value alone. -/
theorem run_ifForm (test yes no : Script Value) :
    (ifForm test yes no).run c = test.run c >>= fun b => (ifForm (pure b) yes no).run c := by
  rw [ifForm, run_bind]
  rfl

end Script

/-- Evaluates values in order. -/
def runAll (run : Value → Evaluation Value) : List Value → Evaluation (List Value)
  | [] => pure []
  | v :: vs => do
    let x ← run v
    let xs ← runAll run vs
    pure (x :: xs)

theorem Script.run_evalAll (c : Context) (vs : List Value) :
    (evalAll (ofValues vs)).run c = runAll (evalNode c) vs := by
  induction vs with
  | nil => rfl
  | cons v vs ih => simp only [ofValues, evalAll, runAll, run_bind, ih, run_pure, evalNode]

/-! ## Arguments -/

/-- All arguments of a call are evaluated, and then all are bound. -/
theorem bindArgs_eq (run : Value → Evaluation Value) (next : Bindings → Evaluation Value)
    (frame : Bindings) {params : List String} {args : List Value}
    (hlen : args.length = params.length) :
    bindArgs run next frame params args =
      runAll run args >>= fun values => next (frame.setAll params values) := by
  induction params generalizing frame args with
  | nil =>
    obtain rfl := List.eq_nil_of_length_eq_zero hlen
    rfl
  | cons param params ih =>
    cases args with
    | nil => cases hlen
    | cons arg args =>
      simp only [bindArgs, runAll, bind_assoc, pure_bind]
      congr 1
      funext v
      exact ih (frame.set param v) (Nat.succ.inj hlen)

/-! ## Requests to an interpreter -/

/-- What an interpreter can be asked to do. -/
inductive Request where
  /-- Evaluate a value. -/
  | eval (v : Value)
  /-- Evaluate the program that the bytes of a text spell. -/
  | evaluate (bytes : List UInt8)
  /-- Load the module at a path. -/
  | load (path : String)

namespace Request

/-- Does what is asked. -/
def run (i : Interpreter) : Request → Evaluation Value
  | eval v => i.eval v
  | evaluate bytes => i.evaluate bytes
  | load path => i.load path

/-- The script of what is asked. -/
def script : Request → Script Value
  | eval v => .ofValue v
  | evaluate bytes =>
    match parse bytes with
    | .error e => .fail (.read e)
    | .ok program => .ofValue program
  | load path => .load path pure

theorem run_eq (i : Interpreter) (q : Request) : q.run i = q.script.run i.context := by
  cases q with
  | eval v => rfl
  | evaluate bytes =>
    simp only [run, Interpreter.evaluate, script]
    cases parse bytes <;> rfl
  | load path => exact (bind_pure (i.context.load path)).symm

end Request

end SmallLisp
