import Mathlib.Logic.Basic
import SmallLisp.Proofs.Eval.Correspondence
import SmallLisp.Proofs.Eval.Safe
import SmallLisp.Proofs.Store.Frames

/-!
# The shape of what is computed

Evaluation computes runtime values from runtime values.  A scope is *sound* when all that can be
seen from it is, and `Yields` says of an evaluation that it ends with a value as said and leaves a
sound scope, also where it fails.  What other frames bind and a nearer frame hides need not be in
shape, since no name is ever unbound.

Requests that keep syntax and data apart are answered in this way (`Yields.correspondence`): a call
starts its body in a frame that adds only values of arguments, and a load evaluates what was read.
So runs are, and `serve_runtime` is what that means for programs and modules evaluated one after the
other in one frame.
-/

namespace SmallLisp

/-! ## Sound scopes -/

/-- All that can be seen is a runtime value. -/
def Scope.Sound (s : Scope) : Prop :=
  ∀ name v, s.get? name = some v → Runtime v

/-- A runtime value may be bound. -/
theorem Scope.Sound.set {own : Bindings} {outer : String → Option Value}
    (h : (Scope.mk own outer).Sound) (name : String) {value : Value} (hv : Runtime value) :
    (Scope.mk (own.set name value) outer).Sound := by
  intro other v hother
  rw [Scope.get?_set] at hother
  split at hother
  · cases hother
    exact hv
  · exact h other v hother

/-! ## Evaluations -/

section

variable {α β : Type} {outer : String → Option Value} {post : α → Prop} {post' : β → Prop}

/-- In a sound scope with this around it, the evaluation ends with a result as said or fails, and
leaves a sound scope. -/
def Yields (outer : String → Option Value) (post : α → Prop) (x : Evaluation α) : Prop :=
  ∀ own, (Scope.mk own outer).Sound →
    (∀ a, (x ⟨own, outer⟩).result = .ok a → post a) ∧
      (Scope.mk (x ⟨own, outer⟩).own outer).Sound

/-- Evaluations in a row: the second starts with what the first yields. -/
theorem Yields.bind {x : Evaluation α} {f : α → Evaluation β} (hx : Yields outer post x)
    (hf : ∀ a, post a → Yields outer post' (f a)) : Yields outer post' (x >>= f) := by
  intro own hown
  obtain ⟨hresult, hscope⟩ := hx own hown
  rcases ho : x ⟨own, outer⟩ with ⟨result, own', record⟩
  rw [ho] at hresult hscope
  cases result with
  | error e =>
    rw [Evaluation.bind_of_error ho]
    exact ⟨nofun, hscope⟩
  | ok a =>
    rw [Evaluation.bind_of_ok ho]
    exact hf a (hresult a rfl) own' hscope

theorem yields_pure {a : α} (h : post a) : Yields outer post (pure a) := by
  intro own hown
  refine ⟨?_, hown⟩
  rintro _ ⟨⟩
  exact h

theorem yields_fail (e : Error) : Yields outer post (.fail e) :=
  fun _ hown => ⟨nofun, hown⟩

theorem yields_note (e : Event) : Yields outer (fun _ => True) (.note e) :=
  fun _ hown => ⟨fun _ _ => trivial, hown⟩

/-- What is looked up is a runtime value, since the scope is sound. -/
theorem yields_lookup (name : String) : Yields outer Runtime (.lookup name) := by
  intro own hown
  rw [Evaluation.lookup]
  cases hv : (Scope.mk own outer).get? name with
  | none => exact ⟨nofun, hown⟩
  | some v =>
    refine ⟨?_, hown⟩
    rintro _ ⟨⟩
    exact hown name v hv

theorem yields_define (name : String) {value : Value} (hv : Runtime value) :
    Yields outer (fun _ => True) (.define name value) :=
  fun _ hown => ⟨fun _ _ => trivial, hown.set name hv⟩

theorem yields_ownBindings :
    Yields outer (fun own => (Scope.mk own outer).Sound) .ownBindings := by
  intro own hown
  refine ⟨?_, hown⟩
  rintro _ ⟨⟩
  exact hown

theorem yields_fetch (read : ModuleReader) (file : String) :
    Yields outer (fun _ => True) (Carrier.fetch read file) :=
  (yields_note (.loading file)).bind fun _ _ => yields_pure trivial

theorem Yields.nested {x : Evaluation α} (h : Yields outer post x) :
    Yields outer post (.nested x) :=
  fun own hown => h own hown

/-- Going on in a frame that is sound. -/
theorem Yields.inFrame {x : Evaluation α} {frame : Bindings} (h : Yields outer post x)
    (hframe : (Scope.mk frame outer).Sound) : Yields outer post (.inFrame frame x) :=
  fun _ hown => ⟨(h frame hframe).1, hown⟩

/-- What keeps syntax and data apart yields runtime values.  The frame of a call has to make up a
sound scope by the time its body runs. -/
theorem Yields.correspondence (outer : String → Option Value) :
    Correspondence .runtime (fun (x _ : Evaluation Value) => Yields outer Runtime x)
      (fun frame _ x _ => (Scope.mk frame outer).Sound → Yields outer Runtime x) where
  done := yields_pure
  fail _ := yields_fail _
  lookup name hf := (yields_lookup name).bind hf
  define _ hv hx := (yields_define _ hv).bind fun _ _ => hx
  print _ hx := (yields_note _).bind fun _ _ => hx
  bind hx hf := hx.bind hf
  fetch read _ hf := (yields_fetch read _).bind fun answer _ => hf answer
  clone hf := yields_ownBindings.bind fun own hown => hf own own hown
  argument hx hf hframe := hx.bind fun v hv => hf v hv hframe
  bindParam _ hv hf hframe :=
    Yields.bind (yields_pure (hframe.set _ hv)) fun own hown => hf own own hown
  body _ _ _ _ hx hframe := (yields_note _).bind fun _ _ => hx.inFrame hframe

end

/-! ## Requests from texts -/

namespace Request

/-- The request comes as a text: a program, or the path of a module. -/
def IsText : Request → Prop
  | eval _ => False
  | evaluate _ => True
  | load _ => True

theorem isText_evaluate (bytes : List UInt8) : (evaluate bytes).IsText :=
  trivial

theorem isText_load (path : String) : (load path).IsText :=
  trivial

theorem IsText.ne_eval {q : Request} (h : q.IsText) (v : Value) : q ≠ .eval v := by
  rintro rfl
  exact h

/-- What a text evaluates to, and what a module gives, is a runtime value. -/
theorem yields {q : Request} (h : q.IsText) (i : Interpreter) (outer : String → Option Value) :
    Yields outer Runtime (q.run i) :=
  (Yields.correspondence outer).request Discipline.sound_runtime Yields.nested i
    (fun _ _ => trivial) fun v hv => absurd hv (h.ne_eval v)

end Request

/-! ## One request after the other -/

/-- All that a frame sees is a runtime value. -/
def Store.Sound (s : Store) (id : Nat) : Prop :=
  ∀ name v, s.get? id name = some v → Runtime v

/-- One request from a text gives a runtime value, and leaves the frame seeing such values only. -/
theorem sound_run {q : Request} (hq : q.IsText) (i : Interpreter) {s : Store} (hs : s.Linked)
    {id : Nat} (hid : id < s.size) (h : s.Sound id) :
    (∀ v, (s.run id (q.run i)).1.result = .ok v → Runtime v) ∧
      (s.run id (q.run i)).2.Sound id := by
  have hscope : (s.scope id).Sound := by
    intro name v hv
    rw [Store.get?_scope hs hid] at hv
    exact h name v hv
  obtain ⟨hresult, hafter⟩ := q.yields hq i (s.outer id) (s.own id) hscope
  refine ⟨hresult, fun name v hv => ?_⟩
  have hsize : id < (s.setOwn id (q.run i (s.scope id)).own).size := by rwa [Store.size_setOwn]
  rw [Store.run, ← Store.get?_scope (Store.linked_setOwn hs id _) hsize,
    Store.scope_setOwn hs hid] at hv
  exact hafter name v hv

/-- Does what is asked in a frame, one request after the other, whether they fail or not: how each
ended, and the frames afterwards. -/
def Store.serve (id : Nat) :
    List (Interpreter × Request) → Store → List (Except Error Value) × Store
  | [], s => ([], s)
  | (i, q) :: requests, s =>
    let first := s.run id (q.run i)
    let later := Store.serve id requests first.2
    (first.1.result :: later.1, later.2)

/-- Programs and modules evaluated in a frame that sees runtime values give runtime values and leave
runtime values bound, also where they fail. -/
theorem serve_runtime {requests : List (Interpreter × Request)}
    (hq : ∀ request ∈ requests, request.2.IsText) {s : Store} (hs : s.Linked) {id : Nat}
    (hid : id < s.size) (h : s.Sound id) :
    (∀ v, .ok v ∈ (Store.serve id requests s).1 → RuntimeFacts v) ∧
      ∀ name v, (Store.serve id requests s).2.get? id name = some v → RuntimeFacts v := by
  induction requests generalizing s with
  | nil => exact ⟨nofun, fun name v hv => (h name v hv).facts⟩
  | cons request requests ih =>
    obtain ⟨i, q⟩ := request
    obtain ⟨hfirst, hrest⟩ := List.forall_mem_cons.1 hq
    obtain ⟨hresult, hafter⟩ := sound_run hfirst i hs hid h
    have hlater := ih hrest (Store.linked_setOwn hs id _) (by rwa [Store.size_setOwn]) hafter
    refine ⟨fun v hv => ?_, hlater.2⟩
    rcases List.mem_cons.1 hv with hv | hv
    · exact (hresult v hv.symm).facts
    · exact hlater.1 v hv

/-- The base frame binds runtime values. -/
theorem runtime_of_booleans {name : String} {v : Value}
    (h : Bindings.empty.withBooleans.get? name = some v) : Runtime v := by
  rw [Bindings.get?_withBooleans] at h
  split at h
  · cases h
    exact .bool false
  · split at h
    · cases h
      exact .bool true
    · cases h

theorem Store.linked_bindBooleans : ((Store.new {}).bindBooleans 0).Linked :=
  Store.linked_setOwn (Store.linked_new Store.linked_empty) 0 _

theorem Store.sound_bindBooleans : ((Store.new {}).bindBooleans 0).Sound 0 := by
  intro name v hv
  have hframe : ((Store.new {}).bindBooleans 0).frame? 0 = some ⟨none, .withBooleans .empty⟩ := rfl
  rw [Store.get?_eq Store.linked_bindBooleans hframe, Option.bind_none, Option.or_none] at hv
  exact runtime_of_booleans hv

/-- A program that defines a lambda, and a module that calls it with `void` and then fails. -/
def defineThenLoad : List (Interpreter × Request) :=
  let i : Interpreter := ⟨.atMost 2, fun _ => .ok (Text.bytesOf "((define a (f ())) (b))")⟩
  [(i, .evaluate (Text.bytesOf "(define f (lambda (x) (1 x)))")), (i, .load "m.lisp")]

/-- The two requests, in a frame with the truth values. -/
def defineThenLoadRun : List (Except Error Value) × Store :=
  Store.serve 0 defineThenLoad ((Store.new {}).bindBooleans 0)

/-- What was `void` inside the call is not in the list that it gave. -/
theorem defineThenLoadRun_runtime :
    (∀ v, .ok v ∈ defineThenLoadRun.1 → RuntimeFacts v) ∧
      (∀ name v, defineThenLoadRun.2.get? 0 name = some v → RuntimeFacts v) ∧
      defineThenLoadRun.1 = [.ok .void, .error (.unbound "b")] ∧
      defineThenLoadRun.2.get? 0 "a" = some (.list [.int 1]) := by
  have hq : ∀ request ∈ defineThenLoad, request.2.IsText := by
    simp [defineThenLoad, Request.IsText]
  have hprogram : parse (Text.bytesOf "(define f (lambda (x) (1 x)))") =
      .ok (.list [.keyword .define, .symbol "f",
        .list [.keyword .lambda, .list [.symbol "x"], .list [.int 1, .symbol "x"]]]) := rfl
  have hmodule : parse (Text.bytesOf "((define a (f ())) (b))") =
      .ok (.list [.list [.keyword .define, .symbol "a", .list [.symbol "f", .list []]],
        .list [.symbol "b"]]) := rfl
  have hpath : modulePath "m.lisp" = .ok "m.lisp" := rfl
  obtain ⟨hresults, hbound⟩ := serve_runtime hq Store.linked_bindBooleans (by decide)
    Store.sound_bindBooleans
  refine ⟨hresults, hbound, ?_⟩
  simp only [defineThenLoadRun, defineThenLoad, Store.serve, Request.run, Interpreter.evaluate,
    Interpreter.load, hprogram]
  rw [load_of_parse hpath (by rfl) hmodule]
  simp only [Interpreter.context, contextAt, Limit.room, Gate.level, Evaluation.inside_gate]
  exact ⟨rfl, rfl⟩

end SmallLisp
