import Mathlib.Logic.Basic
import SmallLisp.Proofs.Eval.Depth
import SmallLisp.Proofs.Event

/-!
# Loading is inlining

Loading a module does what evaluating its program in the same frame does, one level deeper.

Deeper means two things.  The number that a refused call or load reports is one higher; `Parallels`
compares evaluations that differ in nothing else, and holds on every level (`parallels_contextAt`).
And every event happens with one more load around it (`Activity.momentsAt_succ`), which the trace
shows as two more spaces (`Moment.traceEntry_deeper`).

`load_inlines` puts this together, with a limit one higher for the load, and with no limit for
either.
-/

namespace SmallLisp

/-! ## The same but for refusals -/

section

variable {α β : Type} {E : Error → Error → Prop}

/-- Two runs are the same, or both were refused a level at the same place, with errors related in
this way. -/
inductive Parallel (E : Error → Error → Prop) : Outcome α → Outcome α → Prop where
  | same (o : Outcome α) : Parallel E o o
  | refused {e e' : Error} (h : E e e') (own : Bindings) (record : List Activity) :
      Parallel E ⟨.error e, own, record⟩ ⟨.error e', own, record⟩

/-- Two evaluations run in parallel in every scope. -/
def Parallels (E : Error → Error → Prop) (x y : Evaluation α) : Prop :=
  ∀ s, Parallel E (x s) (y s)

theorem Parallels.refl (x : Evaluation α) : Parallels E x x :=
  fun s => .same (x s)

theorem Parallels.bind {x y : Evaluation α} {f g : α → Evaluation β} (hx : Parallels E x y)
    (hf : ∀ a, Parallels E (f a) (g a)) : Parallels E (x >>= f) (y >>= g) := by
  intro s
  have hfirst := hx s
  generalize hox : x s = ox at hfirst
  generalize hoy : y s = oy at hfirst
  cases hfirst with
  | same =>
    obtain ⟨result, own, record⟩ := ox
    cases result with
    | error e =>
      rw [Evaluation.bind_of_error hox, Evaluation.bind_of_error hoy]
      exact .same _
    | ok a =>
      rw [Evaluation.bind_of_ok hox, Evaluation.bind_of_ok hoy]
      have hsecond := hf a { s with own := own }
      generalize f a { s with own := own } = of at hsecond
      generalize g a { s with own := own } = og at hsecond
      cases hsecond with
      | same => exact .same _
      | refused h => exact .refused h _ _
  | refused h =>
    rw [Evaluation.bind_of_error hox, Evaluation.bind_of_error hoy]
    exact .refused h _ _

theorem Parallels.nested {x y : Evaluation α} (h : Parallels E x y) :
    Parallels E (.nested x) (.nested y) := by
  intro s
  have hinner := h s
  unfold Evaluation.nested
  generalize x s = ox at hinner
  generalize y s = oy at hinner
  cases hinner with
  | same => exact .same _
  | refused h => exact .refused h _ _

theorem Parallels.inFrame {x y : Evaluation α} (h : Parallels E x y) (frame : Bindings) :
    Parallels E (.inFrame frame x) (.inFrame frame y) := by
  intro s
  have hinner := h { s with own := frame }
  unfold Evaluation.inFrame
  generalize x { s with own := frame } = ox at hinner
  generalize y { s with own := frame } = oy at hinner
  cases hinner with
  | same => exact .same _
  | refused h => exact .refused h _ _

theorem Parallels.congruence (E : Error → Error → Prop) :
    Congruence (fun _ => True) fun {α : Type} (x y : Evaluation α) => Parallels E x y where
  pure _ := .refl _
  bind := Parallels.bind
  fail _ := .refl _
  lookup _ := .refl _
  define _ _ := .refl _
  print _ := .refl _
  clone := .refl _
  bindParam _ _ _ := .refl _
  called _ _ _ := .refl _
  inFrame frame h := h.inFrame frame
  fetch _ _ := .refl _

end

/-- With the same room one level deeper, a script runs in parallel where the last refusals are
related. -/
theorem parallels_contextAt {E : Error → Error → Prop} (read : ModuleReader)
    {refusal refusal' : Nat → String → Error} {room d : Nat}
    (h : ∀ what, E (refusal (d + room) what) (refusal' (d + room + 1) what)) (x : Script Value) :
    Parallels E (x.run (contextAt read refusal room d))
      (x.run (contextAt read refusal' room (d + 1))) :=
  (Parallels.congruence E).correspondence.contextAt Discipline.sound_any Parallels.nested
    (fun what _ => .refused (h what) _ _) read x.obeys_any

/-! ## Loads -/

/-- A refusal, and the refusal of the same call or load one level deeper. -/
inductive DeeperRefusal : Error → Error → Prop where
  | intro (what : String) (depth : Nat) :
      DeeperRefusal (.recursionLimit what depth) (.recursionLimit what (depth + 1))

/-- The form that loads the module at a path. -/
def loadOf (path : String) : Request :=
  .eval (.list [.keyword .load, .str path])

/-- The same inside a load of a file. -/
def Outcome.inLoad (o : Outcome Value) (file : String) : Outcome Value :=
  { o with record := [.nested (.event (.loading file) :: o.record)] }

section

variable {path file : String} {read : ModuleReader} {bytes : List UInt8} {program : Value}

theorem run_loadOf (hpath : modulePath path = .ok file) (hread : read file = .ok bytes)
    (hparse : parse bytes = .ok program) {l : Limit} {room : Nat} (hroom : l.room = room + 1)
    (s : Scope) :
    (loadOf path).run ⟨l, read⟩ s =
      (evalNode (contextAt read l.refusal room 1) program s).inLoad file := by
  have hload : (loadOf path).run ⟨l, read⟩ = (Interpreter.context ⟨l, read⟩).load path :=
    bind_pure _
  have hread' : (Interpreter.context ⟨l, read⟩).read file = .ok bytes := by
    rw [Interpreter.context, hroom]
    exact hread
  rw [hload, load_of_parse hpath hread' hparse, Interpreter.context, hroom]
  simp only [contextAt, Gate.level, Evaluation.inside_gate]
  rfl

end

/-- How a module loaded by a form compares with its program evaluated alone. -/
structure Inlines (file : String) (loaded alone : Outcome Value × Store) : Prop where
  /-- The same value or error, but for the depth at which a call or load was refused. -/
  result : loaded.1.result = alone.1.result ∨ ∃ what depth,
    alone.1.result = .error (.recursionLimit what depth) ∧
      loaded.1.result = .error (.recursionLimit what (depth + 1))
  /-- The same bindings, in all frames. -/
  store : loaded.2 = alone.2
  output : outputOf (Activity.moments loaded.1.record) = outputOf (Activity.moments alone.1.record)
  /-- First the load, then the same one level deeper. -/
  moments : Activity.moments loaded.1.record =
    ⟨1, .loading file⟩ :: (Activity.moments alone.1.record).map Moment.deeper
  /-- An entry of the trace has two more spaces, if that is not too wide. -/
  entry : ∀ m ∈ Activity.moments alone.1.record, 2 * (m.depth + 1) ≤ widestIndent →
    ∀ label, m.deeper.traceEntry label = m.traceEntry (label ++ "  ")
  trace : (∀ m ∈ Activity.moments alone.1.record, 2 * (m.depth + 1) ≤ widestIndent) →
    ∀ label, traceOf label (Activity.moments loaded.1.record) =
      label ++ endLine ("  load " ++ file) ++
        traceOf (label ++ "  ") (Activity.moments alone.1.record)

theorem inlines_of_parallel (file : String) {o o' : Outcome Value}
    (h : Parallel DeeperRefusal o o') (s : Store) (id : Nat) :
    Inlines file (o'.inLoad file, s.setOwn id o'.own) (o, s.setOwn id o.own) := by
  have hrecord : o'.record = o.record := by cases h <;> rfl
  have hown : o'.own = o.own := by cases h <;> rfl
  have hmoments : Activity.moments (o'.inLoad file).record =
      ⟨1, .loading file⟩ :: (Activity.moments o.record).map Moment.deeper := by
    rw [Activity.moments_eq o.record, ← Activity.momentsAt_succ, ← hrecord]
    rfl
  refine ⟨?_, ?_, ?_, hmoments, fun m _ hm label => m.traceEntry_deeper hm label, ?_⟩
  · cases h with
    | same => exact .inl rfl
    | refused hrefusal =>
      obtain ⟨what, depth⟩ := hrefusal
      exact .inr ⟨what, depth, rfl, rfl⟩
  · rw [hown]
  · rw [hmoments, ← List.singleton_append, outputOf_append, outputOf_deeper]
    exact String.empty_append
  · intro hwide label
    rw [hmoments, traceOf_cons, traceOf_deeper label hwide]
    rfl

/-! ## With and without a limit -/

theorem Parallel.eq {α : Type} {o o' : Outcome α} (h : Parallel Eq o o') : o' = o := by
  cases h with
  | same => rfl
  | refused he => rw [he]

theorem inLoad_injective {file : String} {o o' : Outcome Value}
    (h : o.inLoad file = o'.inLoad file) : o = o' := by
  obtain ⟨result, own, record⟩ := o
  obtain ⟨result', own', record'⟩ := o'
  simp only [Outcome.inLoad, Outcome.mk.injEq, List.cons.injEq, Activity.nested.injEq, and_true,
    true_and] at h
  obtain ⟨rfl, rfl, rfl⟩ := h
  rfl

section

variable {path file : String} {read : ModuleReader} {bytes : List UInt8} {program : Value}
  (hpath : modulePath path = .ok file) (hread : read file = .ok bytes)
  (hparse : parse bytes = .ok program) (s : Store) (id : Nat)

include hpath hread hparse

theorem inlines_atMost (m : Nat) :
    Inlines file ((loadOf path).under read s id (.atMost (m + 1)))
      ((Request.eval program).under read s id (.atMost m)) := by
  have hparallel : Parallels DeeperRefusal (evalNode (contextAt read (Limit.atMost m).refusal m 0)
      program) (evalNode (contextAt read (Limit.atMost (m + 1)).refusal m 1) program) := by
    refine parallels_contextAt read (fun what => ?_) _
    rw [Nat.zero_add]
    exact .intro what m
  have h := inlines_of_parallel file (hparallel (s.scope id)) s id
  simp only [Request.under, Store.run]
  rw [run_loadOf hpath hread hparse rfl]
  exact h

/-- A load that is followed one level further than its program. -/
theorem under_loadOf_unlimited (n : Nat) :
    (loadOf path).under read s id (.unlimited (n + 1)) =
      (((Request.eval program).under read s id (.unlimited n)).1.inLoad file,
        ((Request.eval program).under read s id (.unlimited n)).2) := by
  have hparallel : Parallels Eq (evalNode (contextAt read (Limit.unlimited n).refusal n 0) program)
      (evalNode (contextAt read (Limit.unlimited (n + 1)).refusal n 1) program) :=
    parallels_contextAt read (fun _ => rfl) _
  simp only [Request.under, Store.run]
  rw [run_loadOf hpath hread hparse rfl, (hparallel (s.scope id)).eq]
  rfl

omit hpath hread hparse in
theorem inlines_inLoad (file : String) (q : Request) (l : Limit) :
    Inlines file ((q.under read s id l).1.inLoad file, (q.under read s id l).2)
      (q.under read s id l) :=
  inlines_of_parallel file (.same _) s id

theorem ends_loadOf_of_ends {k : Int} (hk : k ≤ 0) {ending : Outcome Value × Store}
    (h : Ends ((Request.eval program).under read s id) k ending) :
    Ends ((loadOf path).under read s id) k (ending.1.inLoad file, ending.2) := by
  rw [Ends, if_neg (Int.not_lt.2 hk)] at h ⊢
  obtain ⟨n, hn⟩ := h
  refine ⟨n + 1, fun m hm => ?_⟩
  obtain ⟨m, rfl⟩ := Nat.exists_eq_add_of_le' hm
  rw [← Nat.add_assoc, under_loadOf_unlimited hpath hread hparse, hn _ (Nat.le_add_left n m)]

theorem exists_ends_of_ends_loadOf {k : Int} (hk : k ≤ 0) {ending : Outcome Value × Store}
    (h : Ends ((loadOf path).under read s id) k ending) :
    ∃ alone, Ends ((Request.eval program).under read s id) k alone ∧
      ending = (alone.1.inLoad file, alone.2) := by
  rw [Ends, if_neg (Int.not_lt.2 hk)] at h
  obtain ⟨n, hn⟩ := h
  have hload : ∀ m, n ≤ m →
      (((Request.eval program).under read s id (.unlimited m)).1.inLoad file,
        ((Request.eval program).under read s id (.unlimited m)).2) = ending := by
    intro m hm
    rw [← under_loadOf_unlimited hpath hread hparse, hn (m + 1) (Nat.le_succ_of_le hm)]
  refine ⟨(Request.eval program).under read s id (.unlimited n), ?_, (hload n (Nat.le_refl n)).symm⟩
  rw [Ends, if_neg (Int.not_lt.2 hk)]
  refine ⟨n, fun m hm => ?_⟩
  have hsame := (hload m hm).trans (hload n (Nat.le_refl n)).symm
  rw [Prod.mk.injEq] at hsame
  exact Prod.ext (inLoad_injective hsame.1) hsame.2

omit hpath hread hparse in
/-- A run that ends is the run under some limit. -/
theorem Ends.exists_under {q : Request} {k : Int} {ending : Outcome Value × Store}
    (h : Ends (q.under read s id) k ending) : ∃ l, q.under read s id l = ending := by
  unfold Ends at h
  split at h
  · exact ⟨_, h⟩
  · obtain ⟨n, hn⟩ := h
    exact ⟨_, hn n (Nat.le_refl n)⟩

/-- Loading a module is evaluating its program in the same frame, one level deeper.  Under a limit
one higher the load ends as the program alone does, up to the depth that a refusal reports.  It
prints the same, leaves the same bindings, and its trace is the entry of the load followed by the
trace of the program, two spaces further to the right.  Without a limit one of them ends if the
other does, and then they compare in the same way. -/
theorem load_inlines :
    (∀ m : Int, 1 ≤ m →
        Inlines file ((loadOf path).under read s id (.ofInt (m + 1)))
          ((Request.eval program).under read s id (.ofInt m))) ∧
      ∀ k : Int, k ≤ 0 →
        (∀ alone, Ends ((Request.eval program).under read s id) k alone →
            ∃ loaded, Ends ((loadOf path).under read s id) k loaded ∧ Inlines file loaded alone) ∧
          ∀ loaded, Ends ((loadOf path).under read s id) k loaded →
            ∃ alone, Ends ((Request.eval program).under read s id) k alone ∧
              Inlines file loaded alone := by
  constructor
  · intro m hm
    obtain ⟨n, rfl⟩ := Int.eq_ofNat_of_zero_le (Int.le_of_lt hm)
    have hpos : (0 : Int) < n := hm
    rw [Limit.ofInt, Limit.ofInt, Limit.following_of_pos _ (by omega),
      Limit.following_of_pos _ hpos]
    exact inlines_atMost hpath hread hparse s id n
  · intro k hk
    constructor
    · intro alone halone
      refine ⟨_, ends_loadOf_of_ends hpath hread hparse s id hk halone, ?_⟩
      obtain ⟨l, rfl⟩ := halone.exists_under
      exact inlines_inLoad s id file _ l
    · intro loaded hloaded
      obtain ⟨alone, halone, rfl⟩ := exists_ends_of_ends_loadOf hpath hread hparse s id hk hloaded
      refine ⟨alone, halone, ?_⟩
      obtain ⟨l, rfl⟩ := halone.exists_under
      exact inlines_inLoad s id file _ l

end

/-- A module that prints, defines a lambda which calls itself, and calls it. -/
def callsForever : Value :=
  .list [.list [.keyword .print, .keyword .ifElse],
    .list [.keyword .define, .symbol "f", .list [.keyword .lambda, .list [], .list [.symbol "f"]]],
    .list [.symbol "f"]]

/-- The same as a text. -/
def callsForeverText : List UInt8 :=
  Text.bytesOf "((print if)(define f(lambda()(f)))(f))"

/-- Finds that module under every path. -/
def onlyCallsForever : ModuleReader :=
  fun _ => .ok callsForeverText

/-- The second call is refused, under a limit of two in the load and of one in the program alone. -/
theorem callsForever_inlined :
    let loaded := (loadOf "m").under onlyCallsForever (Store.new {}) 0 (.ofInt 2)
    let alone := (Request.eval callsForever).under onlyCallsForever (Store.new {}) 0 (.ofInt 1)
    Inlines "m.lisp" loaded alone ∧
      alone.1.result = .error (.recursionLimit "f" 1) ∧
      loaded.1.result = .error (.recursionLimit "f" 2) ∧
      outputOf (Activity.moments loaded.1.record) = "Conditional if\n" := by
  intro loaded alone
  have hpath : modulePath "m" = .ok "m.lisp" := rfl
  have hread : onlyCallsForever "m.lisp" = .ok callsForeverText := rfl
  have hparse : parse callsForeverText = .ok callsForever := rfl
  have hinlines : Inlines "m.lisp" loaded alone :=
    (load_inlines hpath hread hparse (Store.new {}) 0).1 1 (by decide)
  have hroom : (Limit.ofInt 2).room = 1 + 1 := rfl
  have hloaded : loaded.1 = _ := run_loadOf hpath hread hparse hroom _
  refine ⟨hinlines, rfl, ?_, hinlines.output.trans (by decide)⟩
  rw [hloaded]
  rfl

end SmallLisp
