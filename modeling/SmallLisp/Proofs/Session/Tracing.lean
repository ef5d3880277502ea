import Mathlib.Data.List.Forall2
import SmallLisp.Proofs.Session.Live
import SmallLisp.Proofs.Store.Steps

/-!
# Tracing has no effect

A logger changes nothing but what is written to it.  Two worlds are *alike* if they agree on the
frames of interest, on what was printed and on what was asked for, whatever their loggers.  Actions
keep them alike and end the same (`World.Alike.act`), since both act as one evaluation says, and an
evaluation knows of no logger.

What is written is known as well.  The entries of a run are those of the moments of its record, and
these are also what the run logs when it is followed step by step, where a moment is logged with the
number of calls and loads that are pending just then (`Config.step_logs`).
-/

namespace SmallLisp

open Config (Reaches)

/-! ## Worlds that differ in their loggers -/

/-- The worlds agree on the first `n` frames, on what was printed and on what was asked for, and no
call or load is active in either. -/
structure World.Alike (n : Nat) (w w' : World) : Prop where
  depth : w.depth = 0 ∧ w'.depth = 0
  linked : w.store.Linked ∧ w'.store.Linked
  size : n ≤ w.store.size ∧ n ≤ w'.store.size
  frames : ∀ j < n, w'.store.frame? j = w.store.frame? j
  output : w'.output = w.output
  asked : w'.asked = w.asked

namespace World

variable {n : Nat} {w w' : World}

theorem Alike.scope (h : w.Alike n w') {id : Nat} (hid : id < n) :
    w'.store.scope id = w.store.scope id := by
  obtain ⟨f, hf⟩ := Store.exists_frame? (Nat.lt_of_lt_of_le hid h.size.1)
  have hscope := Store.scope_eq h.linked.1 h.linked.2 hf ((h.frames id hid).trans hf) rfl
    fun k hk => h.frames k (Nat.lt_trans hk hid)
  rw [← Store.own_eq hf] at hscope
  exact hscope

/-- Doing the same in worlds that are alike ends the same and leaves them alike. -/
theorem Alike.act (h : w.Alike n w') (i : Interpreter) (q : Request) {id : Nat} (hid : id < n) :
    (q.act i id w').1 = (q.act i id w).1 ∧ (q.act i id w).2.Alike n (q.act i id w').2 := by
  have hacts := q.acts i h.depth.1 h.linked.1 (Nat.lt_of_lt_of_le hid h.size.1)
  have hacts' := q.acts i h.depth.2 h.linked.2 (Nat.lt_of_lt_of_le hid h.size.2)
  rw [h.scope hid] at hacts'
  refine ⟨hacts'.result.trans hacts.result.symm, ⟨hacts.depth, hacts'.depth⟩,
    ⟨hacts.linked, hacts'.linked⟩, ⟨h.size.1.trans hacts.size, h.size.2.trans hacts'.size⟩,
    fun j hj => ?_, ?_, ?_⟩
  · rw [hacts.frames j (Nat.lt_of_lt_of_le hj h.size.1),
      hacts'.frames j (Nat.lt_of_lt_of_le hj h.size.2), Store.frame?_setOwn, Store.frame?_setOwn,
      h.frames id hid, h.frames j hj]
  · rw [hacts.output, hacts'.output, h.output]
  · rw [hacts.asked, hacts'.asked, h.asked]

/-- Does one thing after the other, each in the frame given with it.  Listed are the results, each
with the world afterwards. -/
def calls (i : Interpreter) : List (Nat × Request) → World → List (Except Error Value × World)
  | [], _ => []
  | (id, q) :: rest, w => q.act i id w :: calls i rest (q.act i id w).2

theorem Alike.calls (h : w.Alike n w') (i : Interpreter) {inputs : List (Nat × Request)}
    (hids : ∀ input ∈ inputs, input.1 < n) :
    List.Forall₂ (fun e e' => e'.1 = e.1 ∧ e.2.Alike n e'.2) (calls i inputs w)
      (calls i inputs w') := by
  induction inputs generalizing w w' with
  | nil => exact .nil
  | cons input inputs ih =>
    obtain ⟨id, q⟩ := input
    obtain ⟨hid, hrest⟩ := List.forall_mem_cons.1 hids
    have hact := h.act i q hid
    exact .cons hact (ih hact.2 hrest)

end World

/-! ## Moments step by step -/

section

variable {read : ModuleReader} {limit : Limit} {c c' : Config}

/-- What a step logs is logged with the counter as it is after the step. -/
def Config.Logs (c c' : Config) : Prop :=
  ∃ new, c'.log = c.log ++ new ∧ ∀ x ∈ new, x.depth = c'.depth

theorem Config.logs_nothing (h : c'.log = c.log) : c.Logs c' :=
  ⟨[], h.trans (List.append_nil _).symm, nofun⟩

theorem Config.logs_event {e : Event} (h : c'.log = c.log ++ [⟨c'.depth, e⟩]) : c.Logs c' := by
  refine ⟨_, h, fun x hx => ?_⟩
  rw [List.mem_singleton.1 hx]

theorem Config.logs_proceed (c : Config) (call : Invocation) (next : Value → Script Value)
    (rest : List Pending) (params : List String) (args : List Value) :
    c.Logs (c.proceed call next rest params args) := by
  unfold proceed
  split
  · exact logs_nothing rfl
  · exact logs_event rfl

theorem Config.step_logs (h : c.step read limit = some c') : c.Logs c' := by
  obtain ⟨frame, script, pending, store, depth, log⟩ := c
  cases script with
  | done v =>
    cases pending with
    | nil => cases h
    | cons p rest =>
      cases p with
      | argument call param params left next =>
        cases h
        exact logs_proceed _ call next rest params left
      | inside caller next =>
        cases h
        exact logs_nothing rfl
  | fail e =>
    cases pending with
    | nil => cases h
    | cons p rest =>
      cases h
      exact logs_nothing rfl
  | lookup name next =>
    cases h
    exact logs_nothing rfl
  | define name value next =>
    cases h
    exact logs_event rfl
  | print text next =>
    cases h
    exact logs_event rfl
  | call name params body args next =>
    simp only [step, enterCall, Option.some.injEq] at h
    subst h
    split
    · exact logs_nothing rfl
    · split
      · exact logs_nothing rfl
      · exact logs_proceed _ _ next pending params args
  | load path next =>
    simp only [step, enterLoad, Option.some.injEq] at h
    subst h
    split
    · exact logs_nothing rfl
    · split
      · exact logs_nothing rfl
      · exact logs_event rfl

/-- In a run that starts with no call or load active, a moment is logged with the number of those
that are pending just then. -/
theorem Config.depth_of_logged {q : Request} {id : Nat} {s : Store}
    (hreach : Reaches read limit (q.start id s 0) c) (h : c.step read limit = some c') :
    ∃ new, c'.log = c.log ++ new ∧ ∀ x ∈ new, x.depth = c'.pending.length := by
  obtain ⟨new, hlog, hdepth⟩ := step_logs h
  have hcounts := ((q.counts_start limit id s 0).reaches hreach).step h
  refine ⟨new, hlog, fun x hx => ?_⟩
  rw [hdepth x hx, hcounts.depth, Nat.zero_add]

end

/-- A run that is followed step by step to its end logs what evaluation records. -/
theorem Request.exists_logged (i : Interpreter) (q : Request) {s : Store} (hs : s.Linked) {id : Nat}
    (hid : id < s.size) (hend : ¬ i.limit.GivesUp (q.run i (s.scope id)).result) :
    ∃ c, Reaches i.read i.limit (q.start id s 0) c ∧ c.Returns (q.run i (s.scope id)).result ∧
      c.log = Activity.moments (q.run i (s.scope id)).record := by
  rw [← q.runFrom_zero i] at hend ⊢
  obtain ⟨e, hfollows, hreach⟩ := q.exists_returns i 0 hs hid hend
  refine ⟨_, hreach, ⟨rfl, ?_⟩, ?_⟩
  · rw [hfollows.result]
  · rw [hfollows.record]
    rfl

/-- An entry is indented by two spaces for each active call or load. -/
theorem Moment.line?_eq (label : String) {m : Moment} {text : String}
    (h : m.event.traceText? = some text) (hwide : 2 * m.depth ≤ widestIndent) :
    m.line? label =
      some (label ++ endLine (String.ofList (List.replicate (2 * m.depth) ' ') ++ text)) := by
  rw [line?, h, traceIndent, if_pos hwide]
  rfl

/-! ## Non-interference -/

/-- Tracing does not interfere.  Runs in frames with the same bindings give the same results, print
the same and leave the same bindings, whatever loggers there are, and so do sessions.  All act as
evaluation says, which knows of no logger.  A logger gets the entries of what happens, each indented
by twice the number of calls and loads that are pending when it is logged, and put together they are
the trace. -/
theorem tracing_noninterference (i : Interpreter) :
    (∀ (n : Nat) (inputs : List (Nat × Request)) (w w' : World), w.Alike n w' →
        (∀ input ∈ inputs, input.1 < n) →
        List.Forall₂ (fun e e' => e'.1 = e.1 ∧ e.2.Alike n e'.2) (w.calls i inputs)
          (w'.calls i inputs)) ∧
      (∀ (prompt : String) (inputs : List Input) (logger logger' : Option Logger),
        let s := (Session.start i prompt).serve inputs
        let t := (LiveSession.start i prompt logger).serve inputs
        let t' := (LiveSession.start i prompt logger').serve inputs
        t'.1 = t.1 ∧ (∀ name, t'.2.get? name = t.2.get? name) ∧
          t'.2.world.store.own t'.2.user = t.2.world.store.own t.2.user ∧
          t'.2.world.store.own t'.2.base = t.2.world.store.own t.2.base ∧
          t.1 = s.1.map Reply.quiet ∧
          t.2.world.logger = logger.map (·.record (happened s.1))) ∧
      (∀ (q : Request) (w : World) (id : Nat), w.depth = 0 → w.store.Linked → id < w.store.size →
        let o := q.run i (w.store.scope id)
        Acts w id o (q.act i id w) ∧
          (¬ i.limit.GivesUp o.result →
            ∃ c, Reaches i.read i.limit (q.start id w.store 0) c ∧ c.Returns o.result ∧
              c.log = Activity.moments o.record)) ∧
      (∀ (q : Request) (s : Store) (id : Nat) (c c' : Config),
        Reaches i.read i.limit (q.start id s 0) c → c.step i.read i.limit = some c' →
          ∃ new, c'.log = c.log ++ new ∧ ∀ x ∈ new, x.depth = c'.pending.length) ∧
      (∀ (label : String) (m : Moment) (text : String), m.event.traceText? = some text →
        2 * m.depth ≤ widestIndent →
          m.line? label =
            some (label ++ endLine (String.ofList (List.replicate (2 * m.depth) ' ') ++ text))) ∧
      ∀ (label : String) (ms : List Moment),
        traceOf label ms = (Logger.record ⟨label, []⟩ ms).entries.foldl (· ++ ·) "" := by
  refine ⟨fun n inputs w w' h hids => h.calls i hids, fun prompt inputs logger logger' => ?_,
    fun q w id hdepth hlinked hid =>
      ⟨q.acts i hdepth hlinked hid, fun hend => q.exists_logged i hlinked hid hend⟩,
    fun q s id c c' hreach hstep => Config.depth_of_logged hreach hstep,
    fun label m text htext hwide => Moment.line?_eq label htext hwide, traceOf_eq⟩
  intro s t t'
  obtain ⟨hreplies, hlives⟩ := LiveSession.serve_start i prompt logger inputs
  obtain ⟨hreplies', hlives'⟩ := LiveSession.serve_start i prompt logger' inputs
  refine ⟨hreplies'.trans hreplies.symm, fun name => ?_, ?_, ?_, hreplies, hlives.logger⟩
  · exact (hlives'.shares.get? name).trans (hlives.shares.get? name).symm
  · exact (Store.own_eq hlives'.shares.user).trans (Store.own_eq hlives.shares.user).symm
  · exact (Store.own_eq hlives'.shares.base).trans (Store.own_eq hlives.shares.base).symm

/-- A frame that binds a lambda, and a logger. -/
def traced : World where
  store := (Store.new {}).set 0 "f" (.lambda [] [.keyword .define, .symbol "y", .bool true])
  logger := some ⟨"- ", []⟩

/-- Calls the lambda, and then looks up what its body has defined. -/
def callThenLookup : List (Nat × Request) :=
  [(0, .eval (.list [.symbol "f"])), (0, .eval (.symbol "y"))]

/-- Without the logger the lookup fails in the same way.  Both entries are made while the call is
pending. -/
theorem callThenLookup_traced :
    let i : Interpreter := ⟨.atMost 1, fun _ => .error "no such file"⟩
    let untraced : World := { traced with logger := none }
    traced.Alike 1 untraced ∧
      List.Forall₂ (fun e e' => e'.1 = e.1 ∧ e.2.Alike 1 e'.2) (traced.calls i callThenLookup)
        (untraced.calls i callThenLookup) ∧
      (traced.calls i callThenLookup).map Prod.fst =
        [.ok .void, .error (.unbound "y")] ∧
      (traced.calls i callThenLookup).map (fun e => e.2.logger.map Logger.entries) =
        [some ["-   call f ()\n", "-   define y true\n"],
          some ["-   call f ()\n", "-   define y true\n"]] ∧
      ∃ c, Reaches i.read i.limit ((Request.eval (.list [.symbol "f"])).start 0 traced.store 0) c ∧
        c.Returns (.ok .void) ∧ c.log.map Moment.depth = [1, 1] := by
  intro i untraced
  have hlinked : traced.store.Linked :=
    Store.linked_setOwn (Store.linked_new Store.linked_empty) 0 _
  have halike : traced.Alike 1 untraced :=
    ⟨⟨rfl, rfl⟩, ⟨hlinked, hlinked⟩, ⟨by decide, by decide⟩, fun _ _ => rfl, rfl, rfl⟩
  have hids : ∀ input ∈ callThenLookup, input.1 < 1 := by
    intro input hmem
    simp only [callThenLookup, List.mem_cons, List.not_mem_nil, or_false] at hmem
    rcases hmem with rfl | rfl
    · decide
    · decide
  obtain ⟨hcalls, -, hentries, -⟩ := tracing_noninterference i
  obtain ⟨-, hsteps⟩ := hentries (.eval (.list [.symbol "f"])) traced 0 rfl hlinked (by decide)
  obtain ⟨c, hreach, hreturns, hlog⟩ := hsteps (Limit.not_givesUp_atMost 1 _)
  refine ⟨halike, hcalls 1 _ _ _ halike hids, rfl, rfl, c, hreach, hreturns, ?_⟩
  rw [hlog]
  rfl

end SmallLisp
