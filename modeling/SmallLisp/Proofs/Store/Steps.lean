import Mathlib.Logic.Relation
import SmallLisp.Proofs.Event
import SmallLisp.Proofs.Store.Machine

/-!
# Runs step by step

A run can be followed from one state to the next.  A *configuration* holds the script that is being
carried out and the frame that it is carried out in, the frames, the counter of active calls and
loads, the log, and the calls and loads that have been entered and not been left, the innermost
first.  Each step answers one request, or hands a value or an error back to what is *pending*.
Entering compares the counter with the limit and counts up.  Whatever the inside comes to, handing
it back counts down, so an error leaves one call or load after the other.

The counter is above where it started by the number of what is pending (`Counts`), whatever happens
in between, and it goes up only below the limit.

`Carries` says that the steps of a script do what a process does, with anything pending around it.
It holds of every script on every level (`Script.carries`), so the steps of a run end where
evaluation ends (`Request.exists_returns`).
-/

namespace SmallLisp

/-! ## Steps -/

/-- A call that has been entered. -/
structure Invocation where
  name : String
  args : List Value
  body : List Value
  caller : Nat
  /-- The frame of the call. -/
  callee : Nat

/-- A call or a load that has been entered, with what follows its value. -/
inductive Pending where
  /-- An argument of a call is evaluated, which will be bound to `param`; then come `left`. -/
  | argument (call : Invocation) (param : String) (params : List String) (left : List Value)
      (next : Value → Script Value)
  /-- The body of a call or a module is evaluated. -/
  | inside (caller : Nat) (next : Value → Script Value)

/-- The frame to go on in. -/
def Pending.caller : Pending → Nat
  | argument call _ _ _ _ => call.caller
  | inside caller _ => caller

/-- A state of a run. -/
structure Config where
  frame : Nat
  script : Script Value
  pending : List Pending
  store : Store
  depth : Nat
  log : List Moment

/-- The script of a module. -/
def moduleScript (read : ModuleReader) (file : String) : Script Value :=
  match read file with
  | .error reason => .fail (.moduleNotFound file reason)
  | .ok bytes =>
    match parse bytes with
    | .error e => .fail (.read e)
    | .ok program => .ofValue program

namespace Config

/-- Goes on with a call: to the next argument, or to the body if all are bound. -/
def proceed (c : Config) (call : Invocation) (next : Value → Script Value) (rest : List Pending) :
    List String → List Value → Config
  | param :: params, arg :: left =>
    { c with
      frame := call.caller
      script := .ofValue arg
      pending := .argument call param params left next :: rest }
  | _, _ =>
    { c with
      frame := call.callee
      script := .ofValue (.list call.body)
      pending := .inside call.caller next :: rest
      log := c.log ++ [⟨c.depth, .called call.name call.args (c.store.own call.callee)⟩] }

/-- Hands a value back. -/
def handBack (c : Config) (v : Value) : List Pending → Option Config
  | [] => none
  | .argument call param params left next :: rest =>
    some (proceed { c with store := c.store.set call.callee param v } call next rest params left)
  | .inside caller next :: rest =>
    some { c with frame := caller, script := next v, pending := rest, depth := c.depth - 1 }

/-- Leaves the innermost call or load with the error at hand. -/
def unwind (c : Config) : List Pending → Option Config
  | [] => none
  | p :: rest => some { c with frame := p.caller, pending := rest, depth := c.depth - 1 }

/-- Enters a call. -/
def enterCall (c : Config) (limit : Limit) (name : String) (params : List String)
    (body args : List Value) (next : Value → Script Value) : Config :=
  if args.length ≠ params.length then
    { c with script := .fail (.arity name params.length args.length) }
  else if limit.stops c.depth then { c with script := .fail (.recursionLimit name c.depth) }
  else
    proceed { c with store := c.store.clone c.frame, depth := c.depth + 1 }
      ⟨name, args, body, c.frame, c.store.size⟩ next c.pending params args

/-- Enters a load. -/
def enterLoad (c : Config) (read : ModuleReader) (limit : Limit) (path : String)
    (next : Value → Script Value) : Config :=
  match modulePath path with
  | .error e => { c with script := .fail e }
  | .ok file =>
    if limit.stops c.depth then
      { c with script := .fail (.recursionLimit ("load " ++ file) c.depth) }
    else
      { c with
        script := moduleScript read file
        pending := .inside c.frame next :: c.pending
        depth := c.depth + 1
        log := c.log ++ [⟨c.depth + 1, .loading file⟩] }

/-- The next state, if the run has not ended. -/
def step (read : ModuleReader) (limit : Limit) (c : Config) : Option Config :=
  match c.script with
  | .done v => c.handBack v c.pending
  | .fail _ => c.unwind c.pending
  | .lookup name next =>
    some
      { c with
        script :=
          match c.store.get? c.frame name with
          | some v => next v
          | none => .fail (.unbound name) }
  | .define name value next =>
    some
      { c with
        script := next
        store := c.store.set c.frame name value
        log := c.log ++ [⟨c.depth, .defined name value⟩] }
  | .print text next =>
    some { c with script := next, log := c.log ++ [⟨c.depth, .printed (text ++ "\n")⟩] }
  | .call name params body args next => some (c.enterCall limit name params body args next)
  | .load path next => some (c.enterLoad read limit path next)

/-- One state leads to the other in some number of steps. -/
def Reaches (read : ModuleReader) (limit : Limit) : Config → Config → Prop :=
  Relation.ReflTransGen fun c c' => c.step read limit = some c'

/-- The run has ended in this way. -/
def Returns (c : Config) (result : Except Error Value) : Prop :=
  c.pending = [] ∧ c.script = .ofExcept result

end Config

/-- The state in which doing what is asked starts, in a frame and with a counter as given. -/
def Request.start (q : Request) (id : Nat) (s : Store) (depth : Nat) : Config :=
  ⟨id, q.script, [], s, depth, []⟩

open Config (Reaches)

/-! ## The counter -/

section

variable {read : ModuleReader} {limit : Limit} {c c' : Config} {d : Nat}

/-- What a step does to the counter.  It leaves the counter and the number of what is pending alone,
or it enters a call or load where the limit allows it, or it leaves one.  An event is logged with
the counter as it is then. -/
structure Config.Moves (limit : Limit) (c c' : Config) : Prop where
  counter : (c'.depth = c.depth ∧ c'.pending.length = c.pending.length) ∨
    (limit.stops c.depth = false ∧ c'.depth = c.depth + 1 ∧
      c'.pending.length = c.pending.length + 1) ∨
    (c'.depth = c.depth - 1 ∧ c.pending.length = c'.pending.length + 1)
  logged : ∀ x ∈ c'.log, x ∈ c.log ∨ x.depth = c'.depth

theorem mem_or_depth_of_append {log : List Moment} {m x : Moment} (h : x ∈ log ++ [m]) :
    x ∈ log ∨ x.depth = m.depth := by
  rcases List.mem_append.1 h with h | h
  · exact .inl h
  · exact .inr (congrArg _ (List.mem_singleton.1 h))

theorem Config.proceed_moves (c : Config) (call : Invocation) (next : Value → Script Value)
    (rest : List Pending) (params : List String) (args : List Value) :
    (c.proceed call next rest params args).depth = c.depth ∧
      (c.proceed call next rest params args).pending.length = rest.length + 1 ∧
      ∀ x ∈ (c.proceed call next rest params args).log,
        x ∈ c.log ∨ x.depth = (c.proceed call next rest params args).depth := by
  unfold proceed
  split
  · exact ⟨rfl, rfl, fun x => .inl⟩
  · exact ⟨rfl, rfl, fun x => mem_or_depth_of_append⟩

theorem Config.step_moves (h : c.step read limit = some c') : c.Moves limit c' := by
  obtain ⟨frame, script, pending, store, depth, log⟩ := c
  cases script with
  | done v =>
    cases pending with
    | nil => cases h
    | cons p rest =>
      cases p with
      | argument call param params left next =>
        cases h
        obtain ⟨hdepth, hpending, hlog⟩ := proceed_moves _ call next rest params left
        exact ⟨.inl ⟨hdepth, hpending⟩, hlog⟩
      | inside caller next =>
        cases h
        exact ⟨.inr (.inr ⟨rfl, rfl⟩), fun x => .inl⟩
  | fail e =>
    cases pending with
    | nil => cases h
    | cons p rest =>
      cases h
      exact ⟨.inr (.inr ⟨rfl, rfl⟩), fun x => .inl⟩
  | lookup name next =>
    cases h
    exact ⟨.inl ⟨rfl, rfl⟩, fun x => .inl⟩
  | define name value next =>
    cases h
    exact ⟨.inl ⟨rfl, rfl⟩, fun x => mem_or_depth_of_append⟩
  | print text next =>
    cases h
    exact ⟨.inl ⟨rfl, rfl⟩, fun x => mem_or_depth_of_append⟩
  | call name params body args next =>
    simp only [step, enterCall, Option.some.injEq] at h
    subst h
    split
    · exact ⟨.inl ⟨rfl, rfl⟩, fun x => .inl⟩
    · split
      · exact ⟨.inl ⟨rfl, rfl⟩, fun x => .inl⟩
      · next hl =>
        obtain ⟨hdepth, hpending, hlog⟩ := proceed_moves _ _ next pending params args
        exact ⟨.inr (.inl ⟨by simpa using hl, hdepth, hpending⟩), hlog⟩
  | load path next =>
    simp only [step, enterLoad, Option.some.injEq] at h
    subst h
    split
    · exact ⟨.inl ⟨rfl, rfl⟩, fun x => .inl⟩
    · split
      · exact ⟨.inl ⟨rfl, rfl⟩, fun x => .inl⟩
      · next hl =>
        exact ⟨.inr (.inl ⟨by simpa using hl, rfl, rfl⟩), fun x => mem_or_depth_of_append⟩

/-- Where the counter may be in a run that starts with it at `d`: not below, and not above the limit
unless it is there from the start. -/
structure Limit.Allows (limit : Limit) (d depth : Nat) : Prop where
  start : d ≤ depth
  bound : ∀ n, limit = .atMost n → d ≤ n → depth ≤ n

/-- The counter is above `d` by the number of calls and loads that have not been left, and is and
was where it may be. -/
structure Config.Counts (limit : Limit) (d : Nat) (c : Config) : Prop where
  depth : c.depth = d + c.pending.length
  allowed : limit.Allows d c.depth
  logged : ∀ x ∈ c.log, limit.Allows d x.depth

theorem Config.Counts.step (hc : c.Counts limit d) (h : c.step read limit = some c') :
    c'.Counts limit d := by
  obtain ⟨hdepth, ⟨hstart, hbound⟩, hlogged⟩ := hc
  obtain ⟨hcounter, hlog⟩ := step_moves h
  have hdepth' : c'.depth = d + c'.pending.length := by omega
  have hallowed : limit.Allows d c'.depth := by
    refine ⟨by omega, fun n hn hd => ?_⟩
    have hle := hbound n hn hd
    rcases hcounter with ⟨hsame, -⟩ | ⟨hl, hup, -⟩ | ⟨hdown, -⟩
    · omega
    · subst hn
      simp only [Limit.stops, decide_eq_false_iff_not] at hl
      omega
    · omega
  refine ⟨hdepth', hallowed, fun x hx => ?_⟩
  rcases hlog x hx with hold | hnew
  · exact hlogged x hold
  · rw [hnew]
    exact hallowed

theorem Config.Counts.reaches (hc : c.Counts limit d) (h : Reaches read limit c c') :
    c'.Counts limit d := by
  induction h with
  | refl => exact hc
  | tail _ hstep ih => exact ih.step hstep

end

/-! ## Steps and processes -/

/-- The run is not followed to its end, which happens only without a limit. -/
def Limit.GivesUp {α : Type} (limit : Limit) (result : Except Error α) : Prop :=
  (∃ followed, limit = .unlimited followed) ∧ ∃ what, result = .error (.exhausted what)

theorem Limit.GivesUp.of_error {α β : Type} {limit : Limit} {e : Error}
    (h : limit.GivesUp (.error e : Except Error α)) :
    limit.GivesUp (.error e : Except Error β) := by
  obtain ⟨hlimit, what, he⟩ := h
  cases he
  exact ⟨hlimit, what, rfl⟩

theorem Limit.not_givesUp_ok {α : Type} {limit : Limit} (a : α) : ¬ limit.GivesUp (.ok a) := by
  rintro ⟨-, what, he⟩
  cases he

theorem Limit.not_givesUp_atMost {α : Type} (n : Nat) (result : Except Error α) :
    ¬ (atMost n).GivesUp result := by
  rintro ⟨⟨followed, hlimit⟩, -⟩
  cases hlimit

theorem Script.ofExcept_bind_done {α : Type} (result : Except Error α) :
    (ofExcept result).bind done = ofExcept result := by
  cases result <;> rfl

section

variable {α β : Type} {read : ModuleReader} {limit : Limit} {d : Nat}

/-- With the counter at `d`, the steps of the script do what the process does and then go on with
`next`.  What is pending around the script is not touched. -/
def Carries (read : ModuleReader) (limit : Limit) (d : Nat) (p : Process α) (x : Script Value)
    (next : α → Script Value) : Prop :=
  ∀ id s rest log,
    limit.GivesUp (p id s).result ∨
      Reaches read limit ⟨id, x, rest, s, d, log⟩
        ⟨id, (Script.ofExcept (p id s).result).bind next, rest, (p id s).store, d,
          log ++ Activity.momentsAt d (p id s).record⟩

theorem Carries.bind {p : Process α} {f : α → Process β} {x : Script Value}
    {next : α → Script Value} {next' : β → Script Value} (hp : Carries read limit d p x next)
    (hf : ∀ a, Carries read limit d (f a) (next a) next') :
    Carries read limit d (p >>= f) x next' := by
  intro id s rest log
  have hfirst := hp id s rest log
  rcases he : p id s with ⟨result, t, record⟩
  rw [he] at hfirst
  cases result with
  | error e =>
    rw [Process.bind_of_error he]
    exact hfirst.imp_left Limit.GivesUp.of_error
  | ok a =>
    rw [Process.bind_of_ok he, Activity.momentsAt_append, ← List.append_assoc]
    have hreach := hfirst.resolve_left (Limit.not_givesUp_ok a)
    exact (hf a id t rest _).imp_right hreach.trans

theorem carries_of_step {p : Process α} {x : Script Value} {next : α → Script Value}
    (h : ∀ id s rest log, Config.step read limit ⟨id, x, rest, s, d, log⟩ =
      some ⟨id, (Script.ofExcept (p id s).result).bind next, rest, (p id s).store, d,
        log ++ Activity.momentsAt d (p id s).record⟩) :
    Carries read limit d p x next :=
  fun id s rest log => .inr (.single (h id s rest log))

theorem carries_fail_of_step {e : Error} {x : Script Value} {next : α → Script Value}
    (h : ∀ id s rest log, Config.step read limit ⟨id, x, rest, s, d, log⟩ =
      some ⟨id, .fail e, rest, s, d, log⟩) :
    Carries read limit d (.fail e) x next := by
  refine carries_of_step fun id s rest log => ?_
  simp [h, Process.fail, Script.ofExcept, Script.bind]

theorem carries_ofExcept (result : Except Error Value) :
    Carries read limit d (fun _ s => ⟨result, s, []⟩) (.ofExcept result) .done := by
  intro id s rest log
  simp only [Script.ofExcept_bind_done, Activity.momentsAt_nil, List.append_nil]
  exact .inr .refl

theorem carries_lookup (name : String) (next : Value → Script Value) :
    Carries read limit d (.lookup name) (.lookup name next) next := by
  refine carries_of_step fun id s rest log => ?_
  cases h : s.get? id name with
  | some v => simp [Config.step, Process.lookup, h, Script.ofExcept, Script.bind]
  | none => simp [Config.step, Process.lookup, h, Script.ofExcept, Script.bind]

/-- Once the inside of a call or load has come to something, the caller goes on with it, and the
counter is back. -/
theorem Carries.leave {p : Process Value} {x : Script Value}
    (h : Carries read limit (d + 1) p x .done) (id caller : Nat) (s : Store)
    (next : Value → Script Value) (rest : List Pending) (log : List Moment) :
    limit.GivesUp (p id s).result ∨
      Reaches read limit ⟨id, x, .inside caller next :: rest, s, d + 1, log⟩
        ⟨caller, (Script.ofExcept (p id s).result).bind next, rest, (p id s).store, d,
          log ++ Activity.momentsAt (d + 1) (p id s).record⟩ := by
  refine (h id s (.inside caller next :: rest) log).imp_right fun hreach => hreach.tail ?_
  cases (p id s).result with
  | error e => rfl
  | ok v => rfl

/-! ## Calls and loads -/

/-- What a call does in its frame once its arguments are bound. -/
def Invocation.finish (call : Invocation) (run : Value → Process Value) (callee : Nat) :
    Process Value := do
  Carrier.called call.name call.args callee
  Carrier.inFrame callee (run (.list call.body))

theorem bindParam_bind (callee : Nat) (param : String) (v : Value) (f : Nat → Process α) (id : Nat)
    (s : Store) :
    (Carrier.bindParam callee param v >>= f) id s = f callee id (s.set callee param v) := rfl

/-- A call that has been entered is left in the end: with the error of its first argument that
fails, or with what its body comes to. -/
theorem reaches_proceed {run : Value → Process Value}
    (hrun : ∀ v, Carries read limit (d + 1) (run v) (.ofValue v) .done) (call : Invocation)
    (next : Value → Script Value) (rest : List Pending) (params : List String) (args : List Value)
    (hlen : args.length = params.length) (c : Config) (hd : c.depth = d + 1) {e : Ending Value}
    (he : bindArgs run (call.finish run) call.callee params args call.caller c.store = e) :
    limit.GivesUp e.result ∨
      Reaches read limit (c.proceed call next rest params args)
        ⟨call.caller, (Script.ofExcept e.result).bind next, rest, e.store, d,
          c.log ++ Activity.momentsAt (d + 1) e.record⟩ := by
  obtain ⟨frame, script, pending, store, depth, log⟩ := c
  subst hd he
  induction params generalizing args frame script pending store log with
  | nil =>
    obtain rfl := List.eq_nil_of_length_eq_zero hlen
    have hbody := (hrun (.list call.body)).leave call.callee call.caller store next rest
      (log ++ [⟨d + 1, .called call.name call.args (store.own call.callee)⟩])
    rw [List.append_assoc] at hbody
    exact hbody
  | cons param params ih =>
    cases args with
    | nil => cases hlen
    | cons arg args =>
      have harg := hrun arg call.caller store (.argument call param params args next :: rest) log
      rw [bindArgs]
      rcases hv : run arg call.caller store with ⟨result, t, record⟩
      rw [hv] at harg
      cases result with
      | error e =>
        rw [Process.bind_of_error hv]
        exact harg.imp_right fun hreach => hreach.tail rfl
      | ok v =>
        rw [Process.bind_of_ok hv, bindParam_bind, Activity.momentsAt_append, ← List.append_assoc]
        have hreach := harg.resolve_left (Limit.not_givesUp_ok v)
        have hrest := ih args (Nat.succ.inj hlen) call.caller (.done v)
          (.argument call param params args next :: rest) (t.set call.callee param v)
          (log ++ Activity.momentsAt (d + 1) record)
        exact hrest.imp_right fun hlater => hreach.trans (.head rfl hlater)

/-- With the counter at `d` the steps do with calls and loads what the level does. -/
inductive Supports (read : ModuleReader) (limit : Limit) (d : Nat) : Level Process → Prop where
  | stopped (hl : limit.stops d = true) :
      Supports read limit d ⟨read, fun what _ => .fail (.recursionLimit what d)⟩
  | exhausted {followed : Nat} (hl : limit = .unlimited followed) :
      Supports read limit d ⟨read, fun what _ => .fail (.exhausted what)⟩
  | running (hl : limit.stops d = false) {run : Value → Process Value}
      (h : ∀ v, Carries read limit (d + 1) (run v) (.ofValue v) .done) :
      Supports read limit d ⟨read, fun _ body => .nested (body run)⟩

theorem Supports.call {l : Level Process} (h : Supports read limit d l) (name : String)
    (params : List String) (body args : List Value) (next : Value → Script Value) :
    Carries read limit d (l.call name params body args) (.call name params body args next)
      next := by
  unfold Level.call
  by_cases hlen : args.length ≠ params.length
  · rw [if_pos hlen]
    exact carries_fail_of_step fun id s rest log => by simp [Config.step, Config.enterCall, hlen]
  · rw [if_neg hlen]
    cases h with
    | stopped hl =>
      refine carries_fail_of_step fun id s rest log => ?_
      simp [Config.step, Config.enterCall, hlen, hl]
    | exhausted hl => exact fun id s rest log => .inl ⟨⟨_, hl⟩, name, rfl⟩
    | running hl hrun =>
      intro id s rest log
      have hcall := reaches_proceed hrun ⟨name, args, body, id, s.size⟩ next rest params args
        (Decidable.not_not.1 hlen) ⟨id, .call name params body args next, rest, s.clone id, d + 1,
          log⟩ rfl rfl
      refine hcall.imp_right fun hreach => .head ?_ hreach
      simp [Config.step, Config.enterCall, hlen, hl]

/-- What a load does once it has been entered. -/
theorem carries_module {run : Value → Process Value}
    (hrun : ∀ v, Carries read limit d (run v) (.ofValue v) .done) (file : String) :
    Carries read limit d
      (match read file with
      | .error reason => Carrier.fail (.moduleNotFound file reason)
      | .ok bytes =>
        match parse bytes with
        | .error e => Carrier.fail (.read e)
        | .ok program => run program)
      (moduleScript read file) .done := by
  unfold moduleScript
  cases read file with
  | error reason => exact carries_ofExcept (.error _)
  | ok bytes =>
    dsimp only
    cases parse bytes with
    | error e => exact carries_ofExcept (.error _)
    | ok program => exact hrun program

theorem Supports.read_eq {l : Level Process} (h : Supports read limit d l) : l.read = read := by
  cases h <;> rfl

theorem Supports.load {l : Level Process} (h : Supports read limit d l) (path : String)
    (next : Value → Script Value) :
    Carries read limit d (l.load path) (.load path next) next := by
  unfold Level.load
  rw [h.read_eq]
  cases hpath : modulePath path with
  | error e =>
    exact carries_fail_of_step fun id s rest log => by simp [Config.step, Config.enterLoad, hpath]
  | ok file =>
    cases h with
    | stopped hl =>
      refine carries_fail_of_step fun id s rest log => ?_
      simp [Config.step, Config.enterLoad, hpath, hl]
    | exhausted hl => exact fun id s rest log => .inl ⟨⟨_, hl⟩, "load " ++ file, rfl⟩
    | running hl hrun =>
      intro id s rest log
      have hinside := (carries_module hrun file).leave id id s next rest
        (log ++ [⟨d + 1, .loading file⟩])
      rw [List.append_assoc] at hinside
      refine hinside.imp_right fun hreach => .head ?_ hreach
      simp [Config.step, Config.enterLoad, hpath, hl]

/-- Every script is carried out by its steps. -/
theorem Script.carries {l : Level Process} (h : Supports read limit d l) (x : Script Value) :
    Carries read limit d (x.run l) x .done := by
  induction x with
  | done v => exact carries_ofExcept (.ok v)
  | fail e => exact carries_ofExcept (.error e)
  | lookup name next ih => exact (carries_lookup name next).bind ih
  | define name value next ih =>
    have hdefine : Carries read limit d (.define name value) (.define name value next)
        fun _ => next := carries_of_step fun _ _ _ _ => rfl
    exact hdefine.bind fun _ => ih
  | print text next ih =>
    have hprint : Carries read limit d (.note (.printed (text ++ "\n"))) (.print text next)
        fun _ => next := carries_of_step fun _ _ _ _ => rfl
    exact hprint.bind fun _ => ih
  | call name params body args next ih => exact (h.call name params body args next).bind ih
  | load path next ih => exact (h.load path next).bind ih

end

/-- How many further calls and loads are allowed, or followed, with this many active. -/
def Limit.left : Limit → Nat → Nat
  | atMost n, depth => n - depth
  | unlimited followed, _ => followed

theorem supports_levelAt (read : ModuleReader) (limit : Limit) :
    ∀ room d, (∀ n, limit = .atMost n → room = n - d) →
      Supports read limit d (levelAt read limit.refusal room d)
  | 0, d, h => by
    cases limit with
    | atMost n =>
      have hroom := h n rfl
      refine .stopped ?_
      simp only [Limit.stops, decide_eq_true_eq]
      omega
    | unlimited followed => exact .exhausted rfl
  | room + 1, d, h => by
    refine .running ?_ fun v => Script.carries (supports_levelAt read limit room (d + 1) ?_) _
    · cases limit with
      | atMost n =>
        have hroom := h n rfl
        simp only [Limit.stops, decide_eq_false_iff_not]
        omega
      | unlimited followed => rfl
    · intro n hn
      have hroom := h n hn
      omega

/-! ## Requests -/

/-- Does what is asked with this many calls and loads active. -/
def Request.runFrom (i : Interpreter) (depth : Nat) (q : Request) : Evaluation Value :=
  q.script.run (contextAt i.read i.limit.refusal (i.limit.left depth) depth)

theorem Request.runFrom_zero (i : Interpreter) (q : Request) : q.runFrom i 0 = q.run i := by
  have hleft : i.limit.left 0 = i.limit.room := by cases i.limit <;> rfl
  rw [runFrom, hleft, Request.run_eq]
  rfl

/-- A run that evaluation follows to its end ends in the same way. -/
theorem Request.exists_returns (i : Interpreter) (q : Request) (d : Nat) {s : Store}
    (hs : s.Linked) {id : Nat} (hid : id < s.size)
    (hend : ¬ i.limit.GivesUp (q.runFrom i d (s.scope id)).result) :
    ∃ e : Ending Value, Follows s id (q.runFrom i d (s.scope id)) e ∧
      Reaches i.read i.limit (q.start id s d)
        ⟨id, .ofExcept e.result, [], e.store, d, Activity.momentsAt d e.record⟩ := by
  have hroom : ∀ n, i.limit = .atMost n → i.limit.left d = n - d := by
    rintro n hn
    rw [hn]
    rfl
  have hfollows :=
    Script.realizes i.read i.limit.refusal (i.limit.left d) d q.script s id hs hid
  have hsteps := Script.carries (supports_levelAt i.read i.limit _ d hroom) q.script id s [] []
  refine ⟨_, hfollows, ?_⟩
  rw [hfollows.result] at hsteps ⊢
  have hreach := hsteps.resolve_left hend
  rwa [Script.ofExcept_bind_done] at hreach

/-- Inputs are run one after the other, each in the frame given with it, from the frames and the
counter that the one before left. -/
inductive Served (read : ModuleReader) (limit : Limit) :
    List (Nat × Request) → Store → Nat → Store → Nat → Prop where
  | nil (s : Store) (d : Nat) : Served read limit [] s d s d
  | cons {id : Nat} {q : Request} {inputs : List (Nat × Request)} {s t : Store} {d d' : Nat}
      {c : Config} {result : Except Error Value} (hrun : Reaches read limit (q.start id s d) c)
      (hend : c.Returns result) (hrest : Served read limit inputs c.store c.depth t d') :
      Served read limit ((id, q) :: inputs) s d t d'

section

variable {read : ModuleReader} {limit : Limit} {c : Config} {d : Nat}

theorem Request.counts_start (limit : Limit) (q : Request) (id : Nat) (s : Store) (d : Nat) :
    (q.start id s d).Counts limit d :=
  ⟨rfl, ⟨Nat.le_refl d, fun _ _ hd => hd⟩, nofun⟩

theorem Config.Counts.depth_of_returns (hc : c.Counts limit d) {result : Except Error Value}
    (h : c.Returns result) : c.depth = d := by
  rw [hc.depth, h.1]
  rfl

theorem Served.depth_eq {inputs : List (Nat × Request)} {s t : Store} {d' : Nat}
    (h : Served read limit inputs s d t d') : d' = d := by
  induction h with
  | nil s d => rfl
  | cons hrun hend _ ih =>
    rw [ih]
    exact ((Request.counts_start limit _ _ _ _).reaches hrun).depth_of_returns hend

end

/-- With a limit every input comes to an end, and leaves the frames that the others need. -/
theorem exists_served (i : Interpreter) {n : Nat} (hn : i.limit = .atMost n) (d : Nat)
    (inputs : List (Nat × Request)) {s : Store} (hs : s.Linked)
    (hids : ∀ input ∈ inputs, input.1 < s.size) :
    ∃ t, Served i.read i.limit inputs s d t d := by
  induction inputs generalizing s with
  | nil => exact ⟨s, .nil s d⟩
  | cons input inputs ih =>
    obtain ⟨id, q⟩ := input
    have hend : ¬ i.limit.GivesUp (q.runFrom i d (s.scope id)).result := by
      rw [hn]
      exact Limit.not_givesUp_atMost n _
    obtain ⟨e, hfollows, hreach⟩ := q.exists_returns i d hs (hids (id, q) (.head _)) hend
    obtain ⟨t, hserved⟩ := ih hfollows.linked fun input hmem =>
      Nat.lt_of_lt_of_le (hids input (.tail _ hmem)) hfollows.size
    exact ⟨t, .cons hreach ⟨rfl, rfl⟩ hserved⟩

/-- The counter is balanced and bounded.  It is where it may be in every state that a run passes
through, and back where the run ends.  A run that evaluation follows to its end ends in the same
way, and logs what evaluation records.  So inputs that are run one after the other, whatever they
come to, all start with the counter where the first one found it. -/
theorem depth_balanced (i : Interpreter) (d : Nat) :
    (∀ (q : Request) (s : Store) (id : Nat) (c : Config),
        Reaches i.read i.limit (q.start id s d) c →
          i.limit.Allows d c.depth ∧ ∀ result, c.Returns result → c.depth = d) ∧
      (∀ q : Request, q.runFrom i 0 = q.run i) ∧
      (∀ (q : Request) (s : Store) (id : Nat), s.Linked → id < s.size →
        ¬ i.limit.GivesUp (q.runFrom i d (s.scope id)).result →
          (∀ x ∈ Activity.momentsAt d (q.runFrom i d (s.scope id)).record,
            i.limit.Allows d x.depth) ∧
          ∃ e : Ending Value, Follows s id (q.runFrom i d (s.scope id)) e ∧
            Reaches i.read i.limit (q.start id s d)
              ⟨id, .ofExcept e.result, [], e.store, d, Activity.momentsAt d e.record⟩) ∧
      (∀ (inputs : List (Nat × Request)) (s t : Store) (d' : Nat),
        Served i.read i.limit inputs s d t d' → d' = d) ∧
      ∀ (inputs : List (Nat × Request)) (s : Store) (n : Nat), i.limit = .atMost n → s.Linked →
        (∀ input ∈ inputs, input.1 < s.size) → ∃ t, Served i.read i.limit inputs s d t d := by
  refine ⟨fun q s id c hreach => ?_, fun q => q.runFrom_zero i, fun q s id hs hid hend => ?_,
    fun inputs s t d' h => ?_, fun inputs s n hn hs hids => ?_⟩
  · have hc := (q.counts_start i.limit id s d).reaches hreach
    exact ⟨hc.allowed, fun result hend => hc.depth_of_returns hend⟩
  · obtain ⟨e, hfollows, hreach⟩ := q.exists_returns i d hs hid hend
    have hc := (q.counts_start i.limit id s d).reaches hreach
    refine ⟨fun x hx => hc.logged x ?_, e, hfollows, hreach⟩
    rw [hfollows.record]
    exact hx
  · exact h.depth_eq
  · exact exists_served i hn d inputs hs hids

/-- A frame that binds a lambda that calls itself. -/
def callsItself : Store :=
  (Store.new {}).set 0 "f" (.lambda ["x"] [.symbol "f", .symbol "x"])

/-- With the counter at one and a limit of three, the lambda calls itself twice and then fails. -/
theorem callsItself_depth :
    let i : Interpreter := ⟨.atMost 3, fun _ => .error "no such file"⟩
    let q : Request := .eval (.list [.symbol "f", .int 7])
    callsItself.Linked ∧ 0 < callsItself.size ∧
      (∃ t log, Reaches i.read i.limit (q.start 0 callsItself 1)
        ⟨0, .fail (.recursionLimit "f" 3), [], t, 1, log⟩) ∧
      ∃ t, Served i.read i.limit (List.replicate 5 (0, q)) callsItself 1 t 1 := by
  intro i q
  have hlinked : callsItself.Linked :=
    Store.linked_setOwn (Store.linked_new Store.linked_empty) 0 _
  have hsize : 0 < callsItself.size := by decide
  have hresult : (q.runFrom i 1 (callsItself.scope 0)).result =
      .error (.recursionLimit "f" 3) := rfl
  have hend : ¬ i.limit.GivesUp (q.runFrom i 1 (callsItself.scope 0)).result :=
    Limit.not_givesUp_atMost 3 _
  obtain ⟨-, -, hends, -, hserves⟩ := depth_balanced i 1
  obtain ⟨-, e, hfollows, hreach⟩ := hends q callsItself 0 hlinked hsize hend
  rw [hfollows.result, hresult] at hreach
  refine ⟨hlinked, hsize, ⟨_, _, hreach⟩, hserves _ _ 3 rfl hlinked fun input hmem => ?_⟩
  rw [List.eq_of_mem_replicate hmem]
  exact hsize

end SmallLisp
