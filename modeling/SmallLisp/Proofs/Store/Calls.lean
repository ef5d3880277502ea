import Mathlib.Logic.Basic
import SmallLisp.Proofs.Event
import SmallLisp.Proofs.Store.Steps

/-!
# Calls on shared frames

A call works on three frames at once: the caller's, where the arguments are evaluated, the one of
the call itself, which is made before the first argument and filled in between, and those that the
arguments and the body make for calls of their own.

`call_isolated` says what comes of it by two runs that have nothing to do with each other: all
arguments in the caller's frame, and then the body in a new frame, with the bindings that the caller
had at first and the parameters on top of them.  The caller's frame is left as the arguments leave
it.
-/

namespace SmallLisp

/-! ## Parameters -/

/-- Where a name is bound more than once the last value counts. -/
theorem Bindings.get?_setAll (b : Bindings) (names : List String) (values : List Value)
    (name : String) :
    (b.setAll names values).get? name =
      ((names.zip values).reverse.lookup name).or (b.get? name) := by
  induction names generalizing b values with
  | nil => rfl
  | cons first names ih =>
    cases values with
    | nil => rfl
    | cons value values =>
      rw [setAll, ih, Bindings.get?_set, List.zip_cons_cons, List.reverse_cons, List.lookup_append,
        Option.or_assoc]
      by_cases h : name = first
      · simp [h]
      · have hne : (name == first) = false := by simpa using h
        simp [h, hne, List.lookup_cons]

/-! ## One level deeper -/

/-- The limit one level deeper.  Without a limit a run is followed for one level less. -/
def Limit.inside : Limit → Limit
  | atMost n => .atMost n
  | unlimited followed => .unlimited (followed - 1)

theorem Limit.left_inside (limit : Limit) (depth : Nat) :
    limit.inside.left (depth + 1) = limit.left depth - 1 := by
  cases limit with
  | atMost n => exact Nat.sub_add_eq n depth 1
  | unlimited followed => rfl

theorem Limit.refusal_inside (limit : Limit) : limit.inside.refusal = limit.refusal := by
  cases limit <;> rfl

namespace Interpreter

/-- The interpreter one level deeper. -/
def inside (i : Interpreter) : Interpreter :=
  { i with limit := i.limit.inside }

/-- What an interpreter does with calls and loads when this many are active. -/
def levelFrom (i : Interpreter) (depth : Nat) : Level Process :=
  levelAt i.read i.limit.refusal (i.limit.left depth) depth

end Interpreter

/-- Does what is asked on shared frames with this many calls and loads active. -/
def Request.performFrom (i : Interpreter) (depth : Nat) (q : Request) : Process Value :=
  q.script.run (i.levelFrom depth)

theorem Request.realizesFrom (i : Interpreter) (depth : Nat) (q : Request) :
    Realizes (q.runFrom i depth) (q.performFrom i depth) :=
  Script.realizes i.read i.limit.refusal (i.limit.left depth) depth q.script

/-- Evaluates a value in a scope, one level deeper than with this many calls and loads active. -/
def Interpreter.evalInside (i : Interpreter) (depth : Nat) (v : Value) : Evaluation Value :=
  (Request.eval v).runFrom i.inside (depth + 1)

/-- Evaluates values one after the other, up to the first that fails. -/
def performAll (i : Interpreter) (depth : Nat) : List Value → Process (List Value)
  | [] => pure []
  | v :: vs => do
    let x ← (Request.eval v).performFrom i depth
    let xs ← performAll i depth vs
    pure (x :: xs)

theorem realizes_performAll (i : Interpreter) (depth : Nat) (vs : List Value) :
    Realizes (runAll (i.evalInside depth) vs) (performAll i.inside (depth + 1) vs) := by
  induction vs with
  | nil => exact realizes_pure []
  | cons v vs ih =>
    exact ((Request.eval v).realizesFrom i.inside (depth + 1)).bind fun x =>
      ih.bind fun xs => realizes_pure _

/-! ## Calls -/

/-- The form that calls a name with arguments. -/
def callOf (name : String) (args : List Value) : Request :=
  .eval (.list (.symbol name :: args))

theorem ofValues_node (vs : List Value) : (Script.ofValues vs).map Operand.node = vs := by
  induction vs with
  | nil => rfl
  | cons v vs ih => rw [Script.ofValues, List.map_cons, ih]

theorem script_callOf {name : String} (hop : Operator.ofName? name = none)
    (hconcat : name ≠ concatName) (args : List Value) :
    (callOf name args).script = callForm name (Script.ofValues args) := by
  change Script.ofValue (.list (.symbol name :: args)) = _
  rw [Script.ofValue, namedForm, hop]
  exact if_neg hconcat

theorem Process.bind_pure_eq {α : Type} (p : Process α) (id : Nat) (s : Store) :
    (p >>= fun a => pure a) id s = p id s := by
  rcases h : p id s with ⟨result, t, record⟩
  cases result with
  | error e => rw [Process.bind_of_error h]
  | ok v =>
    rw [Process.bind_of_ok h]
    exact congrArg (Ending.mk _ _) (List.append_nil record)

section

variable (i : Interpreter) (depth : Nat) {name : String} {params : List String}
  {body args : List Value}

/-- Calling a name that is bound to a lambda calls the lambda. -/
theorem performFrom_callOf (hop : Operator.ofName? name = none) (hconcat : name ≠ concatName)
    {s : Store} {id : Nat} (hf : s.get? id name = some (.lambda params body)) :
    (callOf name args).performFrom i depth id s =
      (i.levelFrom depth).call name params body args id s := by
  have hlookup : (Carrier.lookup name : Process Value) id s =
      ⟨.ok (.lambda params body), s, []⟩ := by
    change Process.lookup name id s = _
    rw [Process.lookup, hf]
  rw [Request.performFrom, script_callOf hop hconcat, callForm, ofValues_node, Script.run,
    Process.bind_of_ok hlookup]
  simp only [Script.run, Script.run_pure, Process.bind_pure_eq, List.nil_append]

/-- The call in a scope: arguments and body are evaluated one level deeper. -/
theorem contextAt_call (hlen : args.length = params.length) (hleft : i.limit.left depth ≠ 0) :
    (contextAt i.read i.limit.refusal (i.limit.left depth) depth).call name params body args =
      .nested (do
        let before ← Evaluation.ownBindings
        let values ← runAll (i.evalInside depth) args
        let frame := before.setAll params values
        Evaluation.note (.called name args frame)
        Evaluation.inFrame frame (i.evalInside depth (.list body))) := by
  obtain ⟨room, hroom⟩ := Nat.exists_eq_succ_of_ne_zero hleft
  have hinside : i.evalInside depth =
      evalNode (contextAt i.read i.limit.refusal room (depth + 1)) := by
    funext v
    rw [Interpreter.evalInside, Request.runFrom, Interpreter.inside, Limit.left_inside,
      Limit.refusal_inside, hroom]
    rfl
  rw [Level.call, if_neg (not_not.2 hlen), hroom, hinside]
  simp only [contextAt, Gate.level, Evaluation.inside_gate, bindArgs_eq _ _ _ hlen]
  rfl

/-- An argument that fails ends the call. -/
theorem call_of_error (hlen : args.length = params.length) (hleft : i.limit.left depth ≠ 0)
    {s : Scope} {e : Error} {own : Bindings} {record : List Activity}
    (h : runAll (i.evalInside depth) args s = ⟨.error e, own, record⟩) :
    (contextAt i.read i.limit.refusal (i.limit.left depth) depth).call name params body args s =
      ⟨.error e, own, [.nested record]⟩ := by
  rw [contextAt_call i depth hlen hleft, Evaluation.nested, ownBindings_bind,
    Evaluation.bind_of_error h]

/-- The body of a call is evaluated in a frame of its own. -/
theorem call_of_ok (hlen : args.length = params.length) (hleft : i.limit.left depth ≠ 0)
    {s : Scope} {values : List Value} {own : Bindings} {record : List Activity}
    (h : runAll (i.evalInside depth) args s = ⟨.ok values, own, record⟩) {o : Outcome Value}
    (ho : i.evalInside depth (.list body) { s with own := s.own.setAll params values } = o) :
    (contextAt i.read i.limit.refusal (i.limit.left depth) depth).call name params body args s =
      ⟨o.result, own, [.nested (record ++
        .event (.called name args (s.own.setAll params values)) :: o.record)]⟩ := by
  rw [contextAt_call i depth hlen hleft, Evaluation.nested, ownBindings_bind,
    Evaluation.bind_of_ok h, ← ho]
  rfl

/-- The caller's bindings are those that the arguments leave. -/
theorem own_call (hlen : args.length = params.length) (hleft : i.limit.left depth ≠ 0) (s : Scope) :
    ((contextAt i.read i.limit.refusal (i.limit.left depth) depth).call name params body args
        s).own =
      (runAll (i.evalInside depth) args s).own := by
  rcases h : runAll (i.evalInside depth) args s with ⟨result, own, record⟩
  cases result with
  | error e => rw [call_of_error i depth hlen hleft h]
  | ok values => rw [call_of_ok i depth hlen hleft h rfl]

end

/-! ## Frames -/

section

variable {α β : Type} {s : Store} {id : Nat} {o : Outcome α} {o' : Outcome β} {e : Ending α}
  {e' : Ending β}

/-- Runs that leave the same bindings leave the same frames. -/
theorem Follows.frame?_eq (h : Follows s id o e) (h' : Follows s id o' e') (hown : o.own = o'.own)
    {j : Nat} (hj : j < s.size) : e.store.frame? j = e'.store.frame? j := by
  rw [h.frames j hj, h'.frames j hj, hown]

theorem Follows.get?_eq (h : Follows s id o e) (h' : Follows s id o' e') (hown : o.own = o'.own)
    {j : Nat} (hj : j < s.size) (name : String) :
    e.store.get? j name = e'.store.get? j name :=
  Store.get?_congr h'.linked h.linked h'.size (fun _ hk => h.frame?_eq h' hown hk) hj name

/-- A frame for a call, made when the arguments have been evaluated, sees around it what the
caller's frame sees around it. -/
theorem Follows.calleeFrame (hs : s.Linked) (hid : id < s.size) (h : Follows s id o e)
    (own : Bindings) :
    (e.store.push (s.calleeFrame id own)).Linked ∧
      (e.store.push (s.calleeFrame id own)).scope e.store.size =
        { s.scope id with own := own } := by
  obtain ⟨f, hf⟩ := Store.exists_frame? hid
  have hparent : (s.calleeFrame id own).parent = f.parent := by
    rw [Store.calleeFrame, hf]
    rfl
  have hlinked : (e.store.push (s.calleeFrame id own)).Linked := by
    refine Store.linked_push h.linked fun p hp => ?_
    have hlt := hs id f p hf (hparent ▸ hp)
    exact Nat.lt_of_lt_of_le (Nat.lt_trans hlt hid) h.size
  have hnew : (e.store.push (s.calleeFrame id own)).frame? e.store.size =
      some (s.calleeFrame id own) := by
    rw [Store.frame?_push, if_pos rfl]
  refine ⟨hlinked, Store.scope_eq hs hlinked hf hnew hparent fun k hk => ?_⟩
  have hksize : k < s.size := Nat.lt_trans hk hid
  rw [Store.frame?_push, if_neg (Nat.ne_of_lt (Nat.lt_of_lt_of_le hksize h.size)),
    h.frames k hksize, Store.frame?_setOwn, if_neg (Nat.ne_of_lt hk)]

end

/-- The output of a call is that of its arguments and that of its body. -/
theorem outputOf_call (arguments inner : List Activity) (name : String) (args : List Value)
    (frame : Bindings) :
    outputOf (Activity.moments
        [.nested (arguments ++ .event (.called name args frame) :: inner)]) =
      outputOf (Activity.moments arguments) ++ outputOf (Activity.moments inner) := by
  have hinner : Activity.momentsAt 1 (.event (.called name args frame) :: inner) =
      [⟨1, .called name args frame⟩] ++ Activity.momentsAt 1 inner := rfl
  rw [Activity.moments_eq, Activity.momentsAt_nested, Activity.momentsAt_append, hinner,
    Activity.momentsAt_succ, Activity.momentsAt_succ, outputOf_append, outputOf_append,
    outputOf_deeper, outputOf_deeper]
  exact congrArg _ String.empty_append

section

variable {i : Interpreter} {depth : Nat} {s : Store} {id : Nat} {name : String}
  {params : List String} {body args : List Value} {call : Ending Value}
  {arguments : Ending (List Value)}
  (hlen : args.length = params.length) (hleft : i.limit.left depth ≠ 0)
  (hcall : Follows s id ((contextAt i.read i.limit.refusal (i.limit.left depth) depth).call name
    params body args (s.scope id)) call)
  (harguments : Follows s id (runAll (i.evalInside depth) args (s.scope id)) arguments)

include hlen hleft hcall harguments

theorem call_eq_of_error {e : Error} (he : arguments.result = .error e) :
    call.result = .error e ∧ call.record = [.nested arguments.record] := by
  have hresult := harguments.result
  have hrecord := harguments.record
  rcases ho : runAll (i.evalInside depth) args (s.scope id) with ⟨result, own, record⟩
  rw [ho] at hresult hrecord
  obtain rfl : result = .error e := hresult.symm.trans he
  rw [call_of_error i depth hlen hleft ho] at hcall
  exact ⟨hcall.result, by rw [hcall.record, hrecord]⟩

theorem call_eq_of_ok (hs : s.Linked) (hid : id < s.size) {values : List Value}
    (hvalues : arguments.result = .ok values) {inner : Ending Value}
    (hinner : (Request.eval (.list body)).performFrom i.inside (depth + 1) arguments.store.size
      (arguments.store.push (s.calleeFrame id ((s.own id).setAll params values))) = inner) :
    call.result = inner.result ∧
      call.record = [.nested (arguments.record ++
        .event (.called name args ((s.own id).setAll params values)) :: inner.record)] := by
  have hresult := harguments.result
  have hrecord := harguments.record
  rcases ho : runAll (i.evalInside depth) args (s.scope id) with ⟨result, own, record⟩
  rw [ho] at hresult hrecord
  obtain rfl : result = .ok values := hresult.symm.trans hvalues
  obtain ⟨hlinked, hscope⟩ := harguments.calleeFrame hs hid ((s.own id).setAll params values)
  have hbody := (Request.eval (.list body)).realizesFrom i.inside (depth + 1) _
    arguments.store.size hlinked (Nat.lt_succ_self _)
  rw [hscope, hinner] at hbody
  rw [call_of_ok i depth hlen hleft ho rfl] at hcall
  refine ⟨hcall.result.trans hbody.result.symm, ?_⟩
  rw [hcall.record, hrecord, hbody.record]
  rfl

end

/-- How a call compares with its arguments evaluated on their own, and with its body evaluated on
its own after them. -/
structure Isolated (i : Interpreter) (depth : Nat) (s : Store) (id : Nat) (name : String)
    (params : List String) (body args : List Value) (call : Ending Value)
    (arguments : Ending (List Value)) : Prop where
  /-- The frames that were there before are left as the arguments leave them. -/
  frames : ∀ j < s.size, call.store.frame? j = arguments.store.frame? j
  get? : ∀ j < s.size, ∀ other, call.store.get? j other = arguments.store.get? j other
  /-- An argument that fails ends the call. -/
  failed : ∀ e, arguments.result = .error e →
    call.result = .error e ∧ call.record = [.nested arguments.record]
  /-- The body is evaluated in a frame beside the caller's, with what that bound at first and the
  parameters. -/
  body : ∀ values, arguments.result = .ok values →
    let frame := s.calleeFrame id ((s.own id).setAll params values)
    let inner := (Request.eval (.list body)).performFrom i.inside (depth + 1)
      arguments.store.size (arguments.store.push frame)
    call.result = inner.result ∧
      call.record =
        [.nested (arguments.record ++ .event (.called name args frame.own) :: inner.record)] ∧
      outputOf (Activity.moments call.record) =
        outputOf (Activity.moments arguments.record) ++ outputOf (Activity.moments inner.record)
  /-- Where a parameter is repeated its last value counts. -/
  parameters : ∀ values other, ((s.own id).setAll params values).get? other =
    ((params.zip values).reverse.lookup other).or ((s.own id).get? other)

/-- Calls are isolated from their caller.  A call with a wrong number of arguments, and one that is
refused a level, changes nothing.  Any other call does what its arguments do in the caller's frame
and, if they all have a value, what its body does in a new frame, however the call ends. -/
theorem call_isolated (i : Interpreter) (depth : Nat) {s : Store} (hs : s.Linked) {id : Nat}
    (hid : id < s.size) {name : String} (hop : Operator.ofName? name = none)
    (hconcat : name ≠ concatName) {params : List String} {body : List Value}
    (hf : s.get? id name = some (.lambda params body)) (args : List Value) :
    let call := (callOf name args).performFrom i depth id s
    Follows s id ((callOf name args).runFrom i depth (s.scope id)) call ∧
      (args.length ≠ params.length →
        call = ⟨.error (.arity name params.length args.length), s, []⟩) ∧
      (args.length = params.length → i.limit.left depth = 0 →
        call = ⟨.error (i.limit.refusal depth name), s, []⟩) ∧
      (args.length = params.length → i.limit.left depth ≠ 0 →
        Isolated i depth s id name params body args call
          (performAll i.inside (depth + 1) args id s)) := by
  intro call
  have hcall : call = (i.levelFrom depth).call name params body args id s :=
    performFrom_callOf i depth hop hconcat hf
  have hfollows := Level.realizes_call i.read i.limit.refusal (i.limit.left depth) depth name params
    body args s id hs hid
  change Follows s id _ ((i.levelFrom depth).call name params body args id s) at hfollows
  rw [← hcall] at hfollows
  have harguments := realizes_performAll i depth args s id hs hid
  refine ⟨(callOf name args).realizesFrom i depth s id hs hid, fun hlen => ?_, fun hlen hleft => ?_,
    fun hlen hleft => ?_⟩
  · rw [hcall, Level.call, if_pos hlen]
    rfl
  · rw [hcall, Level.call, if_neg (not_not.2 hlen), Interpreter.levelFrom, hleft]
    rfl
  · refine ⟨fun j hj => hfollows.frame?_eq harguments (own_call i depth hlen hleft _) hj,
      fun j hj other => hfollows.get?_eq harguments (own_call i depth hlen hleft _) hj other,
      fun e he => call_eq_of_error hlen hleft hfollows harguments he, fun values hvalues => ?_,
      Bindings.get?_setAll (s.own id) params⟩
    intro frame inner
    obtain ⟨hresult, hrecord⟩ :=
      call_eq_of_ok hlen hleft hfollows harguments hs hid hvalues rfl
    refine ⟨hresult, hrecord, ?_⟩
    rw [hrecord, outputOf_call]

/-- A frame that binds a lambda with one name for both parameters, and a frame inside it. -/
def lambdaOutside : Store :=
  let body := [.list [.keyword .define, .symbol "y", .symbol "x"], .symbol "y"]
  (((Store.new {}).set 0 "f" (.lambda ["x", "x"] body)).enclose 0).set 1 "x" (.int 7)

/-- The first argument defines a name in the caller's frame.  The second is what the body sees, and
what the body defines is not left there. -/
theorem lambdaOutside_isolated :
    let i : Interpreter := ⟨.atMost 3, fun _ => .error "no such file"⟩
    let args : List Value := [.list [.keyword .define, .symbol "z", .int 6], .int 5]
    let call := (callOf "f" args).performFrom i 2 1 lambdaOutside
    lambdaOutside.Linked ∧ 1 < lambdaOutside.size ∧
      call.result = .ok (.list [.int 5]) ∧
      (∀ j < 2, call.store.frame? j =
        (performAll i.inside 3 args 1 lambdaOutside).store.frame? j) ∧
      call.store.own 1 = ⟨[("x", .int 7), ("z", .int 6)]⟩ := by
  intro i args call
  have hlinked : lambdaOutside.Linked := by
    refine Store.linked_setOwn (Store.linked_enclose ?_ (by decide)) 1 _
    exact Store.linked_setOwn (Store.linked_new Store.linked_empty) 0 _
  have hsize : 1 < lambdaOutside.size := by decide
  have hf : lambdaOutside.get? 1 "f" = some (.lambda ["x", "x"] _) := rfl
  obtain ⟨-, -, -, hcall⟩ := call_isolated i 2 hlinked hsize (by decide) (by decide) hf args
  have hisolated := hcall rfl (by decide)
  exact ⟨hlinked, hsize, (hisolated.body [.void, .int 5] rfl).1, hisolated.frames, rfl⟩

end SmallLisp
