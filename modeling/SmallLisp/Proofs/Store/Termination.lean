import SmallLisp.Proofs.Store.Steps

/-!
# Runs end

Under a limit no run goes on forever, from whatever state it starts (`terminates`).  A step goes on
to the rest of a script, which is smaller, or enters a call or a load.  What is entered need not be
smaller: it is an argument, a body that the frames bind or a module from outside.  But it is entered
with the counter one higher, and there is less room under the limit.

So the proof is by the room (`finishes`) and then by the script (`finishes_of_inside`).  It has to
know that what is pending around a script deals with whatever the script hands back (`Settles`).
This holds of the calls and loads that the script itself enters, since the rest of the script is
smaller, and of nothing at all.

A state without a next one has a value or an error (`Config.step_eq_none_iff`).  So every request
comes to one or the other, which is what evaluation comes to (`run_returns`).  Without a limit there
is an infinite run (`not_terminates_unlimited`).
-/

namespace SmallLisp

open Config (Reaches)

section

variable {read : ModuleReader} {limit : Limit} {c c' : Config} {d : Nat} {rest : List Pending}
  {next : Value → Script Value}

/-- There is no infinite run from this state. -/
def Config.Terminates (read : ModuleReader) (limit : Limit) : Config → Prop :=
  Acc fun c' c => c.step read limit = some c'

open Config (Terminates)

theorem terminates_of_next (h : c.step read limit = some c') (hc : Terminates read limit c') :
    Terminates read limit c := by
  refine .intro c fun c'' h' => ?_
  rw [h] at h'
  cases h'
  exact hc

/-- With the counter at `d`, runs end that hand a value or an error back to what is pending. -/
def Settles (read : ModuleReader) (limit : Limit) (d : Nat) (rest : List Pending) : Prop :=
  ∀ (result : Except Error Value) (id : Nat) (s : Store) (log : List Moment),
    Terminates read limit ⟨id, .ofExcept result, rest, s, d, log⟩

/-- With the counter at `d`, runs of this script end in front of anything that settles. -/
def Finishes (read : ModuleReader) (limit : Limit) (d : Nat) (x : Script Value) : Prop :=
  ∀ rest, Settles read limit d rest → ∀ (id : Nat) (s : Store) (log : List Moment),
    Terminates read limit ⟨id, x, rest, s, d, log⟩

/-! ## What is pending -/

theorem settles_nil : Settles read limit d [] := by
  intro result id s log
  refine .intro _ fun c h => ?_
  cases result <;> cases h

/-- An error leaves one call or load after the other. -/
theorem Settles.unwind (h : Settles read limit (d - 1) rest) (p : Pending) (e : Error) (id : Nat)
    (s : Store) (log : List Moment) :
    Terminates read limit ⟨id, .fail e, p :: rest, s, d, log⟩ :=
  terminates_of_next rfl (h (.error e) p.caller s log)

theorem Settles.inside (h : Settles read limit (d - 1) rest)
    (hnext : ∀ v, Finishes read limit (d - 1) (next v)) (caller : Nat) :
    Settles read limit d (.inside caller next :: rest) := by
  intro result id s log
  cases result with
  | error e => exact h.unwind _ e id s log
  | ok v => exact terminates_of_next rfl (hnext v rest h caller s log)

theorem Settles.argument (h : Settles read limit (d - 1) rest) {call : Invocation}
    {params : List String} {left : List Value}
    (hproceed : ∀ c : Config, c.depth = d →
      Terminates read limit (c.proceed call next rest params left)) (param : String) :
    Settles read limit d (.argument call param params left next :: rest) := by
  intro result id s log
  cases result with
  | error e => exact h.unwind _ e id s log
  | ok v => exact terminates_of_next rfl (hproceed _ rfl)

/-- A call goes through its arguments, of which there is one less each time, then to its body. -/
theorem Settles.proceed (h : Settles read limit (d - 1) rest)
    (hnext : ∀ v, Finishes read limit (d - 1) (next v))
    (hrun : ∀ v, Finishes read limit d (.ofValue v)) (call : Invocation) (params : List String)
    (args : List Value) (hc : c.depth = d) :
    Terminates read limit (c.proceed call next rest params args) := by
  induction params generalizing c args with
  | nil =>
    subst hc
    exact hrun _ _ (h.inside hnext call.caller) _ _ _
  | cons param params ih =>
    subst hc
    cases args with
    | nil => exact hrun _ _ (h.inside hnext call.caller) _ _ _
    | cons arg args =>
      exact hrun arg _ (h.argument (fun c hc => ih args hc) param) _ _ _

/-! ## Scripts -/

/-- A script finishes if what it enters does, with the counter one higher. -/
theorem finishes_of_inside
    (hinside : limit.stops d = false → ∀ v, Finishes read limit (d + 1) (.ofValue v))
    (x : Script Value) : Finishes read limit d x := by
  induction x with
  | done v => exact fun rest h id s log => h (.ok v) id s log
  | fail e => exact fun rest h id s log => h (.error e) id s log
  | lookup name next ih =>
    intro rest h id s log
    refine terminates_of_next rfl ?_
    dsimp only
    cases s.get? id name with
    | some v => exact ih v rest h id s log
    | none => exact h (.error _) id s log
  | define name value next ih =>
    intro rest h id s log
    exact terminates_of_next rfl (ih rest h _ _ _)
  | print text next ih =>
    intro rest h id s log
    exact terminates_of_next rfl (ih rest h _ _ _)
  | call name params body args next ih =>
    intro rest h id s log
    refine terminates_of_next rfl ?_
    unfold Config.enterCall
    split
    · exact h (.error _) id s log
    · split
      · exact h (.error _) id s log
      · next hl =>
        -- The arguments and the body have less room, and the rest of the script is smaller.
        exact Settles.proceed h ih (hinside (by simpa using hl)) _ params args rfl
  | load path next ih =>
    intro rest h id s log
    refine terminates_of_next rfl ?_
    unfold Config.enterLoad
    split
    · exact h (.error _) id s log
    · split
      · exact h (.error _) id s log
      · next hl =>
        have hrun := hinside (by simpa using hl)
        have hsettles : Settles read limit (d + 1) (.inside id next :: rest) :=
          Settles.inside h ih id
        unfold moduleScript
        split
        · exact hsettles (.error _) _ _ _
        · split
          · exact hsettles (.error _) _ _ _
          · exact hrun _ _ hsettles _ _ _

/-- Under a limit every script finishes: what it enters has less room. -/
theorem finishes (n : Nat) (x : Script Value) : Finishes read (.atMost n) d x := by
  induction hroom : n - d generalizing d x with
  | zero =>
    refine finishes_of_inside (fun hl => ?_) x
    simp only [Limit.stops, decide_eq_false_iff_not] at hl
    omega
  | succ room ih => exact finishes_of_inside (fun _ v => ih _ (by omega)) x

/-- Under a limit everything pending settles. -/
theorem settles (n : Nat) (rest : List Pending) : Settles read (.atMost n) d rest := by
  induction rest generalizing d with
  | nil => exact settles_nil
  | cons p rest ih =>
    cases p with
    | inside caller next => exact ih.inside (fun v => finishes n _) caller
    | argument call param params left next =>
      refine ih.argument (fun c hc => ?_) param
      exact ih.proceed (fun v => finishes n _) (fun v => finishes n _) call params left hc

/-- Under a limit no run goes on forever. -/
theorem terminates (read : ModuleReader) (n : Nat) (c : Config) :
    Terminates read (.atMost n) c :=
  finishes n c.script c.pending (settles n c.pending) c.frame c.store c.log

/-! ## How runs end -/

/-- A state without a next one has a value or an error, and nothing pending. -/
theorem Config.step_eq_none_iff :
    c.step read limit = none ↔ ∃ result, c.Returns result := by
  constructor
  · intro h
    obtain ⟨frame, script, pending, store, depth, log⟩ := c
    cases script with
    | done v =>
      cases pending with
      | nil => exact ⟨.ok v, rfl, rfl⟩
      | cons p rest => cases p <;> cases h
    | fail e =>
      cases pending with
      | nil => exact ⟨.error e, rfl, rfl⟩
      | cons p rest => cases h
    | lookup name next => cases h
    | define name value next => cases h
    | print text next => cases h
    | call name params body args next => cases h
    | load path next => cases h
  · rintro ⟨result, hpending, hscript⟩
    cases result <;> simp [step, hscript, hpending, Script.ofExcept, handBack, unwind]

theorem Config.Terminates.exists_returns (h : Terminates read limit c) :
    ∃ c' result, Reaches read limit c c' ∧ c'.Returns result := by
  induction h with
  | intro c _ ih =>
    cases hstep : c.step read limit with
    | none =>
      obtain ⟨result, hc⟩ := Config.step_eq_none_iff.1 hstep
      exact ⟨c, result, .refl, hc⟩
    | some c' =>
      obtain ⟨c'', result, hreach, hc⟩ := ih c' hstep
      exact ⟨c'', result, .head hstep hreach, hc⟩

theorem Config.Returns.eq_of_reaches {result : Except Error Value} (h : c.Returns result)
    (hreach : Reaches read limit c c') : c' = c := by
  rcases hreach.cases_head with rfl | ⟨c'', hstep, -⟩
  · rfl
  · rw [Config.step_eq_none_iff.2 ⟨result, h⟩] at hstep
    cases hstep

/-- Every state of a run leads to its end. -/
theorem Config.Reaches.to_end {c₁ c₂ : Config} {result : Except Error Value}
    (h₁ : Reaches read limit c c₁) (h₂ : Reaches read limit c c₂) (hend : c₂.Returns result) :
    Reaches read limit c₁ c₂ := by
  have hunique : Relator.RightUnique fun c c' : Config => c.step read limit = some c' := by
    intro c c' c'' h h'
    rw [h] at h'
    exact Option.some.inj h'
  rcases Relation.ReflTransGen.total_of_right_unique hunique h₁ h₂ with h | h
  · exact h
  · rw [hend.eq_of_reaches h]
    exact .refl

/-- A run has one end. -/
theorem Config.Returns.unique {c₁ c₂ : Config} {result₁ result₂ : Except Error Value}
    (h₁ : c₁.Returns result₁) (h₂ : c₂.Returns result₂) (hreach₁ : Reaches read limit c c₁)
    (hreach₂ : Reaches read limit c c₂) : result₁ = result₂ := by
  obtain rfl := h₁.eq_of_reaches (hreach₁.to_end hreach₂ h₂)
  have hscript := h₁.2.symm.trans h₂.2
  cases result₁ <;> cases result₂ <;> cases hscript <;> rfl

end

/-- Under a positive limit every request returns, whatever the frames bind and the modules hold.  No
state at all starts an infinite run.  The run of a request, from any frame and with any number of
calls and loads active, leads to one end, which is a value or an error: what evaluation comes to. -/
theorem run_returns (read : ModuleReader) {m : Int} (hm : 0 < m) :
    (∀ c : Config, c.Terminates read (.ofInt m)) ∧
      (∀ (q : Request) (s : Store) (id d : Nat), ∃ c result,
        Reaches read (.ofInt m) (q.start id s d) c ∧ c.Returns result ∧
          (∀ c', Reaches read (.ofInt m) (q.start id s d) c' → Reaches read (.ofInt m) c' c) ∧
          (s.Linked → id < s.size →
            result = (q.runFrom ⟨.ofInt m, read⟩ d (s.scope id)).result)) ∧
      ∀ q : Request, q.runFrom ⟨.ofInt m, read⟩ 0 = q.run ⟨.ofInt m, read⟩ := by
  have hlimit : Limit.ofInt m = .atMost m.toNat := if_pos hm
  rw [hlimit]
  refine ⟨terminates read m.toNat, fun q s id d => ?_, Request.runFrom_zero _⟩
  obtain ⟨c, result, hreach, hend⟩ := (terminates read m.toNat (q.start id s d)).exists_returns
  refine ⟨c, result, hreach, hend, fun c' h => h.to_end hreach hend, fun hs hid => ?_⟩
  obtain ⟨e, hfollows, hreach'⟩ := q.exists_returns ⟨.atMost m.toNat, read⟩ d hs hid
    (Limit.not_givesUp_atMost _ _)
  rw [← hfollows.result]
  exact hend.unique ⟨rfl, rfl⟩ hreach hreach'

/-- A frame that binds two lambdas that call each other. -/
def callEachOther : Store :=
  ((Store.new {}).set 0 "f" (.lambda [] [.symbol "g"])).set 0 "g" (.lambda [] [.symbol "f"])

/-- With a limit of three, the fourth call fails. -/
theorem callEachOther_returns :
    let read : ModuleReader := fun _ => .error "no such file"
    callEachOther.Linked ∧ 0 < callEachOther.size ∧
      ∃ c, Reaches read (.ofInt 3)
          ((Request.eval (.list [.symbol "f"])).start 0 callEachOther 0) c ∧
        c.Returns (.error (.recursionLimit "g" 3)) := by
  intro read
  have hlinked : callEachOther.Linked :=
    Store.linked_setOwn (Store.linked_setOwn (Store.linked_new Store.linked_empty) 0 _) 0 _
  have hsize : 0 < callEachOther.size := by decide
  obtain ⟨-, hreturns, hrun⟩ := run_returns read (m := 3) (by decide)
  obtain ⟨c, result, hreach, hend, -, hresult⟩ :=
    hreturns (.eval (.list [.symbol "f"])) callEachOther 0 0
  have heval : ((Request.eval (.list [.symbol "f"])).run ⟨.ofInt 3, read⟩
      (callEachOther.scope 0)).result = .error (.recursionLimit "g" 3) := rfl
  rw [hrun, heval] at hresult
  rw [hresult hlinked hsize] at hend
  exact ⟨hlinked, hsize, c, hreach, hend⟩

/-- A module that loads itself, under whatever name. -/
def loadsItself : ModuleReader :=
  fun _ => .ok (Text.bytesOf "(load \"a\")")

theorem moduleScript_loadsItself (file : String) :
    moduleScript loadsItself file = .load "a" .done := by
  have hparse : parse (Text.bytesOf "(load \"a\")") = .ok (.list [.keyword .load, .str "a"]) := rfl
  rw [moduleScript, loadsItself]
  dsimp only
  rw [hparse]
  rfl

/-- Without a limit such a module is loaded again and again. -/
theorem not_terminates_unlimited (followed : Nat) {c : Config} {next : Value → Script Value}
    (hscript : c.script = .load "a" next) :
    ¬ c.Terminates loadsItself (.unlimited followed) := by
  intro h
  induction h generalizing next with
  | intro c _ ih =>
    have hstep : c.step loadsItself (.unlimited followed) =
        some (c.enterLoad loadsItself (.unlimited followed) "a" next) := by
      rw [Config.step, hscript]
    have hpath : modulePath "a" = .ok "a.lisp" := by rfl
    have hagain : (c.enterLoad loadsItself (.unlimited followed) "a" next).script =
        .load "a" .done := by
      simp [Config.enterLoad, hpath, Limit.stops, moduleScript_loadsItself]
    exact ih _ hstep hagain

end SmallLisp
