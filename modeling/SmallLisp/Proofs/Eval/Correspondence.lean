import SmallLisp.Proofs.Eval.Discipline
import SmallLisp.Proofs.ModulePath

/-!
# Two ways of carrying scripts out

A *correspondence* relates what is done in one carrier to what is done in another.  It has a clause
for each kind of request, and clauses for what a call is made of: a copy of the frame, parameters
that are bound while arguments are evaluated, and a body that runs in the frame of the call.  The
frames of a call need not be known in the same way on the two sides, so what is done with a frame
that is not yet complete is related by a relation of its own.

From these clauses calls and loads are related if the levels below are, scripts are if calls and
loads are (`Correspondence.run`), and levels are by induction on the room (`Gate.related`).  So each
statement about runs is proved by what it says about single requests.

An invariant of one carrier is a correspondence on the diagonal.  Where the relation is there at
every type and frames are known in the same way, the clauses become those of a `Congruence`.
-/

namespace SmallLisp

section

variable {m m' : Type → Type} {φ φ' : Type} [Monad m] [Carrier m φ] [Monad m'] [Carrier m' φ']

/-- What is related by `S` at the start of a request is related after it.  What is done while the
frame of a call is put together is related by `T`. -/
structure Correspondence (D : Discipline) (S : m Value → m' Value → Prop)
    (T : φ → φ' → m Value → m' Value → Prop) : Prop where
  done {v : Value} : D.value v → S (pure v) (pure v)
  fail {e : Error} : D.error e → S (Carrier.fail e) (Carrier.fail e)
  lookup {f : Value → m Value} {g : Value → m' Value} (name : String) :
    (∀ v, D.value v → S (f v) (g v)) → S (Carrier.lookup name >>= f) (Carrier.lookup name >>= g)
  define {x : m Value} {y : m' Value} {name : String} {value : Value} :
    D.node (.symbol name) → D.value value → S x y →
      S (Carrier.define name value >>= fun _ => x) (Carrier.define name value >>= fun _ => y)
  print {x : m Value} {y : m' Value} (text : String) : S x y →
    S (Carrier.print text >>= fun _ => x) (Carrier.print text >>= fun _ => y)
  bind {x : m Value} {y : m' Value} {f : Value → m Value} {g : Value → m' Value} :
    S x y → (∀ v, D.value v → S (f v) (g v)) → S (x >>= f) (y >>= g)
  fetch {f : Except String (List UInt8) → m Value} {g : Except String (List UInt8) → m' Value}
    {file : String} (read : ModuleReader) : isSourceFile file = true →
      (∀ answer, S (f answer) (g answer)) →
        S (Carrier.fetch read file >>= f) (Carrier.fetch read file >>= g)
  clone {f : φ → m Value} {g : φ' → m' Value} :
    (∀ frame frame', T frame frame' (f frame) (g frame')) →
      S (Carrier.clone >>= f) (Carrier.clone >>= g)
  argument {frame : φ} {frame' : φ'} {x : m Value} {y : m' Value} {f : Value → m Value}
    {g : Value → m' Value} : S x y → (∀ v, D.value v → T frame frame' (f v) (g v)) →
      T frame frame' (x >>= f) (y >>= g)
  bindParam {frame : φ} {frame' : φ'} {f : φ → m Value} {g : φ' → m' Value} {name : String}
    {value : Value} : D.node (.symbol name) → D.value value →
      (∀ frame frame', T frame frame' (f frame) (g frame')) →
        T frame frame' (Carrier.bindParam frame name value >>= f)
          (Carrier.bindParam frame' name value >>= g)
  body {x : m Value} {y : m' Value} (name : String) (args : List Value) (frame : φ) (frame' : φ') :
    S x y → T frame frame'
      (Carrier.called name args frame >>= fun _ => Carrier.inFrame frame x)
      (Carrier.called name args frame' >>= fun _ => Carrier.inFrame frame' y)

/-- Levels read modules in the same way, and what is described to them with evaluations related by
`S'` is related by `S`. -/
structure Level.Related (D : Discipline) (S S' : m Value → m' Value → Prop) (l : Level m)
    (l' : Level m') : Prop where
  read : l.read = l'.read
  enter (what : String) {body : (Value → m Value) → m Value}
      {body' : (Value → m' Value) → m' Value} :
    (∀ {run : Value → m Value} {run' : Value → m' Value},
      (∀ v, D.node v → S' (run v) (run' v)) → S' (body run) (body' run')) →
    S (l.enter what body) (l'.enter what body')

section

variable {D : Discipline} {S S' : m Value → m' Value → Prop}
  {T T' : φ → φ' → m Value → m' Value → Prop}

theorem Correspondence.bindArgs (hS : Correspondence D S T) {run : Value → m Value}
    {run' : Value → m' Value} (hrun : ∀ v, D.node v → S (run v) (run' v)) {next : φ → m Value}
    {next' : φ' → m' Value}
    (hnext : ∀ frame frame', T frame frame' (next frame) (next' frame')) {params : List String}
    (hparams : ∀ name ∈ params, D.node (.symbol name)) {args : List Value}
    (hargs : ∀ v ∈ args, D.node v) (frame : φ) (frame' : φ') :
    T frame frame' (SmallLisp.bindArgs run next frame params args)
      (SmallLisp.bindArgs run' next' frame' params args) := by
  induction params generalizing args frame frame' with
  | nil => exact hnext frame frame'
  | cons param params ih =>
    cases args with
    | nil => exact hnext frame frame'
    | cons arg args =>
      obtain ⟨hparam, hparams⟩ := List.forall_mem_cons.1 hparams
      obtain ⟨harg, hargs⟩ := List.forall_mem_cons.1 hargs
      refine hS.argument (hrun arg harg) fun v hv => hS.bindParam hparam hv ?_
      exact fun frame frame' => ih hparams hargs frame frame'

namespace Level.Related

variable {l : Level m} {l' : Level m'}

/-- Calls are related if what they are made of is, one level deeper. -/
theorem call (h : Level.Related D S S' l l') (hD : D.Sound) (hS : Correspondence D S T)
    (hS' : Correspondence D S' T') (name : String) {params : List String} {body args : List Value}
    (hlambda : D.value (.lambda params body)) (hargs : ∀ v ∈ args, D.node v) :
    S (l.call name params body args) (l'.call name params body args) := by
  unfold Level.call
  split
  · exact hS.fail (hD.error _ nofun nofun)
  · refine h.enter name fun {run run'} hrun => hS'.clone fun frame frame' => ?_
    refine hS'.bindArgs hrun ?_ (hD.params hlambda) hargs frame frame'
    exact fun frame frame' => hS'.body name args frame frame' (hrun _ (hD.body hlambda))

/-- Loads are related if what they read is, one level deeper. -/
theorem load (h : Level.Related D S S' l l') (hD : D.Sound) (hS : Correspondence D S T)
    (hS' : Correspondence D S' T') (path : String) : S (l.load path) (l'.load path) := by
  unfold Level.load
  rw [← h.read]
  cases hpath : modulePath path with
  | error e => exact hS.fail (ordinary_modulePath hD.error hpath)
  | ok file =>
    refine h.enter ("load " ++ file) fun {run run'} hrun => ?_
    refine hS'.fetch l.read (isSourceFile_of_modulePath hpath) fun answer => ?_
    cases answer with
    | error reason => exact hS'.fail (hD.error _ nofun nofun)
    | ok bytes =>
      dsimp only
      cases hparse : parse bytes with
      | error e => exact hS'.fail (ordinary_read hD.error e)
      | ok program => exact hrun program (hD.parsed hparse)

end Level.Related

/-- Carrying a script out is related to carrying it out on a related level. -/
theorem Correspondence.run (hS : Correspondence D S T) (hS' : Correspondence D S' T') (hD : D.Sound)
    {l : Level m} {l' : Level m'} (h : Level.Related D S S' l l') {x : Script Value}
    (hx : x.Obeys D D.value) : S (x.run l) (x.run l') := by
  induction x with
  | done v => exact hS.done hx
  | fail e => exact hS.fail hx
  | lookup name next ih => exact hS.lookup name fun v hv => ih v (hx v hv)
  | define name value next ih => exact hS.define hx.1 hx.2.1 (ih hx.2.2)
  | print text next ih => exact hS.print text (ih hx)
  | call name params body args next ih =>
    exact hS.bind (h.call hD hS hS' name hx.1 hx.2.1) fun v hv => ih v (hx.2.2 v hv)
  | load path next ih => exact hS.bind (h.load hD hS hS' path) fun v hv => ih v (hx v hv)

/-- Levels are related, and so is what is done with a script on them: by induction on the room, of
which none is left with `total` calls and loads active.  The second gate may count `k` more. -/
theorem Gate.related {S : Nat → m Value → m' Value → Prop}
    {T : Nat → φ → φ' → m Value → m' Value → Prop} (hD : D.Sound)
    (hS : ∀ depth, Correspondence D (S depth) (T depth)) {gate : Gate m} {gate' : Gate m'}
    {total k : Nat}
    (hrefuse : ∀ what, S total (gate.refuse total what) (gate'.refuse (total + k) what))
    (hinside : ∀ depth < total, ∀ what {x : m Value} {y : m' Value}, S (depth + 1) x y →
      S depth (gate.inside depth what x) (gate'.inside (depth + k) what y)) (read : ModuleReader) :
    ∀ room depth, depth + room = total →
      Level.Related D (S depth) (S (depth + 1)) (gate.level read room depth)
        (gate'.level read room (depth + k))
  | 0, depth, h => by
    obtain rfl : depth = total := h
    exact ⟨rfl, fun what _ _ _ => hrefuse what⟩
  | room + 1, depth, h => by
    have hdeeper := Gate.related hD hS hrefuse hinside read room (depth + 1) (by omega)
    rw [Nat.add_right_comm depth 1 k] at hdeeper
    refine ⟨rfl, fun what body body' hbody => hinside depth (by omega) what (hbody fun v hv => ?_)⟩
    exact (hS _).run (hS _) hD hdeeper (Script.obeys_ofValue hD v hv)

/-- Carrying a script out is related on all levels. -/
theorem Gate.run_related {S : Nat → m Value → m' Value → Prop}
    {T : Nat → φ → φ' → m Value → m' Value → Prop} (hD : D.Sound)
    (hS : ∀ depth, Correspondence D (S depth) (T depth)) {gate : Gate m} {gate' : Gate m'}
    {room depth k : Nat}
    (hrefuse : ∀ what,
      S (depth + room) (gate.refuse (depth + room) what) (gate'.refuse (depth + room + k) what))
    (hinside : ∀ d < depth + room, ∀ what {x : m Value} {y : m' Value}, S (d + 1) x y →
      S d (gate.inside d what x) (gate'.inside (d + k) what y)) (read : ModuleReader)
    {x : Script Value} (hx : x.Obeys D D.value) :
    S depth (x.run (gate.level read room depth)) (x.run (gate'.level read room (depth + k))) :=
  (hS _).run (hS _) hD (Gate.related hD hS hrefuse hinside read room depth rfl) hx

end

end

/-- What every request keeps is kept on all levels. -/
theorem Correspondence.level {m : Type → Type} {φ : Type} [Monad m] [Carrier m φ] {D : Discipline}
    {S : m Value → m Value → Prop} {T : φ → φ → m Value → m Value → Prop}
    (hS : Correspondence D S T) (hD : D.Sound) {gate : Gate m}
    (hrefuse : ∀ depth what, S (gate.refuse depth what) (gate.refuse depth what))
    (hinside : ∀ depth what {x y : m Value}, S x y →
      S (gate.inside depth what x) (gate.inside depth what y)) (read : ModuleReader)
    (room depth : Nat) {x : Script Value} (hx : x.Obeys D D.value) :
    S (x.run (gate.level read room depth)) (x.run (gate.level read room depth)) :=
  Gate.run_related (S := fun _ => S) (k := 0) hD (fun _ => hS) (fun what => hrefuse _ what)
    (fun d _ what _ _ h => hinside d what h) read hx

/-! ## Congruences -/

section

variable {m m' : Type → Type} {φ : Type} [Monad m] [Carrier m φ] [Monad m'] [Carrier m' φ]

/-- The relation is there for results of every type, and is kept by everything that a carrier does.
Both carriers know frames in the same way. -/
structure Congruence (P : Error → Prop) (R : ∀ {α : Type}, m α → m' α → Prop) : Prop where
  pure {α : Type} (a : α) : R (pure a) (pure a)
  bind {α β : Type} {x : m α} {y : m' α} {f : α → m β} {g : α → m' β} :
    R x y → (∀ a, R (f a) (g a)) → R (x >>= f) (y >>= g)
  fail {α : Type} {e : Error} : P e → R (Carrier.fail e : m α) (Carrier.fail e)
  lookup (name : String) : R (Carrier.lookup name : m Value) (Carrier.lookup name)
  define (name : String) (value : Value) :
    R (Carrier.define name value : m Unit) (Carrier.define name value)
  print (text : String) : R (Carrier.print text : m Unit) (Carrier.print text)
  clone : R (Carrier.clone : m φ) Carrier.clone
  bindParam (frame : φ) (name : String) (value : Value) :
    R (Carrier.bindParam frame name value : m φ) (Carrier.bindParam frame name value)
  called (name : String) (args : List Value) (frame : φ) :
    R (Carrier.called name args frame : m Unit) (Carrier.called name args frame)
  inFrame {x : m Value} {y : m' Value} (frame : φ) :
    R x y → R (Carrier.inFrame frame x) (Carrier.inFrame frame y)
  fetch {file : String} (read : ModuleReader) : isSourceFile file = true →
    R (Carrier.fetch read file : m _) (Carrier.fetch read file)

/-- A congruence is a correspondence in which the frames of calls are the same. -/
theorem Congruence.correspondence {P : Error → Prop} {R : ∀ {α : Type}, m α → m' α → Prop}
    (h : Congruence P @R) :
    Correspondence (.failing P) (fun (x : m Value) (y : m' Value) => R x y)
      (fun frame frame' x y => frame = frame' → R x y) where
  done _ := h.pure _
  fail he := h.fail he
  lookup name hf := h.bind (h.lookup name) fun v => hf v trivial
  define _ _ hx := h.bind (h.define _ _) fun _ => hx
  print text hx := h.bind (h.print text) fun _ => hx
  bind hx hf := h.bind hx fun v => hf v trivial
  fetch read hfile hf := h.bind (h.fetch read hfile) hf
  clone hf := h.bind h.clone fun frame => hf frame frame rfl
  argument hx hf heq := h.bind hx fun v => hf v trivial heq
  bindParam _ _ hf := by
    rintro rfl
    exact h.bind (h.bindParam _ _ _) fun frame => hf frame frame rfl
  body name args frame frame' hx := by
    rintro rfl
    exact h.bind (h.called name args frame) fun _ => h.inFrame frame hx

end

/-! ## Evaluations -/

theorem Evaluation.inside_gate (refusal : Nat → String → Error) (depth : Nat) (what : String)
    (x : Evaluation Value) : (gate refusal).inside depth what x = .nested x := by
  funext s
  exact atLevel_eq (depth + 1) fun _ => Evaluation.nested x s

section

variable {D : Discipline} {S : Evaluation Value → Evaluation Value → Prop}
  {T : Bindings → Bindings → Evaluation Value → Evaluation Value → Prop}

/-- Evaluations on two towers of levels are related if refusals are, and what is done inside calls
and loads is. -/
theorem Correspondence.contextAt (hS : Correspondence D S T) (hD : D.Sound)
    (hnested : ∀ {x y}, S x y → S (.nested x) (.nested y)) {refusal refusal' : Nat → String → Error}
    {room depth k : Nat}
    (hrefusal : ∀ what,
      S (.fail (refusal (depth + room) what)) (.fail (refusal' (depth + room + k) what)))
    (read : ModuleReader) {x : Script Value} (hx : x.Obeys D D.value) :
    S (x.run (SmallLisp.contextAt read refusal room depth))
      (x.run (SmallLisp.contextAt read refusal' room (depth + k))) := by
  refine Gate.run_related (S := fun _ => S) hD (fun _ => hS) hrefusal ?_ read hx
  intro d _ what x y hxy
  rw [Evaluation.inside_gate, Evaluation.inside_gate]
  exact hnested hxy

/-- An invariant of evaluations holds of what is asked. -/
theorem Correspondence.request (hS : Correspondence D S T) (hD : D.Sound)
    (hnested : ∀ {x y}, S x y → S (.nested x) (.nested y)) (i : Interpreter)
    (hrefusal : ∀ depth what, D.error (i.limit.refusal depth what)) {q : Request}
    (hq : ∀ v, q = .eval v → D.node v) : S (q.run i) (q.run i) := by
  rw [Request.run_eq]
  refine hS.level hD (fun depth what => hS.fail (hrefusal depth what)) (fun depth what _ _ h => ?_)
    i.read i.limit.room 0 (Request.obeys_script hD hq)
  rw [Evaluation.inside_gate, Evaluation.inside_gate]
  exact hnested h

end

end SmallLisp
