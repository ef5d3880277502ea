import Mathlib.Logic.Basic
import SmallLisp.Proofs.Eval.Correspondence
import SmallLisp.Proofs.Store.Frames

/-!
# Evaluation on shared frames

A *process* works on all frames of a store at once and may write into any of them.  This is how
scripts are carried out when frames are shared: names are looked up by walking from frame to frame,
a definition is written into the frame of the process, and a call makes a new frame, a clone of the
caller's, that is there from before the first argument is evaluated and gets its parameters one by
one in between.  The frames of calls stay in the store.

An evaluation, in contrast, sees one frame and what the frames around it answer, and cannot write
into those.  `Realizes x p` says that the process `p` does what the evaluation `x` does: it ends
with the same result and the same record, and the frames that were there before are those that
`Store.run` leaves.  Requests are realized one by one (`Realizes.correspondence`), so the two ways
of evaluating are the same on every level (`Request.realizes`).

In the middle of a call the two differ, since the frame of the call is in the store already and only
the process can write into it.  `RealizesBeside` says what holds there.
-/

namespace SmallLisp

/-- How a process ended. -/
structure Ending (α : Type) where
  /-- The result, or why there is none. -/
  result : Except Error α
  /-- All frames afterwards. -/
  store : Store
  /-- What happened, in order. -/
  record : List Activity

/-- Something to be done on the frames of a store, from the frame with a number. -/
def Process (α : Type) : Type :=
  Nat → Store → Ending α

namespace Process

variable {α β : Type}

/-- Does nothing. -/
protected def pure (a : α) : Process α :=
  fun _ s => ⟨.ok a, s, []⟩

/-- Does the first, then the second with its result. -/
protected def bind (p : Process α) (f : α → Process β) : Process β :=
  fun id s =>
    match p id s with
    | ⟨.error e, s', record⟩ => ⟨.error e, s', record⟩
    | ⟨.ok a, s', record⟩ =>
      match f a id s' with
      | ⟨result, s'', later⟩ => ⟨result, s'', record ++ later⟩

instance : Monad Process where
  pure := Process.pure
  bind := Process.bind

/-- Fails. -/
def fail (e : Error) : Process α :=
  fun _ s => ⟨.error e, s, []⟩

/-- Walks outward from the frame to the value of a name. -/
def lookup (name : String) : Process Value :=
  fun id s =>
    match s.get? id name with
    | some v => ⟨.ok v, s, []⟩
    | none => ⟨.error (.unbound name), s, []⟩

/-- Binds a name in the frame. -/
def define (name : String) (value : Value) : Process Unit :=
  fun id s => ⟨.ok (), s.set id name value, [.event (.defined name value)]⟩

/-- Notes an event. -/
def note (e : Event) : Process Unit :=
  fun _ s => ⟨.ok (), s, [.event e]⟩

/-- Does something inside a call or a load. -/
def nested (p : Process α) : Process α :=
  fun id s =>
    match p id s with
    | ⟨result, s', record⟩ => ⟨result, s', [.nested record]⟩

/-- Makes a clone of the frame; the result is its number. -/
def clone : Process Nat :=
  fun id s => ⟨.ok s.size, s.clone id, []⟩

/-- Binds a name in another frame. -/
def setIn (other : Nat) (name : String) (value : Value) : Process Unit :=
  fun _ s => ⟨.ok (), s.set other name value, []⟩

/-- The bindings of another frame. -/
def bindingsOf (other : Nat) : Process Bindings :=
  fun _ s => ⟨.ok (s.own other), s, []⟩

/-- Goes on in another frame. -/
def inFrame (other : Nat) (p : Process α) : Process α :=
  fun _ s => p other s

end Process

/-- Frames of calls are known by their number.  They are there from before the first argument is
evaluated, and parameters are written into them. -/
instance : Carrier Process Nat where
  fail := Process.fail
  lookup := Process.lookup
  define := Process.define
  print text := Process.note (.printed (text ++ "\n"))
  clone := Process.clone
  bindParam callee name value := do
    Process.setIn callee name value
    pure callee
  called name args callee := do
    let frame ← Process.bindingsOf callee
    Process.note (.called name args frame)
  inFrame := Process.inFrame
  fetch read file := do
    Process.note (.loading file)
    pure (read file)

/-- Levels of processes, with the error of a call or load for which there is none left. -/
def Process.gate (refusal : Nat → String → Error) : Gate Process where
  refuse depth what := .fail (refusal depth what)
  inside _ _ := .nested

/-- The level with `depth` calls and loads active and `room` further ones allowed. -/
def levelAt (read : ModuleReader) (refusal : Nat → String → Error) (room depth : Nat) :
    Level Process :=
  (Process.gate refusal).level read room depth

/-- Does what is asked on the frames of a store. -/
def Request.perform (i : Interpreter) (q : Request) : Process Value :=
  q.script.run (levelAt i.read i.limit.refusal i.limit.room 0)

/-! ## Realization -/

namespace Process

variable {α β : Type} {p : Process α} {f : α → Process β} {id : Nat} {s t : Store}
  {record : List Activity}

theorem bind_of_error {e : Error} (h : p id s = ⟨.error e, t, record⟩) :
    (p >>= f) id s = ⟨.error e, t, record⟩ := by
  change Process.bind p f id s = _
  rw [Process.bind, h]

theorem bind_of_ok {a : α} (h : p id s = ⟨.ok a, t, record⟩) :
    (p >>= f) id s =
      ⟨(f a id t).result, (f a id t).store, record ++ (f a id t).record⟩ := by
  change Process.bind p f id s = _
  rw [Process.bind, h]

end Process

section

variable {α β : Type}

/-- A process that started in a frame of a store did what an evaluation did: it ended with the same
result and record, the frame has the bindings that the evaluation left, and the other frames that
were there are as they were. -/
structure Follows (s : Store) (id : Nat) (o : Outcome α) (e : Ending α) : Prop where
  result : e.result = o.result
  record : e.record = o.record
  linked : e.store.Linked
  size : s.size ≤ e.store.size
  frames : ∀ j < s.size, e.store.frame? j = (s.setOwn id o.own).frame? j

/-- The process does what the evaluation does, in every frame of every linked store. -/
def Realizes (x : Evaluation α) (p : Process α) : Prop :=
  ∀ s id, s.Linked → id < s.size → Follows s id (x (s.scope id)) (p id s)

/-- Afterwards the frame sees what the evaluation would go on with. -/
theorem Follows.scope {s : Store} {id : Nat} {o : Outcome α} {e : Ending α}
    (h : Follows s id o e) (hs : s.Linked) (hid : id < s.size) :
    e.store.scope id = { s.scope id with own := o.own } := by
  obtain ⟨f, hf⟩ := Store.exists_frame? hid
  have hg : e.store.frame? id = some { f with own := o.own } := by
    rw [h.frames id hid, Store.frame?_setOwn, if_pos rfl, hf]
    rfl
  refine Store.scope_eq hs h.linked hf hg rfl fun k hk => ?_
  rw [h.frames k (Nat.lt_trans hk hid), Store.frame?_setOwn, if_neg (Nat.ne_of_lt hk)]

/-- What leaves all frames alone follows what leaves the bindings alone. -/
theorem follows_same {s : Store} (hs : s.Linked) (id : Nat) (result : Except Error α)
    (record : List Activity) :
    Follows s id ⟨result, (s.scope id).own, record⟩ ⟨result, s, record⟩ where
  result := rfl
  record := rfl
  linked := hs
  size := Nat.le_refl _
  frames j _ := (s.frame?_setOwn_own id j).symm

theorem Realizes.bind {x : Evaluation α} {p : Process α} {f : α → Evaluation β}
    {g : α → Process β} (hx : Realizes x p) (hf : ∀ a, Realizes (f a) (g a)) :
    Realizes (x >>= f) (p >>= g) := by
  intro s id hs hid
  have hfirst := hx s id hs hid
  have hscope := hfirst.scope hs hid
  obtain ⟨hresult, hrecord, hlinked, hsize, hframes⟩ := hfirst
  rcases ho : x (s.scope id) with ⟨result, own, record⟩
  rcases he : p id s with ⟨result', t, record'⟩
  simp only [ho, he] at hresult hrecord hlinked hsize hframes hscope
  subst hresult hrecord
  cases result' with
  | error e =>
    rw [Evaluation.bind_of_error ho, Process.bind_of_error he]
    exact ⟨rfl, rfl, hlinked, hsize, hframes⟩
  | ok a =>
    have hsecond := hf a t id hlinked (Nat.lt_of_lt_of_le hid hsize)
    rw [hscope] at hsecond
    rw [Evaluation.bind_of_ok ho, Process.bind_of_ok he]
    refine ⟨hsecond.result, ?_, hsecond.linked, Nat.le_trans hsize hsecond.size, fun j hj => ?_⟩
    · rw [hsecond.record]
    · rw [hsecond.frames j (Nat.lt_of_lt_of_le hj hsize)]
      exact Store.frame?_setOwn_of_frame? (hframes id hid) (hframes j hj) _

theorem realizes_pure (a : α) : Realizes (pure a) (pure a) :=
  fun _ id hs _ => follows_same hs id _ _

theorem realizes_fail (e : Error) : Realizes (.fail e : Evaluation α) (.fail e) :=
  fun _ id hs _ => follows_same hs id _ _

theorem realizes_note (e : Event) : Realizes (.note e) (.note e) :=
  fun _ id hs _ => follows_same hs id _ _

theorem realizes_lookup (name : String) : Realizes (.lookup name) (.lookup name) := by
  intro s id hs hid
  rw [Evaluation.lookup, Process.lookup, Store.get?_scope hs hid]
  cases s.get? id name with
  | some v => exact follows_same hs id _ _
  | none => exact follows_same hs id _ _

theorem realizes_define (name : String) (value : Value) :
    Realizes (.define name value) (.define name value) := by
  intro s id hs _
  exact ⟨rfl, rfl, Store.linked_setOwn hs id _, Nat.le_of_eq (Store.size_setOwn s id _).symm,
    fun j _ => rfl⟩

theorem Realizes.nested {x : Evaluation α} {p : Process α} (h : Realizes x p) :
    Realizes (.nested x) (.nested p) := by
  intro s id hs hid
  obtain ⟨hresult, hrecord, hlinked, hsize, hframes⟩ := h s id hs hid
  refine ⟨hresult, ?_, hlinked, hsize, hframes⟩
  simp only [Evaluation.nested, Process.nested, hrecord]

/-! ## Calls -/

/-- A process that started in the middle of a call, in the caller's frame, did what an evaluation
did, but for the frame of the call. -/
structure FollowsBeside (callee : Nat) (s : Store) (id : Nat) (o : Outcome α) (e : Ending α) :
    Prop where
  result : e.result = o.result
  record : e.record = o.record
  linked : e.store.Linked
  size : s.size ≤ e.store.size
  frames : ∀ j < s.size, j ≠ callee → e.store.frame? j = (s.setOwn id o.own).frame? j

/-- The frame of a call: it lies where the caller's frame lies, and has bindings of its own. -/
def Store.calleeFrame (s : Store) (id : Nat) (own : Bindings) : Frame :=
  ⟨(s.frame? id).bind Frame.parent, own⟩

/-- The store is in the middle of a call from a frame: the frame of the call is newer, and has these
bindings so far. -/
structure Store.Calling (s : Store) (id callee : Nat) (own : Bindings) : Prop where
  newer : id < callee
  frame : s.frame? callee = some (s.calleeFrame id own)

namespace Store.Calling

variable {s t : Store} {id callee : Nat} {own : Bindings}

theorem lt_size (h : s.Calling id callee own) : callee < s.size :=
  lt_size_of_frame? h.frame

theorem caller_lt_size (h : s.Calling id callee own) : id < s.size :=
  Nat.lt_trans h.newer h.lt_size

/-- The frame of a call sees around it what the caller's frame sees around it. -/
theorem scope (h : s.Calling id callee own) (hs : s.Linked) :
    s.scope callee = { s.scope id with own := own } := by
  obtain ⟨f, hf⟩ := exists_frame? h.caller_lt_size
  refine scope_eq hs hs hf h.frame ?_ fun _ _ => rfl
  rw [calleeFrame, hf]
  rfl

/-- A call starts with a clone of the caller's frame. -/
theorem clone {s : Store} {id : Nat} (hid : id < s.size) :
    (s.clone id).Calling id s.size (s.own id) := by
  obtain ⟨f, hf⟩ := exists_frame? hid
  have hclone : (s.clone id).calleeFrame id (s.own id) = f := by
    rw [calleeFrame, s.frame?_clone_of_lt id hid, hf, own_eq hf]
    rfl
  refine ⟨hid, ?_⟩
  rw [hclone]
  exact frame?_clone_size hf

/-- A parameter is written into the frame of the call. -/
theorem set (h : s.Calling id callee own) (name : String) (value : Value) :
    (s.set callee name value).Calling id callee (own.set name value) := by
  have hcaller : (s.set callee name value).frame? id = s.frame? id := by
    rw [Store.set, frame?_setOwn, if_neg (Nat.ne_of_lt h.newer)]
  refine ⟨h.newer, ?_⟩
  rw [calleeFrame, hcaller, Store.set, frame?_setOwn, if_pos rfl, h.frame, own_eq h.frame]
  rfl

/-- An argument leaves the frame of the call alone. -/
theorem follows (h : s.Calling id callee own) {o : Outcome α} {e : Ending α}
    (he : Follows s id o e) : e.store.Calling id callee own := by
  have hcallee := he.frames callee h.lt_size
  have hcaller := he.frames id h.caller_lt_size
  rw [frame?_setOwn, if_neg (Nat.ne_of_gt h.newer)] at hcallee
  rw [frame?_setOwn, if_pos rfl] at hcaller
  refine ⟨h.newer, ?_⟩
  rw [hcallee, h.frame, calleeFrame, calleeFrame, hcaller]
  cases s.frame? id <;> rfl

end Store.Calling

/-- In the middle of a call whose frame has these bindings so far, the process does what the
evaluation does, but for the frame of the call. -/
def RealizesBeside (own : Bindings) (callee : Nat) (x : Evaluation α) (p : Process α) : Prop :=
  ∀ s id, s.Linked → s.Calling id callee own →
    FollowsBeside callee s id (x (s.scope id)) (p id s)

/-- After an argument the call goes on. -/
theorem RealizesBeside.argument {own : Bindings} {callee : Nat} {x : Evaluation α} {p : Process α}
    {f : α → Evaluation β} {g : α → Process β} (hx : Realizes x p)
    (hf : ∀ a, RealizesBeside own callee (f a) (g a)) :
    RealizesBeside own callee (x >>= f) (p >>= g) := by
  intro s id hs hcalling
  have hid := hcalling.caller_lt_size
  have hfirst := hx s id hs hid
  have hscope := hfirst.scope hs hid
  have hstill := hcalling.follows hfirst
  obtain ⟨hresult, hrecord, hlinked, hsize, hframes⟩ := hfirst
  rcases ho : x (s.scope id) with ⟨result, own', record⟩
  rcases he : p id s with ⟨result', t, record'⟩
  simp only [ho, he] at hresult hrecord hlinked hsize hframes hscope hstill
  subst hresult hrecord
  cases result' with
  | error e =>
    rw [Evaluation.bind_of_error ho, Process.bind_of_error he]
    exact ⟨rfl, rfl, hlinked, hsize, fun j hj _ => hframes j hj⟩
  | ok a =>
    have hsecond := hf a t id hlinked hstill
    rw [hscope] at hsecond
    rw [Evaluation.bind_of_ok ho, Process.bind_of_ok he]
    refine ⟨hsecond.result, ?_, hsecond.linked, Nat.le_trans hsize hsecond.size, fun j hj hne => ?_⟩
    · rw [hsecond.record]
    · rw [hsecond.frames j (Nat.lt_of_lt_of_le hj hsize) hne]
      exact Store.frame?_setOwn_of_frame? (hframes id hid) (hframes j hj) _

/-- The value of an argument is written into the frame of the call, where the arguments that follow
do not see it. -/
theorem RealizesBeside.bindParam {own : Bindings} {callee : Nat} {name : String} {value : Value}
    {x : Evaluation α} {p : Process α} (h : RealizesBeside (own.set name value) callee x p) :
    RealizesBeside own callee x (Process.setIn callee name value >>= fun _ => p) := by
  intro s id hs hcalling
  have hid := hcalling.caller_lt_size
  have hset : ∀ own' : Bindings, ∀ j, j ≠ callee →
      ((s.set callee name value).setOwn id own').frame? j = (s.setOwn id own').frame? j := by
    intro own' j hne
    simp only [Store.set, Store.frame?_setOwn, if_neg hne, if_neg (Nat.ne_of_lt hcalling.newer)]
  have hnext := h (s.set callee name value) id (Store.linked_setOwn hs callee _)
    (hcalling.set name value)
  have hscope : (s.set callee name value).scope id = s.scope id :=
    Store.scope_setOwn_of_lt hs hid hcalling.newer _
  have hsize : (s.set callee name value).size = s.size := Store.size_setOwn s callee _
  rw [hscope] at hnext
  refine ⟨hnext.result, hnext.record, hnext.linked, hsize ▸ hnext.size, fun j hj hne => ?_⟩
  exact (hnext.frames j (hsize ▸ hj) hne).trans (hset _ j hne)

/-- The body of a call runs in the frame of the call, and in a scope with the bindings of that
frame. -/
theorem Realizes.body {x : Evaluation Value} {p : Process Value} (h : Realizes x p) (name : String)
    (args : List Value) (own : Bindings) (callee : Nat) :
    RealizesBeside own callee
      (Evaluation.note (.called name args own) >>= fun _ => .inFrame own x)
      (Carrier.called name args callee >>= fun _ => .inFrame callee p) := by
  intro s id hs hcalling
  have hbody := h s callee hs hcalling.lt_size
  rw [hcalling.scope hs] at hbody
  have hown : s.own callee = own := Store.own_eq hcalling.frame
  refine ⟨hbody.result, ?_, hbody.linked, hbody.size, fun j hj hne => ?_⟩
  · change _ :: (p callee s).record = _ :: _
    rw [hbody.record, hown]
    rfl
  · refine (hbody.frames j hj).trans ?_
    rw [Store.frame?_setOwn, if_neg hne]
    exact (s.frame?_setOwn_own id j).symm

/-- A call as a whole touches no frame that was there but the caller's. -/
theorem RealizesBeside.call {f : Bindings → Evaluation α} {g : Nat → Process α}
    (h : ∀ own callee, RealizesBeside own callee (f own) (g callee)) :
    Realizes (Evaluation.ownBindings >>= f) (Process.clone >>= g) := by
  intro s id hs hid
  have hcall := h (s.own id) s.size (s.clone id) id (Store.linked_clone hs hid) (.clone hid)
  -- The clone is there while the arguments are evaluated, but the caller's frame does not see it.
  rw [Store.scope_clone hs hid] at hcall
  refine ⟨hcall.result, hcall.record, hcall.linked, Nat.le_of_succ_le hcall.size, fun j hj => ?_⟩
  refine (hcall.frames j (Nat.lt_succ_of_lt hj) (Nat.ne_of_lt hj)).trans ?_
  simp only [Store.frame?_setOwn, s.frame?_clone_of_lt id hj, s.frame?_clone_of_lt id hid]
  rfl

/-- Requests are realized one by one. -/
theorem Realizes.correspondence : Correspondence .any Realizes RealizesBeside where
  done _ := realizes_pure _
  fail _ := realizes_fail _
  lookup name hf := (realizes_lookup name).bind fun v => hf v trivial
  define _ _ hx := (realizes_define _ _).bind fun _ => hx
  print _ hx := (realizes_note _).bind fun _ => hx
  bind hx hf := hx.bind fun v => hf v trivial
  fetch _ _ hf := (realizes_note _).bind fun _ => hf _
  clone hf := RealizesBeside.call hf
  argument hx hf := .argument hx fun v => hf v trivial
  bindParam _ _ hf := .bindParam (hf _ _)
  body name args own callee hx := hx.body name args own callee

end

theorem related_levelAt (read : ModuleReader) (refusal : Nat → String → Error) (room depth : Nat) :
    Level.Related .any Realizes Realizes (contextAt read refusal room depth)
      (levelAt read refusal room depth) := by
  refine Gate.related (S := fun _ => Realizes) (k := 0) Discipline.sound_any
    (fun _ => Realizes.correspondence) (fun what => realizes_fail _) ?_ read room depth rfl
  intro d _ what x p h
  rw [Evaluation.inside_gate]
  exact h.nested

/-- Carrying a script out on shared frames is running it in a scope, on every level. -/
theorem Script.realizes (read : ModuleReader) (refusal : Nat → String → Error) (room depth : Nat)
    (x : Script Value) :
    Realizes (x.run (contextAt read refusal room depth)) (x.run (levelAt read refusal room depth)) :=
  Realizes.correspondence.run Realizes.correspondence Discipline.sound_any
    (related_levelAt read refusal room depth) x.obeys_any

/-- A call on shared frames does what a call in a scope does, on every level. -/
theorem Level.realizes_call (read : ModuleReader) (refusal : Nat → String → Error)
    (room depth : Nat) (name : String) (params : List String) (body args : List Value) :
    Realizes ((contextAt read refusal room depth).call name params body args)
      ((levelAt read refusal room depth).call name params body args) :=
  (related_levelAt read refusal room depth).call Discipline.sound_any Realizes.correspondence
    Realizes.correspondence name trivial fun _ _ => trivial

/-- Doing what is asked on shared frames is doing it in a scope. -/
theorem Request.realizes (i : Interpreter) (q : Request) :
    Realizes (q.run i) (q.perform i) := by
  rw [Request.run_eq]
  exact Script.realizes i.read i.limit.refusal i.limit.room 0 q.script

end SmallLisp
