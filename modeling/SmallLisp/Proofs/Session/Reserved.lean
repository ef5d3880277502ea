import Mathlib.Logic.Basic
import SmallLisp.Proofs.Session.Reset

/-!
# Reserved names

No program can bind one of the eight reserved names.  The reader never makes a symbol of one,
`define` and `lambda` bind symbols only, and the base frame is never written; each would be of no
use without the others.

A store is *guarded* when its first frame binds the truth values and every other frame lies inside
it and binds only names that are not reserved.  `Guards` says of a machine that it goes from guarded
stores through guarded stores only.  Machines do where syntax and data are kept apart
(`Guards.correspondence`), since what is bound then are symbols that can be read.  `serve_reserves`
is what follows for all that a session ever does: at no time has any frame, be it the user's or one
of a call, bound a reserved name.
-/

namespace SmallLisp

/-! ## Guarded stores -/

/-- Only names that are not reserved are bound, and to runtime values. -/
def Bindings.Fit (b : Bindings) : Prop :=
  ∀ name v, b.get? name = some v → (∀ k ∈ Keyword.named, k.name ≠ name) ∧ Runtime v

theorem Bindings.fit_empty : Bindings.empty.Fit := by
  intro name v hv
  cases hv

/-- A symbol that can be read is not reserved, so it can be bound. -/
theorem Bindings.Fit.set {b : Bindings} (h : b.Fit) {name : String} (hn : Readable (.symbol name))
    {value : Value} (hv : Runtime value) : (b.set name value).Fit := by
  intro other v hother
  rw [Bindings.get?_set] at hother
  split at hother
  · next heq =>
    cases hother
    cases hn with
    | symbol _ _ _ hk => exact ⟨heq ▸ hk, hv⟩
  · exact h other v hother

/-- A reserved name is not bound. -/
theorem Bindings.Fit.get?_eq_none {b : Bindings} (h : b.Fit) {k : Keyword}
    (hk : k ∈ Keyword.named) : b.get? k.name = none := by
  cases hv : b.get? k.name with
  | none => rfl
  | some v => exact absurd rfl ((h _ v hv).1 k hk)

namespace Store

/-- The first frame binds the truth values.  The others lie inside it and bind no reserved name. -/
structure Guarded (s : Store) : Prop where
  base : s.frame? 0 = some ⟨none, .withBooleans .empty⟩
  others : ∀ id f, 0 < id → s.frame? id = some f → f.parent = some 0 ∧ f.own.Fit

namespace Guarded

variable {s : Store} {id : Nat}

/-- A guarded store is linked: every frame but the first lies inside the first. -/
theorem linked (h : s.Guarded) : s.Linked := by
  intro id f p hf hp
  rcases Nat.eq_zero_or_pos id with rfl | hid
  · rw [h.base] at hf
    cases hf
    cases hp
  · rw [(h.others id f hid hf).1] at hp
    cases hp
    exact hid

/-- What a frame other than the first binds is fit. -/
theorem fit_own (h : s.Guarded) (hid : 0 < id) : (s.own id).Fit := by
  rw [own]
  cases hf : s.frame? id with
  | none => exact Bindings.fit_empty
  | some f => exact (h.others id f hid hf).2

/-- A further frame inside the first, with fit bindings. -/
theorem push (h : s.Guarded) {f : Frame} (hp : f.parent = some 0) (hf : f.own.Fit) :
    (s.push f).Guarded := by
  have hsize := lt_size_of_frame? h.base
  refine ⟨?_, fun j g hj hg => ?_⟩
  · rw [frame?_push, if_neg (Nat.ne_of_lt hsize), h.base]
  · rw [frame?_push] at hg
    split at hg
    · cases hg
      exact ⟨hp, hf⟩
    · exact h.others j g hj hg

/-- A new frame for the user. -/
theorem enclose (h : s.Guarded) : (s.enclose 0).Guarded :=
  h.push rfl Bindings.fit_empty

/-- A new frame for a call. -/
theorem clone (h : s.Guarded) (hid : 0 < id) (hlt : id < s.size) : (s.clone id).Guarded := by
  obtain ⟨f, hf⟩ := exists_frame? hlt
  obtain ⟨hparent, hfit⟩ := h.others id f hid hf
  rw [Store.clone, hf]
  exact h.push hparent hfit

/-- Binding a symbol in a frame other than the first. -/
theorem set (h : s.Guarded) (hid : 0 < id) {name : String} (hn : Readable (.symbol name))
    {value : Value} (hv : Runtime value) : (s.set id name value).Guarded := by
  have hfit := (h.fit_own hid).set hn hv
  refine ⟨?_, fun j g hj hg => ?_⟩
  · rw [Store.set, frame?_setOwn, if_neg (Nat.ne_of_lt hid), h.base]
  · rw [Store.set, frame?_setOwn] at hg
    split at hg
    · obtain ⟨f, hf, rfl⟩ := Option.map_eq_some_iff.1 hg
      exact ⟨(h.others id f hid hf).1, hfit⟩
    · exact h.others j g hj hg

/-- A frame sees its own bindings and the truth values. -/
theorem get?_eq (h : s.Guarded) (hid : id < s.size) (name : String) :
    s.get? id name = ((if id = 0 then .empty else s.own id).get? name).or
      (Bindings.empty.withBooleans.get? name) := by
  have hbase : s.get? 0 name = Bindings.empty.withBooleans.get? name := by
    rw [Store.get?_eq h.linked h.base, Option.bind_none, Option.or_none]
  split
  · next h0 =>
    subst h0
    rw [hbase]
    rfl
  · next h0 =>
    obtain ⟨f, hf⟩ := exists_frame? hid
    obtain ⟨hparent, -⟩ := h.others id f (Nat.pos_of_ne_zero h0) hf
    rw [Store.get?_eq h.linked hf, own_eq hf, hparent, Option.bind_some, hbase]

/-- What a frame sees are runtime values. -/
theorem sound (h : s.Guarded) (hid : 0 < id) (hlt : id < s.size) : s.Sound id := by
  intro name v hv
  rw [h.get?_eq hlt, if_neg (Nat.ne_of_gt hid)] at hv
  cases ho : (s.own id).get? name with
  | some w =>
    rw [ho] at hv
    cases hv
    exact (h.fit_own hid name _ ho).2
  | none =>
    rw [ho, Option.none_or] at hv
    exact runtime_of_booleans hv

/-- From any frame a reserved name looks as it does in the first. -/
theorem get?_reserved (h : s.Guarded) (hid : id < s.size) {k : Keyword} (hk : k ∈ Keyword.named) :
    s.get? id k.name = Bindings.empty.withBooleans.get? k.name := by
  have hfit : (if id = 0 then .empty else s.own id).Fit := by
    split
    · exact Bindings.fit_empty
    · next h0 => exact h.fit_own (Nat.pos_of_ne_zero h0)
  rw [h.get?_eq hid, hfit.get?_eq_none hk, Option.none_or]

end Guarded

end Store

/-! ## Machines -/

/-- All frames that there are or were are guarded. -/
def Memory.Guarded (m : Memory) : Prop :=
  ∀ s ∈ m.store :: m.past, s.Guarded

theorem Memory.Guarded.write {m : Memory} (h : m.Guarded) {s : Store} (hs : s.Guarded) :
    (m.write s).Guarded :=
  List.forall_mem_cons.2 ⟨hs, h⟩

theorem Memory.Guarded.store {m : Memory} (h : m.Guarded) : m.store.Guarded :=
  h _ List.mem_cons_self

section

variable {α β : Type} {n : Nat} {post : α → Prop} {post' : β → Prop}

/-- A machine that started with a memory halted with a result as said, or failed, and all frames
that there were on the way are guarded. -/
structure Halt.Guarded (post : α → Prop) (m : Memory) (h : Halt α) : Prop where
  result : ∀ a, h.result = .ok a → post a
  memory : h.memory.Guarded
  size : m.store.size ≤ h.memory.store.size

theorem Memory.Guarded.halt_ok {m : Memory} (h : m.Guarded) {a : α} (ha : post a)
    (log : List Moment) : Halt.Guarded post m ⟨.ok a, m, log⟩ := by
  refine ⟨?_, h, Nat.le_refl _⟩
  rintro _ ⟨⟩
  exact ha

theorem Memory.Guarded.halt_error {m : Memory} (h : m.Guarded) (e : Error) :
    Halt.Guarded post m ⟨.error e, m, []⟩ :=
  ⟨nofun, h, Nat.le_refl _⟩

/-- Where there are at least `n` frames, from any but the first, the machine keeps them guarded. -/
def Guards (n : Nat) (post : α → Prop) (x : Machine α) : Prop :=
  ∀ id m, 0 < id → id < m.store.size → n ≤ m.store.size → m.Guarded → (x id m).Guarded post m

theorem Guards.mono {x : Machine α} (h : Guards 0 post x) (n : Nat) : Guards n post x :=
  fun id m hid hlt _ hm => h id m hid hlt (Nat.zero_le _) hm

/-- Machines in a row: the second starts with what the first gives, and with as many frames. -/
theorem Guards.bind {x : Machine α} {f : α → Machine β} (hx : Guards n post x)
    (hf : ∀ a, post a → Guards n post' (f a)) : Guards n post' (x >>= f) := by
  intro id m hid hlt hn hm
  obtain ⟨hresult, hmemory, hsize⟩ := hx id m hid hlt hn hm
  rcases hh : x id m with ⟨result, m', log⟩
  rw [hh] at hresult hmemory hsize
  cases result with
  | error e =>
    rw [Machine.bind_of_error hh]
    exact ⟨nofun, hmemory, hsize⟩
  | ok a =>
    have hsecond := hf a (hresult a rfl) id m' hid (Nat.lt_of_lt_of_le hlt hsize)
      (Nat.le_trans hn hsize) hmemory
    rw [Machine.bind_of_ok hh]
    exact ⟨hsecond.result, hsecond.memory, Nat.le_trans hsize hsecond.size⟩

theorem guards_pure {a : α} (h : post a) : Guards n post (pure a) :=
  fun _ _ _ _ _ hm => hm.halt_ok h []

theorem guards_fail (e : Error) : Guards n post (.fail e) :=
  fun _ _ _ _ _ hm => hm.halt_error e

theorem guards_note (e : Event) : Guards n (fun _ => True) (.note e) :=
  fun _ _ _ _ _ hm => hm.halt_ok trivial _

theorem guards_bindingsOf (other : Nat) : Guards n (fun _ => True) (.bindingsOf other) :=
  fun _ _ _ _ _ hm => hm.halt_ok trivial _

theorem guards_called (name : String) (args : List Value) (callee : Nat) :
    Guards n (fun _ => True) (Carrier.called name args callee) :=
  (guards_bindingsOf callee).bind fun _ _ => guards_note _

theorem guards_fetch (read : ModuleReader) (file : String) :
    Guards n (fun _ => True) (Carrier.fetch read file) :=
  (guards_note (.loading file)).bind fun _ _ => guards_pure trivial

/-- What a machine looks up is a runtime value, since the frame it is in is sound. -/
theorem guards_lookup (name : String) : Guards n Runtime (.lookup name) := by
  intro id m hid hlt _ hm
  rw [Machine.lookup]
  cases hv : m.store.get? id name with
  | none => exact hm.halt_error _
  | some v => exact hm.halt_ok (hm.store.sound hid hlt name v hv) _

/-- Binding in a frame that is not the first. -/
theorem guards_setIn {other : Nat} (ho : 0 < other) {name : String} (hn : Readable (.symbol name))
    {value : Value} (hv : Runtime value) : Guards n (fun _ => True) (.setIn other name value) := by
  intro id m _ _ _ hm
  exact ⟨fun _ _ => trivial, hm.write (hm.store.set ho hn hv),
    Nat.le_of_eq (Store.size_setOwn m.store other _).symm⟩

/-- Binding in the own frame, which is not the first. -/
theorem guards_define {name : String} (hn : Readable (.symbol name)) {value : Value}
    (hv : Runtime value) : Guards n (fun _ => True) (.define name value) := by
  intro id m hid _ _ hm
  exact ⟨fun _ _ => trivial, hm.write (hm.store.set hid hn hv),
    Nat.le_of_eq (Store.size_setOwn m.store id _).symm⟩

/-- What follows the making of a clone may rely on the clone being there. -/
theorem guards_clone_bind {f : Nat → Machine α}
    (h : ∀ callee, 0 < callee → Guards (callee + 1) post (f callee)) :
    Guards n post (Machine.clone >>= f) := by
  intro id m hid hlt _ hm
  have hcloned := hm.write (hm.store.clone hid hlt)
  obtain ⟨hresult, hmemory, hgrown⟩ := h m.store.size (Nat.zero_lt_of_lt hlt) id
    (m.write (m.store.clone id)) hid (Nat.lt_succ_of_lt hlt) (Nat.le_refl _) hcloned
  rw [Machine.bind_of_ok (x := .clone) rfl]
  exact ⟨hresult, hmemory, Nat.le_of_succ_le hgrown⟩

/-- Going on in a frame that is there and is not the first. -/
theorem Guards.inFrame {x : Machine α} (h : Guards n post x) {other : Nat} (ho : 0 < other)
    (hn : other < n) : Guards n post (.inFrame other x) :=
  fun _ m _ _ hsize hm => h other m ho (Nat.lt_of_lt_of_le hn hsize) hsize hm

/-- The counter has no part in it. -/
theorem Guards.counted {x : Machine α} (h : Guards n post x) (limit : Limit) (what : String) :
    Guards n post (.counted limit what x) := by
  intro id m hid hlt hn hm
  rw [Machine.counted]
  split
  · exact hm.halt_error _
  · obtain ⟨hresult, hmemory, hsize⟩ := h id { m with depth := m.depth + 1 } hid hlt hn hm
    exact ⟨hresult, hmemory, hsize⟩

/-- Machines that keep syntax and data apart keep all frames guarded, the frames of calls among
them. -/
theorem Guards.correspondence :
    Correspondence .runtime (fun (x _ : Machine Value) => Guards 0 Runtime x)
      (fun callee _ x _ => 0 < callee → Guards (callee + 1) Runtime x) where
  done := guards_pure
  fail _ := guards_fail _
  lookup name hf := (guards_lookup name).bind hf
  define hn hv hx := (guards_define hn hv).bind fun _ _ => hx
  print _ hx := (guards_note _).bind fun _ _ => hx
  bind hx hf := hx.bind hf
  fetch read _ hf := (guards_fetch read _).bind fun answer _ => hf answer
  clone hf := guards_clone_bind fun callee hc => hf callee callee hc
  argument hx hf hc := (hx.mono _).bind fun v hv => hf v hv hc
  bindParam {callee _ _ _ _ _} hn hv hf hc := by
    have hset : Guards (callee + 1) (· = callee) (Carrier.bindParam callee _ _) :=
      (guards_setIn hc hn hv).bind fun _ _ => guards_pure rfl
    refine hset.bind fun other ho => ?_
    rw [ho]
    exact hf callee callee hc
  body name args callee _ hx hc := by
    have hbody := (hx.mono (callee + 1)).inFrame hc (Nat.lt_succ_self callee)
    exact (guards_called name args callee).bind fun _ _ => hbody

end

/-- Whatever text is evaluated or loaded, all frames stay guarded. -/
theorem Request.guards {q : Request} (h : q.IsText) (i : Interpreter) :
    Guards 0 Runtime (q.operate i) :=
  Guards.correspondence.level Discipline.sound_runtime
    (fun _ what => (guards_fail _).counted i.limit what)
    (fun _ what _ _ hx => hx.counted i.limit what) i.read i.limit.room 0
    (obeys_script Discipline.sound_runtime fun v hv => absurd hv (h.ne_eval v))

/-! ## Sessions -/

/-- All frames that the session ever had are guarded, and the user's is not the base frame. -/
structure SharedSession.Guarded (t : SharedSession) : Prop where
  base : t.base = 0
  user : 0 < t.user
  size : t.user < t.memory.store.size
  memory : t.memory.Guarded

namespace SharedSession

/-- A new session has the base frame and one frame of the user. -/
theorem guarded_start (i : Interpreter) (prompt : String) : (start i prompt).Guarded where
  base := rfl
  user := Nat.one_pos
  size := Nat.one_lt_two
  memory := by
    have hbase : ((Store.new {}).bindBooleans 0).Guarded := by
      refine ⟨rfl, fun id f hid hf => ?_⟩
      have hlt := Store.lt_size_of_frame? hf
      exact absurd hlt (Nat.not_lt.2 hid)
    exact List.forall_mem_cons.2 ⟨hbase.enclose, nofun⟩

/-- A session stays guarded, whatever it is asked for, and also when the user starts anew. -/
theorem keeps_guarded : backend.Keeps Guarded where
  ask {t} h q hq := by
    obtain ⟨-, hmemory, hsize⟩ :=
      q.guards hq t.interpreter t.user t.memory h.user h.size (Nat.zero_le _) h.memory
    exact ⟨h.base, h.user, Nat.lt_of_lt_of_le h.size hsize, hmemory⟩
  reset {t} h := by
    have henclosed : (t.memory.store.enclose t.base).Guarded := by
      rw [h.base]
      exact h.memory.store.enclose
    exact ⟨h.base, Nat.zero_lt_of_lt h.size, Nat.lt_succ_self _, h.memory.write henclosed⟩

end SharedSession

/-! ## Reserved names stay reserved -/

/-- The value of a reserved name; most have none. -/
def Keyword.truth? : Keyword → Option Value
  | trueName => some (.bool true)
  | falseName => some (.bool false)
  | _ => none

/-- The base frame binds a reserved name to its value, if it has one. -/
theorem Keyword.get?_name (k : Keyword) :
    Bindings.empty.withBooleans.get? k.name = k.truth? := by
  cases k <;> rfl

/-- The first frame binds the truth values and nothing else, and no other frame binds a reserved
name.  So from every frame the truth values are what they are, and the other reserved names are
unbound. -/
structure Store.Reserves (s : Store) : Prop where
  base : s.frame? 0 = some ⟨none, .withBooleans .empty⟩
  others : ∀ id f, 0 < id → s.frame? id = some f → ∀ k ∈ Keyword.named, f.own.get? k.name = none
  get? : ∀ id < s.size, ∀ k ∈ Keyword.named, s.get? id k.name = k.truth?
  eval : ∀ id < s.size, ∀ (i : Interpreter) (k : Keyword) (v : Value), k.truth? = some v →
    (s.run id (i.eval (.keyword k))).1.result = .ok v

/-- A truth value is looked up as any name is. -/
theorem Interpreter.eval_truth (i : Interpreter) {k : Keyword} {v : Value} (h : k.truth? = some v) :
    i.eval (.keyword k) = .lookup k.name := by
  cases k with
  | trueName => exact bind_pure _
  | falseName => exact bind_pure _
  | _ => cases h

/-- A name that is bound is looked up with success. -/
theorem Store.result_lookup {s : Store} (hs : s.Linked) {id : Nat} (hid : id < s.size)
    {name : String} {v : Value} (h : s.get? id name = some v) :
    (s.run id (.lookup name)).1.result = .ok v := by
  rw [Store.run, Evaluation.lookup, Store.get?_scope hs hid, h]

/-- In a guarded store reserved names are what they are. -/
theorem Store.Guarded.reserves {s : Store} (h : s.Guarded) : s.Reserves := by
  have hget : ∀ id < s.size, ∀ k ∈ Keyword.named, s.get? id k.name = k.truth? :=
    fun id hid k hk => (h.get?_reserved hid hk).trans k.get?_name
  refine ⟨h.base, fun id f hid hf k hk => (h.others id f hid hf).2.get?_eq_none hk, hget, ?_⟩
  intro id hid i k v hv
  rw [i.eval_truth hv]
  refine result_lookup h.linked hid ((hget id hid k ?_).trans hv)
  cases k with
  | trueName => decide
  | falseName => decide
  | _ => cases hv

/-- Whatever a session is given, no frame that it ever had binds a reserved name, but for the base
frame with the truth values.  The same holds of the two frames of the session as it is kept. -/
theorem serve_reserves (i : Interpreter) (prompt : String) (inputs : List Input) :
    let t := ((SharedSession.start i prompt).serve inputs).2
    let s := ((Session.start i prompt).serve inputs).2
    (∀ frames ∈ t.memory.store :: t.memory.past, frames.Reserves) ∧ Shares s t ∧
      s.base = .withBooleans .empty ∧
      ∀ k ∈ Keyword.named, s.user.get? k.name = none ∧ s.get? k.name = k.truth? := by
  intro t s
  have hguarded : t.Guarded :=
    SharedSession.keeps_guarded.serve prompt inputs (SharedSession.guarded_start i prompt)
  have hshares : Shares s t := ((Shares.start i prompt).serve inputs).2
  have hnow := hguarded.memory.store.reserves
  have hbase := hshares.base
  rw [hguarded.base, hnow.base] at hbase
  refine ⟨fun frames hf => (hguarded.memory frames hf).reserves, hshares, ?_, fun k hk => ⟨?_, ?_⟩⟩
  · injection hbase with hframe
    injection hframe with _ hown
    exact hown.symm
  · exact hnow.others _ _ hguarded.user hshares.user k hk
  · exact (hshares.get? k.name).symm.trans (hnow.get? _ hguarded.size k hk)

end SmallLisp
