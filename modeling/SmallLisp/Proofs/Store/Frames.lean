import Mathlib.Logic.Basic
import SmallLisp.Store

/-!
# Frames of a store

`Store.frame?` is the view of a store.  Two lemmas say what the operations do to it: one for a new
frame (`frame?_push`), one for new bindings of a frame (`frame?_setOwn`).

A store is *linked* when every frame lies inside an older one.  That is how frames are made, and it
is kept when bindings change.  In a linked store a lookup is the frame's own answer, or else the
answer of the frame around it (`get?_eq`), so lookups from a frame depend only on that frame and on
older ones (`get?_congr`).
-/

namespace SmallLisp

theorem frameIn?_of_le {frames : List Frame} {id : Nat} (h : frames.length ≤ id) :
    frameIn? frames id = none := by
  induction frames with
  | nil => rfl
  | cons f older ih =>
    rw [List.length_cons] at h
    rw [frameIn?, if_neg (by omega), ih (by omega)]

theorem exists_frameIn? {frames : List Frame} {id : Nat} (h : id < frames.length) :
    ∃ f, frameIn? frames id = some f := by
  induction frames with
  | nil => cases h
  | cons f older ih =>
    rw [List.length_cons] at h
    rw [frameIn?]
    split
    · exact ⟨f, rfl⟩
    · exact ih (by omega)

theorem length_replaceIn (own : Bindings) (frames : List Frame) (id : Nat) :
    (replaceIn own frames id).length = frames.length := by
  induction frames with
  | nil => rfl
  | cons f older ih =>
    rw [replaceIn]
    split
    · rfl
    · rw [List.length_cons, List.length_cons, ih]

/-- Replacing the bindings of a frame changes what is found at that frame only. -/
theorem frameIn?_replaceIn (own : Bindings) (frames : List Frame) (id j : Nat) :
    frameIn? (replaceIn own frames id) j =
      if j = id then (frameIn? frames id).map ({ · with own := own }) else frameIn? frames j := by
  induction frames with
  | nil => simp [replaceIn, frameIn?]
  | cons f older ih =>
    by_cases hid : id = older.length
    · by_cases hj : j = id
      · simp [replaceIn, frameIn?, hj, hid]
      · have hne : j ≠ older.length := hid ▸ hj
        simp [replaceIn, frameIn?, hid, hne]
    · by_cases hj : j = older.length
      · have hne : older.length ≠ id := Ne.symm hid
        simp [replaceIn, frameIn?, hid, hj, hne, length_replaceIn]
      · simp [replaceIn, frameIn?, hid, hj, length_replaceIn, ih]

/-- Frames are equal if each is found alike. -/
theorem eq_of_frameIn? {frames frames' : List Frame} (hlen : frames'.length = frames.length)
    (h : ∀ j < frames.length, frameIn? frames' j = frameIn? frames j) : frames' = frames := by
  induction frames generalizing frames' with
  | nil => exact List.eq_nil_of_length_eq_zero hlen
  | cons f older ih =>
    cases frames' with
    | nil => cases hlen
    | cons g older' =>
      have hlen' : older'.length = older.length := Nat.succ.inj hlen
      have hfront := h older.length (Nat.lt_succ_self _)
      rw [frameIn?, frameIn?, if_pos hlen'.symm, if_pos rfl, Option.some.injEq] at hfront
      have holder : older' = older := by
        refine ih hlen' fun j hj => ?_
        have hj' := h j (Nat.lt_succ_of_lt hj)
        rwa [frameIn?, frameIn?, if_neg (by omega), if_neg (by omega)] at hj'
      rw [hfront, holder]

namespace Store

/-! ## Frames -/

@[simp] theorem size_push (s : Store) (f : Frame) : (s.push f).size = s.size + 1 := rfl

/-- A further frame is found at the next place. -/
theorem frame?_push (s : Store) (f : Frame) (j : Nat) :
    (s.push f).frame? j = if j = s.size then some f else s.frame? j := rfl

@[simp] theorem size_setOwn (s : Store) (id : Nat) (own : Bindings) :
    (s.setOwn id own).size = s.size :=
  length_replaceIn own s.frames id

/-- Only one frame gets other bindings. -/
theorem frame?_setOwn (s : Store) (id : Nat) (own : Bindings) (j : Nat) :
    (s.setOwn id own).frame? j =
      if j = id then (s.frame? id).map ({ · with own := own }) else s.frame? j :=
  frameIn?_replaceIn own s.frames id j

theorem exists_frame? {s : Store} {id : Nat} (h : id < s.size) : ∃ f, s.frame? id = some f :=
  exists_frameIn? h

theorem lt_size_of_frame? {s : Store} {id : Nat} {f : Frame} (h : s.frame? id = some f) :
    id < s.size := by
  rw [← Nat.not_le]
  intro hle
  rw [frame?, frameIn?_of_le hle] at h
  cases h

theorem own_eq {s : Store} {id : Nat} {f : Frame} (h : s.frame? id = some f) :
    s.own id = f.own := by
  rw [own, h]

/-- What lies around a frame is what its parent sees. -/
theorem outer_eq {s : Store} {id : Nat} {f : Frame} (h : s.frame? id = some f) (name : String) :
    s.outer id name = f.parent.bind (s.get? · name) := by
  obtain ⟨parent, own⟩ := f
  unfold outer
  rw [h]
  cases parent with
  | none => rfl
  | some p => rfl

theorem own_setOwn {s : Store} {id : Nat} (h : id < s.size) (own : Bindings) :
    (s.setOwn id own).own id = own := by
  obtain ⟨f, hf⟩ := exists_frame? h
  have hg : (s.setOwn id own).frame? id = some { f with own := own } := by
    rw [frame?_setOwn, if_pos rfl, hf]
    rfl
  rw [own_eq hg]

/-- Setting the bindings that a frame has changes nothing. -/
theorem frame?_setOwn_own (s : Store) (id j : Nat) :
    (s.setOwn id (s.own id)).frame? j = s.frame? j := by
  rw [frame?_setOwn]
  split
  · next hj =>
    subst hj
    cases hf : s.frame? j with
    | none => rfl
    | some f =>
      rw [own_eq hf]
      rfl
  · rfl

/-- Of two bindings set one after the other the second stay. -/
theorem frame?_setOwn_of_frame? {s t : Store} {id j : Nat} {own : Bindings}
    (hid : t.frame? id = (s.setOwn id own).frame? id)
    (hj : t.frame? j = (s.setOwn id own).frame? j) (own' : Bindings) :
    (t.setOwn id own').frame? j = (s.setOwn id own').frame? j := by
  rw [frame?_setOwn, if_pos rfl] at hid
  rw [frame?_setOwn] at hj
  rw [frame?_setOwn, frame?_setOwn, hid, Option.map_map]
  split
  · rfl
  · next hne =>
    rw [if_neg hne] at hj
    exact hj

/-- A store is known by its frames. -/
theorem eq_of_frame? {s t : Store} (hsize : t.size = s.size)
    (h : ∀ j < s.size, t.frame? j = s.frame? j) : t = s := by
  obtain ⟨frames⟩ := s
  obtain ⟨frames'⟩ := t
  exact congrArg Store.mk (eq_of_frameIn? hsize h)

theorem setOwn_own (s : Store) (id : Nat) : s.setOwn id (s.own id) = s :=
  eq_of_frame? (size_setOwn s id _) fun j _ => frame?_setOwn_own s id j

theorem setOwn_setOwn (s : Store) (id : Nat) (own own' : Bindings) :
    (s.setOwn id own).setOwn id own' = s.setOwn id own' := by
  refine eq_of_frame? (by simp) fun j _ => ?_
  exact frame?_setOwn_of_frame? rfl rfl own'

/-! ## Links -/

/-- Every frame lies inside an older one, or inside none. -/
def Linked (s : Store) : Prop :=
  ∀ id f p, s.frame? id = some f → f.parent = some p → p < id

/-- A frame may be added inside one that is there. -/
theorem linked_push {s : Store} (hs : s.Linked) {f : Frame}
    (hf : ∀ p, f.parent = some p → p < s.size) : (s.push f).Linked := by
  intro id g p hg hp
  rw [frame?_push] at hg
  split at hg
  · next hid =>
    cases hg
    exact hid ▸ hf p hp
  · exact hs id g p hg hp

/-- Bindings do not matter for the order of frames. -/
theorem linked_setOwn {s : Store} (hs : s.Linked) (id : Nat) (own : Bindings) :
    (s.setOwn id own).Linked := by
  intro j g p hg hp
  rw [frame?_setOwn] at hg
  split at hg
  · next hj =>
    obtain ⟨f, hf, rfl⟩ := Option.map_eq_some_iff.1 hg
    exact hj ▸ hs id f p hf hp
  · exact hs j g p hg hp

theorem linked_empty : Linked {} := by
  intro id f p hf
  cases hf

theorem linked_new {s : Store} (hs : s.Linked) : s.new.Linked :=
  linked_push hs nofun

theorem linked_enclose {s : Store} (hs : s.Linked) {id : Nat} (hid : id < s.size) :
    (s.enclose id).Linked := by
  refine linked_push hs fun p hp => ?_
  cases hp
  exact hid

theorem linked_clone {s : Store} (hs : s.Linked) {id : Nat} (hid : id < s.size) :
    (s.clone id).Linked := by
  obtain ⟨f, hf⟩ := exists_frame? hid
  refine linked_push hs fun p hp => ?_
  rw [hf, Option.getD_some] at hp
  exact Nat.lt_trans (hs id f p hf hp) hid

/-- The tail of a linked store is linked. -/
theorem linked_of_push {s : Store} {f : Frame} (h : (s.push f).Linked) : s.Linked := by
  intro id g p hg hp
  refine h id g p ?_ hp
  rw [frame?_push, if_neg (Nat.ne_of_lt (lt_size_of_frame? hg)), hg]

/-! ## Lookups -/

/-- A further frame does not change what the others see. -/
theorem get?_push {s : Store} (f : Frame) {id : Nat} (h : id ≠ s.size) (name : String) :
    (s.push f).get? id name = s.get? id name :=
  if_neg h

/-- A lookup is the frame's own answer, or else the answer of the frame around it. -/
theorem get?_eq {s : Store} (hs : s.Linked) {id : Nat} {f : Frame} (hf : s.frame? id = some f)
    (name : String) :
    s.get? id name = (f.own.get? name).or (f.parent.bind (s.get? · name)) := by
  obtain ⟨frames⟩ := s
  -- The frame around a frame is older than the newest one, so it answers the same without that one.
  induction frames with
  | nil => cases hf
  | cons g older ih =>
    change (push ⟨older⟩ g).Linked at hs
    change (push ⟨older⟩ g).frame? id = some f at hf
    change (push ⟨older⟩ g).get? id name = _
    have houter : ∀ p, f.parent = some p → (push ⟨older⟩ g).get? p name = get? ⟨older⟩ p name := by
      intro p hp
      have hlt := hs id f p hf hp
      have hsize := lt_size_of_frame? hf
      rw [size_push] at hsize
      exact get?_push g (by omega) name
    rw [frame?_push] at hf
    split at hf
    · next hid =>
      obtain rfl := Option.some.inj hf
      refine Eq.trans (if_pos hid) ?_
      cases g.own.get? name with
      | some v => rfl
      | none =>
        cases hp : g.parent with
        | none => rfl
        | some p => exact (houter p hp).symm
    · next hid =>
      rw [get?_push g hid, ih (linked_of_push hs) hf]
      cases f.own.get? name with
      | some v => rfl
      | none =>
        cases hp : f.parent with
        | none => rfl
        | some p => exact (houter p hp).symm

/-- What a frame answers depends only on the frames up to it. -/
theorem get?_congr {s t : Store} (hs : s.Linked) (ht : t.Linked) {n : Nat} (hn : n ≤ s.size)
    (h : ∀ j < n, t.frame? j = s.frame? j) {id : Nat} (hid : id < n) (name : String) :
    t.get? id name = s.get? id name := by
  induction id using Nat.strongRecOn with
  | _ id ih =>
    obtain ⟨f, hf⟩ := exists_frame? (Nat.lt_of_lt_of_le hid hn)
    rw [get?_eq hs hf, get?_eq ht ((h id hid).trans hf)]
    cases f.own.get? name with
    | some v => rfl
    | none =>
      cases hp : f.parent with
      | none => rfl
      | some p =>
        have hlt := hs id f p hf hp
        exact ih p hlt (Nat.lt_trans hlt hid)

/-! ## Scopes -/

/-- The scope of a frame: its own bindings, and what a frame with the same parent sees around it in
a store with the same older frames. -/
theorem scope_eq {s t : Store} (hs : s.Linked) (ht : t.Linked) {i j : Nat} {f g : Frame}
    (hf : s.frame? i = some f) (hg : t.frame? j = some g) (hparent : g.parent = f.parent)
    (h : ∀ k < i, t.frame? k = s.frame? k) :
    t.scope j = { s.scope i with own := g.own } := by
  have houter : t.outer j = s.outer i := by
    funext name
    rw [outer_eq hf, outer_eq hg, hparent]
    cases hp : f.parent with
    | none => rfl
    | some p =>
      exact get?_congr hs ht (Nat.le_of_lt (lt_size_of_frame? hf)) h (hs i f p hf hp) name
  rw [scope, scope, own_eq hg, houter]

/-- A frame with new bindings lies where it did. -/
theorem scope_setOwn {s : Store} (hs : s.Linked) {id : Nat} (hid : id < s.size) (own : Bindings) :
    (s.setOwn id own).scope id = { s.scope id with own := own } := by
  obtain ⟨f, hf⟩ := exists_frame? hid
  have hg : (s.setOwn id own).frame? id = some { f with own := own } := by
    rw [frame?_setOwn, if_pos rfl, hf]
    rfl
  refine scope_eq hs (linked_setOwn hs id own) hf hg rfl fun k hk => ?_
  rw [frame?_setOwn, if_neg (Nat.ne_of_lt hk)]

/-- What is bound in a newer frame is not seen. -/
theorem scope_setOwn_of_lt {s : Store} (hs : s.Linked) {id other : Nat} (hid : id < s.size)
    (h : id < other) (own : Bindings) : (s.setOwn other own).scope id = s.scope id := by
  have hsame : ∀ k ≤ id, (s.setOwn other own).frame? k = s.frame? k := by
    intro k hk
    rw [frame?_setOwn, if_neg (Nat.ne_of_lt (Nat.lt_of_le_of_lt hk h))]
  obtain ⟨f, hf⟩ := exists_frame? hid
  have hg := (hsame id (Nat.le_refl id)).trans hf
  have hscope := scope_eq hs (linked_setOwn hs other own) hf hg rfl
    fun k hk => hsame k (Nat.le_of_lt hk)
  rw [← own_eq hf] at hscope
  exact hscope

theorem frame?_clone_of_lt (s : Store) (id : Nat) {j : Nat} (h : j < s.size) :
    (s.clone id).frame? j = s.frame? j := by
  rw [clone, frame?_push, if_neg (Nat.ne_of_lt h)]

theorem frame?_clone_size {s : Store} {id : Nat} {f : Frame} (h : s.frame? id = some f) :
    (s.clone id).frame? s.size = some f := by
  rw [clone, frame?_push, if_pos rfl, h]
  rfl

/-- A clone is not seen by the frames that were there before it. -/
theorem scope_clone {s : Store} (hs : s.Linked) {id : Nat} (hid : id < s.size) :
    (s.clone id).scope id = s.scope id := by
  obtain ⟨f, hf⟩ := exists_frame? hid
  have hg := (s.frame?_clone_of_lt id hid).trans hf
  have hscope := scope_eq hs (linked_clone hs hid) hf hg rfl
    fun k hk => s.frame?_clone_of_lt id (Nat.lt_trans hk hid)
  rw [← own_eq hf] at hscope
  exact hscope

/-- A lookup in a store is a lookup in the scope of the frame. -/
theorem get?_scope {s : Store} (hs : s.Linked) {id : Nat} (hid : id < s.size) (name : String) :
    (s.scope id).get? name = s.get? id name := by
  obtain ⟨f, hf⟩ := exists_frame? hid
  have hown : (s.scope id).own = f.own := own_eq hf
  rw [get?_eq hs hf, Scope.get?, hown]
  cases f.own.get? name with
  | some v => rfl
  | none => exact outer_eq hf name

end Store

end SmallLisp
