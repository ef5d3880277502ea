import Mathlib.Logic.Relation
import SmallLisp.Proofs.Store.Frames

/-!
# Chains of frames

A store grows by operations on the frames that it has (`Step`).  Whatever was done, frames lie
inside older ones and stay where they were made: an operation adds a frame or replaces the bindings
of one (`Step.cases_of_linked`), and a run only adds frames and changes bindings (`Later.extends`).

*Chains.*  The frames met from a frame outward form its `Chain`.  Since each is newer than the next,
the chain ends and repeats no frame, and a lookup is the answer of the first of its frames that
binds the name (`Chain.get?_eq`).

*Writes.*  So the effect of a write on a lookup is read off from the chain: where the written frame
stands behind some others, these answer first, and the new value comes next (`Chain.get?_set`).

*Twins.*  A clone has the chain of the frame that it copies but for the first frame, and chains are
kept.  Neither of the two is on the chain of the other, and every other frame is on both chains or
on none.
-/

namespace SmallLisp.Store

/-! ## Runs -/

/-- One operation on a store; it may use any frame made so far. -/
inductive Step : Store → Store → Prop
  | new (s : Store) : Step s s.new
  | enclose {s : Store} {id : Nat} (hid : id < s.size) : Step s (s.enclose id)
  | clone {s : Store} {id : Nat} (hid : id < s.size) : Step s (s.clone id)
  | set {s : Store} {id : Nat} (hid : id < s.size) (name : String) (value : Value) :
      Step s (s.set id name value)
  | bindBooleans {s : Store} {id : Nat} (hid : id < s.size) : Step s (s.bindBooleans id)

/-- The second store comes from the first by some operations. -/
def Later : Store → Store → Prop :=
  Relation.ReflTransGen Step

/-- The store comes about by operations, from no frames. -/
def Made (s : Store) : Prop :=
  Later {} s

/-- Every frame of the first store is in the second, at its place, perhaps with other bindings. -/
def Extends (s t : Store) : Prop :=
  ∀ id f, s.frame? id = some f → ∃ own, t.frame? id = some { f with own := own }

theorem Extends.trans {s t u : Store} (h : s.Extends t) (h' : t.Extends u) : s.Extends u := by
  intro id f hf
  obtain ⟨own, hown⟩ := h id f hf
  obtain ⟨own', hown'⟩ := h' id _ hown
  exact ⟨own', hown'⟩

theorem extends_push (s : Store) (f : Frame) : s.Extends (s.push f) := by
  intro id g hg
  refine ⟨g.own, ?_⟩
  rw [frame?_push, if_neg (Nat.ne_of_lt (lt_size_of_frame? hg)), hg]

theorem extends_setOwn (s : Store) (id : Nat) (own : Bindings) : s.Extends (s.setOwn id own) := by
  intro j g hg
  rw [frame?_setOwn]
  split
  · next hj => exact ⟨own, by rw [← hj, hg]; rfl⟩
  · exact ⟨g.own, hg⟩

/-- An operation adds a frame inside an older one or inside none, or replaces the bindings of a
frame. -/
theorem Step.cases_of_linked {s t : Store} (hs : s.Linked) (h : Step s t) :
    (∃ f : Frame, (∀ p, f.parent = some p → p < s.size) ∧ t = s.push f) ∨
      ∃ id own, t = s.setOwn id own := by
  cases h with
  | new => exact .inl ⟨{ parent := none, own := .empty }, nofun, rfl⟩
  | enclose hid =>
    refine .inl ⟨_, fun p hp => ?_, rfl⟩
    cases hp
    exact hid
  | clone hid =>
    obtain ⟨f, hf⟩ := exists_frame? hid
    refine .inl ⟨f, fun p hp => Nat.lt_trans (hs _ f p hf hp) hid, ?_⟩
    rw [Store.clone, hf, Option.getD_some]
  | set hid name value => exact .inr ⟨_, _, rfl⟩
  | bindBooleans hid => exact .inr ⟨_, _, rfl⟩

theorem Step.linked {s t : Store} (hs : s.Linked) (h : Step s t) : t.Linked := by
  obtain ⟨f, hf, rfl⟩ | ⟨id, own, rfl⟩ := h.cases_of_linked hs
  · exact linked_push hs hf
  · exact linked_setOwn hs id own

theorem Step.extends {s t : Store} (hs : s.Linked) (h : Step s t) : s.Extends t := by
  obtain ⟨f, -, rfl⟩ | ⟨id, own, rfl⟩ := h.cases_of_linked hs
  · exact extends_push s f
  · exact extends_setOwn s id own

theorem Later.linked {s t : Store} (hs : s.Linked) (h : Later s t) : t.Linked := by
  induction h with
  | refl => exact hs
  | tail _ hstep ih => exact hstep.linked ih

theorem Later.extends {s t : Store} (hs : s.Linked) (h : Later s t) : s.Extends t := by
  induction h with
  | refl => exact fun id f hf => ⟨f.own, hf⟩
  | tail hrun hstep ih => exact ih.trans (hstep.extends (Later.linked hs hrun))

theorem Made.linked {s : Store} (h : s.Made) : s.Linked :=
  Later.linked linked_empty h

/-! ## Chains -/

/-- The frames met from a frame outward, itself first. -/
inductive Chain (s : Store) : Nat → List Nat → Prop
  | last {id : Nat} {f : Frame} (hf : s.frame? id = some f) (hp : f.parent = none) :
      Chain s id [id]
  | outward {id : Nat} {f : Frame} {p : Nat} {around : List Nat} (hf : s.frame? id = some f)
      (hp : f.parent = some p) (h : Chain s p around) : Chain s id (id :: around)

theorem exists_chain {s : Store} (hs : s.Linked) {id : Nat} (hid : id < s.size) :
    ∃ around, s.Chain id (id :: around) := by
  induction id using Nat.strongRecOn with
  | _ id ih =>
    obtain ⟨f, hf⟩ := exists_frame? hid
    cases hp : f.parent with
    | none => exact ⟨[], .last hf hp⟩
    | some p =>
      have hlt := hs id f p hf hp
      obtain ⟨around, h⟩ := ih p hlt (Nat.lt_trans hlt hid)
      exact ⟨p :: around, .outward hf hp h⟩

namespace Chain

variable {s t : Store} {id : Nat} {chain : List Nat}

theorem le_of_mem (hs : s.Linked) (h : s.Chain id chain) : ∀ j ∈ chain, j ≤ id := by
  induction h with
  | last => simp
  | outward hf hp _ ih =>
    intro j hj
    cases hj with
    | head => exact Nat.le_refl _
    | tail _ hj => exact Nat.le_of_lt (Nat.lt_of_le_of_lt (ih j hj) (hs _ _ _ hf hp))

/-- Every frame around a frame is older. -/
theorem lt_of_mem (hs : s.Linked) {around : List Nat} (h : s.Chain id (id :: around)) :
    ∀ j ∈ around, j < id := by
  cases h with
  | last => simp
  | outward hf hp h => exact fun j hj => Nat.lt_of_le_of_lt (h.le_of_mem hs j hj) (hs _ _ _ hf hp)

/-- No frame lies inside itself. -/
theorem nodup (hs : s.Linked) (h : s.Chain id chain) : chain.Nodup := by
  induction h with
  | last => simp
  | outward hf hp h ih =>
    refine List.nodup_cons.2 ⟨fun hmem => ?_, ih⟩
    exact Nat.lt_irrefl _ (lt_of_mem hs (.outward hf hp h) _ hmem)

/-- How the chain goes on is read off from the frame. -/
theorem cases_of_frame? {f : Frame} (hf : s.frame? id = some f) (h : s.Chain id chain) :
    (f.parent = none ∧ chain = [id]) ∨
      ∃ p around, f.parent = some p ∧ chain = id :: around ∧ s.Chain p around := by
  cases h with
  | last hf' hp =>
    obtain rfl := Option.some.inj (hf.symm.trans hf')
    exact .inl ⟨hp, rfl⟩
  | outward hf' hp h =>
    obtain rfl := Option.some.inj (hf.symm.trans hf')
    exact .inr ⟨_, _, hp, rfl, h⟩

theorem unique {chain' : List Nat} (h : s.Chain id chain) (h' : s.Chain id chain') :
    chain = chain' := by
  induction h generalizing chain' with
  | last hf hp =>
    obtain ⟨-, rfl⟩ | ⟨p, around, hp', -, -⟩ := h'.cases_of_frame? hf
    · rfl
    · cases hp.symm.trans hp'
  | outward hf hp _ ih =>
    obtain ⟨hp', -⟩ | ⟨p, around, hp', rfl, h'⟩ := h'.cases_of_frame? hf
    · cases hp.symm.trans hp'
    · obtain rfl := Option.some.inj (hp.symm.trans hp')
      rw [ih h']

/-- Chains are kept. -/
theorem mono (ht : s.Extends t) (h : s.Chain id chain) : t.Chain id chain := by
  induction h with
  | last hf hp =>
    obtain ⟨own, hown⟩ := ht _ _ hf
    exact .last hown hp
  | outward hf hp _ ih =>
    obtain ⟨own, hown⟩ := ht _ _ hf
    exact .outward hown hp ih

/-- A frame with the parent of another has the same frames around it. -/
theorem of_parent_eq {f g : Frame} {j : Nat} {around : List Nat} (hf : s.frame? id = some f)
    (hg : s.frame? j = some g) (hparent : g.parent = f.parent) (h : s.Chain id (id :: around)) :
    s.Chain j (j :: around) := by
  obtain ⟨hp, heq⟩ | ⟨p, around', hp, heq, h⟩ := h.cases_of_frame? hf
  · cases heq
    exact .last hg (hparent.trans hp)
  · cases heq
    exact .outward hg (hparent.trans hp) h

end Chain

/-! ## Lookups along a chain -/

/-- None of the frames binds the name. -/
def Free (s : Store) (ids : List Nat) (name : String) : Prop :=
  ∀ id ∈ ids, (s.own id).get? name = none

/-- The answer of the first of the frames that binds the name. -/
def along (s : Store) (ids : List Nat) (name : String) : Option Value :=
  ids.findSome? fun id => (s.own id).get? name

theorem along_eq_none_iff (s : Store) (ids : List Nat) (name : String) :
    s.along ids name = none ↔ s.Free ids name :=
  List.findSome?_eq_none_iff

theorem along_append (s : Store) (ids ids' : List Nat) (name : String) :
    s.along (ids ++ ids') name = (s.along ids name).or (s.along ids' name) :=
  List.findSome?_append

theorem along_cons (s : Store) (id : Nat) (ids : List Nat) (name : String) :
    s.along (id :: ids) name = ((s.own id).get? name).or (s.along ids name) := by
  rw [along, List.findSome?_cons]
  cases (s.own id).get? name with
  | none => rfl
  | some v => rfl

/-- A lookup is the answer of the first frame of the chain that binds the name. -/
theorem Chain.get?_eq {s : Store} (hs : s.Linked) {id : Nat} {chain : List Nat}
    (h : s.Chain id chain) (name : String) : s.get? id name = s.along chain name := by
  induction h with
  | last hf hp =>
    rw [Store.get?_eq hs hf, along_cons, own_eq hf, hp]
    rfl
  | outward hf hp _ ih =>
    rw [Store.get?_eq hs hf, along_cons, own_eq hf, hp, Option.bind_some, ih]

/-! ## Writes -/

theorem Chain.get?_set_eq {s : Store} (hs : s.Linked) {g : Nat} {chain : List Nat}
    (h : s.Chain g chain) (id : Nat) (name : String) (value : Value) (other : String) :
    (s.set id name value).get? g other = (s.set id name value).along chain other :=
  (h.mono (extends_setOwn s id _)).get?_eq (linked_setOwn hs id _) other

section

variable {s : Store} {id : Nat} (hid : id < s.size) (name : String) (value : Value)

include hid

theorem get?_own_set (j : Nat) (other : String) :
    ((s.set id name value).own j).get? other =
      if j = id ∧ other = name then some value else (s.own j).get? other := by
  by_cases hj : j = id
  · subst hj
    rw [set, own_setOwn hid, Bindings.get?_set]
    simp only [true_and]
  · have hframe : (s.set id name value).frame? j = s.frame? j := by
      rw [set, frame?_setOwn, if_neg hj]
    rw [if_neg (fun h => hj h.1), own, own, hframe]

/-- Frames answer as before if the written one is not among them, or another name is asked for. -/
theorem along_set (ids : List Nat) (other : String) (h : id ∈ ids → other ≠ name) :
    (s.set id name value).along ids other = s.along ids other := by
  induction ids with
  | nil => rfl
  | cons j ids ih =>
    have hj : ¬ (j = id ∧ other = name) := by
      rintro ⟨rfl, hother⟩
      exact h List.mem_cons_self hother
    rw [along_cons, along_cons, get?_own_set hid, if_neg hj,
      ih fun hmem => h (List.mem_cons_of_mem j hmem)]

theorem along_set_head (ids : List Nat) :
    (s.set id name value).along (id :: ids) name = some value := by
  rw [along_cons, get?_own_set hid, if_pos ⟨rfl, rfl⟩, Option.some_or]

namespace Chain

variable (hs : s.Linked) {g : Nat}

include hs

/-- A write is not seen through a chain that lacks the frame, nor under another name. -/
theorem get?_set_of_imp {chain : List Nat} (h : s.Chain g chain) (other : String)
    (hother : id ∈ chain → other ≠ name) :
    (s.set id name value).get? g other = s.get? g other := by
  rw [h.get?_set_eq hs, h.get?_eq hs]
  exact along_set hid name value chain other hother

/-- Behind other frames a write is seen if none of them answers first. -/
theorem get?_set {before after : List Nat} (h : s.Chain g (before ++ id :: after)) :
    (s.set id name value).get? g name = (s.along before name).or (some value) := by
  have hbefore : id ∉ before := by
    intro hmem
    exact (List.nodup_append.1 (h.nodup hs)).2.2 id hmem id List.mem_cons_self rfl
  rw [h.get?_set_eq hs, along_append, along_set_head hid,
    along_set hid name value before name fun hmem => absurd hmem hbefore]

theorem get?_set_of_free {before after : List Nat} (h : s.Chain g (before ++ id :: after))
    (hfree : s.Free before name) : (s.set id name value).get? g name = some value := by
  rw [get?_set hid name value hs h, (along_eq_none_iff s before name).2 hfree, Option.none_or]

theorem get?_set_of_not_free {before after : List Nat} (h : s.Chain g (before ++ id :: after))
    (hbound : ¬ s.Free before name) : (s.set id name value).get? g name = s.get? g name := by
  rw [get?_set hid name value hs h, h.get?_eq hs, along_append]
  cases hvalue : s.along before name with
  | none => exact absurd ((along_eq_none_iff s before name).1 hvalue) hbound
  | some v => rfl

end Chain

end

/-- From a frame outward, another is met before any further frame that binds the name. -/
def Meets (s : Store) (g id : Nat) (name : String) : Prop :=
  ∃ before after, s.Chain g (before ++ id :: after) ∧ s.Free before name

/-- What a write changes: the answers, for that name, of the frames that meet the written one first,
and no others. -/
structure Writes (s : Store) (id : Nat) (name : String) (value : Value) : Prop where
  other : ∀ g < s.size, ∀ other, other ≠ name →
    (s.set id name value).get? g other = s.get? g other
  seen : ∀ g < s.size, s.Meets g id name → (s.set id name value).get? g name = some value
  unseen : ∀ g < s.size, ¬ s.Meets g id name →
    (s.set id name value).get? g name = s.get? g name

theorem writes {s : Store} (hs : s.Linked) {id : Nat} (hid : id < s.size) (name : String)
    (value : Value) : s.Writes id name value where
  other := by
    intro g hg other hother
    obtain ⟨around, h⟩ := exists_chain hs hg
    exact h.get?_set_of_imp hid name value hs other fun _ => hother
  seen := by
    rintro g - ⟨before, after, h, hfree⟩
    exact h.get?_set_of_free hid name value hs hfree
  unseen := by
    intro g hg hmeets
    obtain ⟨around, h⟩ := exists_chain hs hg
    by_cases hmem : id ∈ g :: around
    · obtain ⟨before, after, hsplit⟩ := List.append_of_mem hmem
      rw [hsplit] at h
      exact h.get?_set_of_not_free hid name value hs fun hfree => hmeets ⟨before, after, h, hfree⟩
    · exact h.get?_set_of_imp hid name value hs name fun hid' => absurd hid' hmem

theorem bindBooleans_eq {s : Store} {id : Nat} (hid : id < s.size) :
    s.bindBooleans id =
      (s.set id Keyword.trueName.name (.bool true)).set id Keyword.falseName.name
        (.bool false) := by
  rw [set, set, own_setOwn hid, setOwn_setOwn]
  rfl

/-! ## Twins -/

/-- Two frames that lie inside the same frames, and are written apart: what is bound in one is not
seen from the other, and what is bound in a frame around them is seen from each of the two unless a
frame nearer to it binds the name. -/
structure Twins (s : Store) (f g : Nat) (around : List Nat) : Prop where
  chain_left : s.Chain f (f :: around)
  chain_right : s.Chain g (g :: around)
  apart : ∀ name value other, (s.set f name value).get? g other = s.get? g other ∧
    (s.set g name value).get? f other = s.get? f other
  shared : ∀ before id after, around = before ++ id :: after → ∀ h, h = f ∨ h = g →
    ∀ name value,
      (s.Free (h :: before) name → (s.set id name value).get? h name = some value) ∧
      (¬ s.Free (h :: before) name → (s.set id name value).get? h name = s.get? h name)

theorem twins_of_chains {s : Store} (hs : s.Linked) {f g : Nat} {around : List Nat} (hfg : f < g)
    (hg : g < s.size) (hchain : s.Chain f (f :: around)) (hchain' : s.Chain g (g :: around)) :
    s.Twins f g around where
  chain_left := hchain
  chain_right := hchain'
  apart := by
    intro name value other
    have hf : f < s.size := Nat.lt_trans hfg hg
    have hfree : f ∉ g :: around := by
      intro hmem
      obtain rfl | hmem := List.mem_cons.1 hmem
      · exact Nat.lt_irrefl f hfg
      · exact Nat.lt_irrefl f (hchain.lt_of_mem hs f hmem)
    have hfree' : g ∉ f :: around := by
      intro hmem
      exact Nat.lt_irrefl f (Nat.lt_of_lt_of_le hfg (hchain.le_of_mem hs g hmem))
    exact ⟨hchain'.get?_set_of_imp hf name value hs other fun hmem => absurd hmem hfree,
      hchain.get?_set_of_imp hg name value hs other fun hmem => absurd hmem hfree'⟩
  shared := by
    rintro before id after rfl h hh name value
    have hid : id < s.size := by
      have hlt := hchain.lt_of_mem hs id (by simp)
      omega
    have hchainh : s.Chain h ((h :: before) ++ id :: after) := by
      obtain rfl | rfl := hh
      · exact hchain
      · exact hchain'
    exact ⟨hchainh.get?_set_of_free hid name value hs,
      hchainh.get?_set_of_not_free hid name value hs⟩

section

variable {s : Store} (hs : s.Linked) {f : Nat} (hf : f < s.size) {around : List Nat}

include hf

theorem chain_clone (h : s.Chain f (f :: around)) :
    (s.clone f).Chain f (f :: around) ∧ (s.clone f).Chain s.size (s.size :: around) := by
  obtain ⟨frame, hframe⟩ := exists_frame? hf
  have hold : (s.clone f).Chain f (f :: around) := h.mono (extends_push s _)
  exact ⟨hold, hold.of_parent_eq ((s.frame?_clone_of_lt f hf).trans hframe)
    (frame?_clone_size hframe) rfl⟩

include hs

/-- A clone and the frame that it copies stay twins. -/
theorem twins_of_later {t : Store} (ht : Later (s.clone f) t) (h : s.Chain f (f :: around)) :
    t.Twins f s.size around := by
  have hclone := linked_clone hs hf
  obtain ⟨hold, hnew⟩ := chain_clone hf h
  have hext := ht.extends hclone
  refine twins_of_chains (ht.linked hclone) hf ?_ (hold.mono hext) (hnew.mono hext)
  obtain ⟨frame, hframe⟩ := exists_frame? hf
  obtain ⟨own, hown⟩ := hext _ _ (frame?_clone_size hframe)
  exact lt_size_of_frame? hown

/-- A new clone answers as the frame does that it copies. -/
theorem get?_clone_size (name : String) : (s.clone f).get? s.size name = s.get? f name := by
  obtain ⟨frame, hframe⟩ := exists_frame? hf
  rw [get?_eq (linked_clone hs hf) (frame?_clone_size hframe), get?_eq hs hframe]
  cases hp : frame.parent with
  | none => rfl
  | some p =>
    have hlt := hs f frame p hframe hp
    rw [Option.bind_some, Option.bind_some, clone, get?_push _ (by omega)]

end

/-- The laws of the frames that any operations make.  From a frame outward there is one chain; it
ends and has no cycle, and a lookup is answered by the first frame on it that binds the name.  A
write changes the answers of the frames that meet the written one first.  A clone answers as the
frame that it copies and is its twin in every later store. -/
theorem frame_laws {s : Store} (hs : s.Made) {f : Nat} (hf : f < s.size) :
    (∃ around, (∀ chain, s.Chain f chain ↔ chain = f :: around) ∧ (f :: around).Nodup ∧
      (∀ name, s.get? f name = s.along (f :: around) name) ∧
      ∀ t, Later (s.clone f) t → t.Twins f s.size around) ∧
    (∀ name value, s.Writes f name value) ∧
    s.bindBooleans f =
      (s.set f Keyword.trueName.name (.bool true)).set f Keyword.falseName.name (.bool false) ∧
    ∀ name, (s.clone f).get? s.size name = s.get? f name ∧
      (s.clone f).get? f name = s.get? f name := by
  have hlinked := hs.linked
  obtain ⟨around, h⟩ := exists_chain hlinked hf
  have hchain : ∀ chain, s.Chain f chain ↔ chain = f :: around :=
    fun chain => ⟨fun h' => h'.unique h, fun heq => heq ▸ h⟩
  refine ⟨⟨around, hchain, h.nodup hlinked, h.get?_eq hlinked, fun t ht => ?_⟩, writes hlinked hf,
    bindBooleans_eq hf, fun name => ⟨get?_clone_size hlinked hf name, ?_⟩⟩
  · exact twins_of_later hlinked hf ht h
  · exact get?_push _ (Nat.ne_of_lt hf) name

/-- A frame that binds `x`, and a frame inside it. -/
def nested : Store :=
  ((new {}).set 0 "x" (.int 1)).enclose 0

theorem made_nested : nested.Made :=
  ((Relation.ReflTransGen.refl.tail (.new _)).tail (.set (by decide) _ _)).tail
    (.enclose (by decide))

/-- The inner frame and its clone, after the clone has bound `x`: what the frame around them binds
next is seen from the one and not from the other. -/
theorem nested_clone_shadows :
    nested.Made ∧ 1 < nested.size ∧
      ((nested.clone 1).set 2 "x" (.int 2)).Twins 1 2 [0] ∧
      (((nested.clone 1).set 2 "x" (.int 2)).set 0 "x" (.int 3)).get? 1 "x" = some (.int 3) ∧
      (((nested.clone 1).set 2 "x" (.int 2)).set 0 "x" (.int 3)).get? 2 "x" = some (.int 2) := by
  have hsize : 1 < nested.size := by decide
  obtain ⟨⟨around, hchain, -, -, htwins⟩, -⟩ := frame_laws made_nested hsize
  have haround : [1, 0] = 1 :: around := (hchain [1, 0]).1 (.outward rfl rfl (.last rfl rfl))
  cases haround
  have htwins := htwins _ (.single (.set (by decide : 2 < (nested.clone 1).size) "x" (.int 2)))
  have hfree : Free ((nested.clone 1).set 2 "x" (.int 2)) [1] "x" := by
    intro id hid
    cases List.mem_singleton.1 hid
    rfl
  have hbound : ¬ Free ((nested.clone 1).set 2 "x" (.int 2)) [2] "x" := by
    intro hfree
    cases hfree 2 (List.mem_singleton.2 rfl)
  refine ⟨made_nested, hsize, htwins, ?_, ?_⟩
  · exact (htwins.shared [] 0 [] rfl 1 (.inl rfl) "x" (.int 3)).1 hfree
  · exact (htwins.shared [] 0 [] rfl 2 (.inr rfl) "x" (.int 3)).2 hbound

end SmallLisp.Store
