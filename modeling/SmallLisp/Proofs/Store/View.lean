import Mathlib.Logic.Basic
import SmallLisp.Proofs.Eval.Lookup
import SmallLisp.Proofs.Store.Process

/-!
# What a run shows

What can be seen of a run in a frame of a store is how it ended, what it printed, what it traced,
and what the frame answers afterwards.  That is its `View`.  A run on shared frames has the same
view (`sharedView_eq`).

A chain of frames is as good as one frame that binds all that can be seen from it: the view of a run
depends on what the frame answers before it and on nothing else (`view_eq_of_answers`).  `flat` is
that one frame.  And a frame that answers more shows the same as long as no name is missing
(`view_within_of_answers`).
-/

namespace SmallLisp

/-! ## Flat frames -/

/-- The bindings, and those of others that they do not shadow. -/
def Bindings.shadowing (b below : Bindings) : Bindings :=
  b.entries.foldr (fun entry bindings => bindings.set entry.1 entry.2) below

theorem Bindings.get?_shadowing (b below : Bindings) (name : String) :
    (b.shadowing below).get? name = (b.get? name).or (below.get? name) := by
  obtain ⟨entries⟩ := b
  simp only [shadowing, get?]
  induction entries with
  | nil => rfl
  | cons entry entries ih =>
    rw [List.foldr_cons, ← get?, get?_set, get?, ih, lookupEntry]
    by_cases h : name = entry.1
    · simp [h]
    · simp [h, Ne.symm h]

/-- All that can be seen from the frame with a number, as the bindings of one frame. -/
def flattenIn : List Frame → Nat → Bindings
  | [], _ => .empty
  | f :: older, id =>
    if id = older.length then
      match f.parent with
      | some p => f.own.shadowing (flattenIn older p)
      | none => f.own
    else flattenIn older id

theorem get?_flattenIn (name : String) (frames : List Frame) (id : Nat) :
    (flattenIn frames id).get? name = getIn? name frames id := by
  induction frames generalizing id with
  | nil => rfl
  | cons f older ih =>
    rw [flattenIn, getIn?]
    split
    · cases f.parent with
      | none => cases f.own.get? name <;> rfl
      | some p =>
        simp only [Bindings.get?_shadowing, ih]
        cases f.own.get? name <;> rfl
    · exact ih id

namespace Store

/-- A store with one frame, which binds all that can be seen from a frame of another store. -/
def flat (s : Store) (id : Nat) : Store :=
  ⟨[⟨none, flattenIn s.frames id⟩]⟩

theorem linked_flat (s : Store) (id : Nat) : (s.flat id).Linked :=
  linked_push linked_empty nofun

theorem get?_flat (s : Store) (id : Nat) (name : String) :
    (s.flat id).get? 0 name = s.get? id name := by
  have hframe : (s.flat id).frame? 0 = some ⟨none, flattenIn s.frames id⟩ := rfl
  rw [get?_eq (linked_flat s id) hframe, Option.bind_none, Option.or_none]
  exact get?_flattenIn name s.frames id

end Store

/-! ## Views -/

/-- What a run in a frame shows. -/
structure View where
  result : Except Error Value
  output : String
  /-- The trace with a label in front of each entry. -/
  trace : String → String
  /-- What the frame answers afterwards. -/
  answers : String → Option Value

/-- The same was to be seen, and what the frames answer afterwards is related. -/
structure View.Like (A : (String → Option Value) → (String → Option Value) → Prop) (v v' : View) :
    Prop where
  result : v'.result = v.result
  output : v'.output = v.output
  trace : v'.trace = v.trace
  answers : A v.answers v'.answers

/-- What a run with this result and this record shows in a frame of the store that it left. -/
def Store.view (t : Store) (id : Nat) (result : Except Error Value) (record : List Activity) :
    View where
  result := result
  output := outputOf (Activity.moments record)
  trace label := traceOf label (Activity.moments record)
  answers := t.get? id

namespace Request

variable (i : Interpreter) (q : Request) {s s' : Store} {id id' : Nat}

/-- What doing what is asked in a frame shows. -/
def view (s : Store) (id : Nat) : View :=
  let (o, t) := s.run id (q.run i)
  t.view id o.result o.record

/-- The same, if it is done on shared frames. -/
def sharedView (s : Store) (id : Nat) : View :=
  let e := q.perform i id s
  e.store.view id e.result e.record

theorem answers_view (hs : s.Linked) (hid : id < s.size) (name : String) :
    (q.view i s id).answers name =
      Scope.get? { s.scope id with own := (q.run i (s.scope id)).own } name := by
  rw [← Store.scope_setOwn hs hid]
  exact (Store.get?_scope (Store.linked_setOwn hs id _) (by rwa [Store.size_setOwn]) name).symm

theorem sharedView_eq (hs : s.Linked) (hid : id < s.size) :
    q.sharedView i s id = q.view i s id := by
  have h := q.realizes i s id hs hid
  have hanswers : (q.perform i id s).store.get? id = (q.view i s id).answers := by
    funext name
    rw [answers_view i q hs hid, ← h.scope hs hid]
    exact (Store.get?_scope h.linked (Nat.lt_of_lt_of_le hid h.size) name).symm
  simp only [sharedView, Store.view, h.result, h.record, hanswers]
  rfl

/-- If evaluation does not tell related answers apart, runs in frames with such answers show the
same, and the answers afterwards are related again. -/
theorem view_like {A : (String → Option Value) → (String → Option Value) → Prop}
    {Excused : Error → Prop} (hA : Indistinct (fun s s' => A s.get? s'.get?) Excused)
    (hs : s.Linked) (hs' : s'.Linked) (hid : id < s.size) (hid' : id' < s'.size)
    (h : A (s.get? id) (s'.get? id')) :
    (∃ e, (q.view i s id).result = .error e ∧ Excused e) ∨
      (q.view i s id).Like A (q.view i s' id') := by
  have hscope : A (s.scope id).get? (s'.scope id').get? := by
    rwa [funext (Store.get?_scope hs hid), funext (Store.get?_scope hs' hid')]
  have hanswers := funext (answers_view i q hs hid)
  have hanswers' := funext (answers_view i q hs' hid')
  have hlike := hA.request i q _ _ hscope
  generalize ho : q.run i (s.scope id) = o at hlike hanswers
  generalize ho' : q.run i (s'.scope id') = o' at hlike hanswers'
  cases hlike with
  | excused hresult he =>
    refine .inl ⟨_, ?_, he⟩
    rw [← hresult, ← ho]
    rfl
  | same hrecord hafter =>
    refine .inr ⟨?_, ?_, ?_, ?_⟩
    · simp only [view, Store.run, Store.view, ho, ho']
    · simp only [view, Store.run, Store.view, ho, ho', hrecord.outputOf_eq]
    · simp only [view, Store.run, Store.view, ho, ho', hrecord.traceOf_eq]
    · rw [hanswers, hanswers']
      exact hafter

end Request

theorem View.Like.eq {v v' : View} (h : v.Like Eq v') : v' = v := by
  obtain ⟨result, output, trace, answers⟩ := v
  obtain ⟨rfl, rfl, rfl, rfl⟩ := h
  rfl

/-! ## Chains of frames -/

/-- What a run shows depends on what its frame answers and not on how the bindings are spread over
the frames around it.  So one frame with all of them does, and it makes no difference that frames
are shared. -/
theorem view_eq_of_answers (i : Interpreter) (q : Request) {s : Store} (hs : s.Linked) {id : Nat}
    (hid : id < s.size) :
    q.sharedView i s id = q.view i s id ∧
      (∀ (s' : Store) (id' : Nat), s'.Linked → id' < s'.size →
        (∀ name, s'.get? id' name = s.get? id name) →
        q.view i s' id' = q.view i s id ∧ q.sharedView i s' id' = q.sharedView i s id) ∧
      q.view i (s.flat id) 0 = q.view i s id := by
  have hview : ∀ (s' : Store) (id' : Nat), s'.Linked → id' < s'.size →
      (∀ name, s'.get? id' name = s.get? id name) → q.view i s' id' = q.view i s id := by
    intro s' id' hs' hid' h
    rcases q.view_like i indistinct_eq hs hs' hid hid' (funext h).symm with ⟨e, -, he⟩ | hlike
    · exact he.elim
    · exact hlike.eq
  refine ⟨q.sharedView_eq i hs hid, fun s' id' hs' hid' h => ⟨hview s' id' hs' hid' h, ?_⟩, ?_⟩
  · rw [q.sharedView_eq i hs hid, q.sharedView_eq i hs' hid', hview s' id' hs' hid' h]
  · exact hview _ 0 (s.linked_flat id) Nat.one_pos (s.get?_flat id)

/-- A frame inside another one, which binds a name. -/
def nameAround : Store :=
  ((Store.new {}).set 0 "x" (.int 1)).enclose 0

/-- Calls a lambda that defines the name and prints it, then prints it again. -/
def hidesName : Request :=
  .eval (.list
    [.list [.keyword .define, .symbol "f", .list [.keyword .lambda, .list [], .list
        [.list [.keyword .define, .symbol "x", .int 2], .list [.keyword .print, .symbol "x"]]]],
     .list [.symbol "f"],
     .list [.keyword .print, .symbol "x"]])

/-- What the call defines is dropped with its frame, whether the name is bound in the caller's frame
or in the one around it. -/
theorem hidesName_view_eq :
    let i : Interpreter := ⟨.atMost 1, fun _ => .error "no such file"⟩
    let single := (Store.new {}).set 0 "x" (.int 1)
    (nameAround.Linked ∧ single.Linked ∧ ∀ name, single.get? 0 name = nameAround.get? 1 name) ∧
      hidesName.view i single 0 = hidesName.view i nameAround 1 ∧
      (hidesName.view i nameAround 1).output =
        "Type: Integer, Var x: 2\nType: Integer, Var x: 1\n" := by
  have hsingle : ((Store.new {}).set 0 "x" (.int 1)).Linked :=
    Store.linked_setOwn (Store.linked_new Store.linked_empty) 0 _
  have hlinked : nameAround.Linked := Store.linked_enclose hsingle (by decide)
  have hanswers : ∀ name, ((Store.new {}).set 0 "x" (.int 1)).get? 0 name =
      nameAround.get? 1 name := fun _ => rfl
  have hsize : 1 < nameAround.size := by decide
  obtain ⟨-, hview, -⟩ := view_eq_of_answers ⟨.atMost 1, fun _ => .error "no such file"⟩ hidesName
    hlinked hsize
  exact ⟨⟨hlinked, hsingle, hanswers⟩, (hview _ 0 hsingle (by decide) hanswers).1, rfl⟩

/-! ## More answers -/

/-- A frame that answers more shows the same, unless a name was missing: the same result or error,
output and trace, and afterwards it again gives all the answers of the other. -/
theorem view_within_of_answers (i : Interpreter) (q : Request) {s s' : Store} (hs : s.Linked)
    (hs' : s'.Linked) {id id' : Nat} (hid : id < s.size) (hid' : id' < s'.size)
    (h : AnswersWithin (s.get? id) (s'.get? id'))
    (hbound : ∀ e, (q.view i s id).result = .error e → e.kind ≠ .unboundSymbol) :
    (q.view i s id).Like AnswersWithin (q.view i s' id') ∧
      (q.sharedView i s id).Like AnswersWithin (q.sharedView i s' id') := by
  rw [q.sharedView_eq i hs hid, q.sharedView_eq i hs' hid', and_self]
  rcases q.view_like i indistinct_within hs hs' hid hid' h with ⟨e, he, hkind⟩ | hlike
  · exact absurd hkind (hbound e he)
  · exact hlike

/-- A frame that binds a name, inside one that binds another name. -/
def otherNameAround : Store :=
  (((Store.new {}).set 0 "f" (.int 5)).enclose 0).set 1 "x" (.int 0)

/-- Defines that other name as a lambda that divides by the first, and calls it. -/
def divides : Request :=
  .eval (.list
    [.list [.keyword .define, .symbol "f", .list [.keyword .lambda, .list [.symbol "a"],
        .list [.symbol "/", .symbol "a", .symbol "x"]]],
     .list [.symbol "f", .int 1]])

/-- The division by zero is met in both frames, with or without a value of the other name. -/
theorem divides_within :
    let i : Interpreter := ⟨.atMost 1, fun _ => .error "no such file"⟩
    let single := (Store.new {}).set 0 "x" (.int 0)
    (single.Linked ∧ otherNameAround.Linked ∧
        AnswersWithin (single.get? 0) (otherNameAround.get? 1)) ∧
      (divides.view i single 0).result = .error (.divisionByZero 1 .div 0) ∧
      (divides.view i otherNameAround 1).result = .error (.divisionByZero 1 .div 0) := by
  have hsingle : ((Store.new {}).set 0 "x" (.int 0)).Linked :=
    Store.linked_setOwn (Store.linked_new Store.linked_empty) 0 _
  have hlinked : otherNameAround.Linked := by
    refine Store.linked_setOwn (Store.linked_enclose ?_ (by decide)) 1 _
    exact Store.linked_setOwn (Store.linked_new Store.linked_empty) 0 _
  have hwithin : AnswersWithin (((Store.new {}).set 0 "x" (.int 0)).get? 0)
      (otherNameAround.get? 1) := by
    intro name v h
    rw [Store.get?_eq hsingle (f := ⟨none, ⟨[("x", .int 0)]⟩⟩) rfl, Option.bind_none,
      Option.or_none] at h
    rw [Store.get?_eq hlinked (f := ⟨some 0, ⟨[("x", .int 0)]⟩⟩) rfl, h]
    rfl
  have hresult : (divides.view ⟨.atMost 1, fun _ => .error "no such file"⟩
      ((Store.new {}).set 0 "x" (.int 0)) 0).result = .error (.divisionByZero 1 .div 0) := by rfl
  obtain ⟨hview, -⟩ := view_within_of_answers ⟨.atMost 1, fun _ => .error "no such file"⟩ divides
    hsingle hlinked (by decide) (by decide) hwithin (by
      rw [hresult]
      rintro e ⟨⟩
      decide)
  exact ⟨⟨hsingle, hlinked, hwithin⟩, hresult, hview.result.trans hresult⟩

end SmallLisp
