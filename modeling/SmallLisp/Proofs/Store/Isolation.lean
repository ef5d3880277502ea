import Mathlib.Logic.Basic
import SmallLisp.Proofs.Store.Process

/-!
# What evaluation writes

Evaluation in a frame of a store writes into that frame only, and what it writes there only adds or
replaces bindings.

The first half is read off from `Request.realizes`: on shared frames, where every frame could be
written, a run leaves what `Store.run` leaves.  The frames of calls, which do get written, are all
new.

The second half is a property of evaluations, `Keeps`.  Every kind of request has it
(`Keeps.congruence`), so every run does.  A failure in the middle is no exception: the bindings made
up to there stay.
-/

namespace SmallLisp

/-! ## Bound names -/

/-- Every name that the first binds the second binds too, perhaps to another value. -/
def Bindings.Within (b b' : Bindings) : Prop :=
  ∀ name, (b.get? name).isSome → (b'.get? name).isSome

namespace Bindings.Within

theorem refl (b : Bindings) : b.Within b :=
  fun _ h => h

theorem trans {b b' b'' : Bindings} (h : b.Within b') (h' : b'.Within b'') : b.Within b'' :=
  fun name hname => h' name (h name hname)

theorem set (b : Bindings) (name : String) (value : Value) : b.Within (b.set name value) := by
  intro other h
  rw [Bindings.get?_set]
  split
  · rfl
  · exact h

end Bindings.Within

section

variable {α β : Type}

/-- The evaluation unbinds no name, whether it fails or not. -/
def Keeps (x : Evaluation α) : Prop :=
  ∀ s : Scope, s.own.Within (x s).own

/-- What leaves the bindings alone keeps them. -/
theorem keeps_of_own_eq {x : Evaluation α} (h : ∀ s, (x s).own = s.own) : Keeps x := by
  intro s
  rw [h s]
  exact .refl _

theorem Keeps.bind {x : Evaluation α} {f : α → Evaluation β} (hx : Keeps x)
    (hf : ∀ a, Keeps (f a)) : Keeps (x >>= f) := by
  intro s
  have hfirst := hx s
  rcases ho : x s with ⟨result, own, record⟩
  rw [ho] at hfirst
  cases result with
  | error e =>
    rw [Evaluation.bind_of_error ho]
    exact hfirst
  | ok a =>
    rw [Evaluation.bind_of_ok ho]
    exact hfirst.trans (hf a { s with own := own })

theorem Keeps.nested {x : Evaluation α} (h : Keeps x) : Keeps (.nested x) :=
  fun s => h s

theorem keeps_pure (a : α) : Keeps (pure a) :=
  keeps_of_own_eq fun _ => rfl

theorem keeps_fail (e : Error) : Keeps (.fail e : Evaluation α) :=
  keeps_of_own_eq fun _ => rfl

theorem keeps_lookup (name : String) : Keeps (.lookup name) := by
  refine keeps_of_own_eq fun s => ?_
  rw [Evaluation.lookup]
  cases s.get? name <;> rfl

theorem keeps_define (name : String) (value : Value) : Keeps (.define name value) :=
  fun s => .set s.own name value

/-- What is done in a frame of its own keeps the bindings, whatever it does there. -/
theorem keeps_inFrame (frame : Bindings) (x : Evaluation α) : Keeps (.inFrame frame x) :=
  keeps_of_own_eq fun _ => rfl

/-! ## Requests unbind nothing -/

/-- Whatever a script can ask for unbinds no name. -/
theorem Keeps.congruence :
    Congruence (fun _ => True) fun {α : Type} (x _ : Evaluation α) => Keeps x where
  pure := keeps_pure
  bind := Keeps.bind
  fail _ := keeps_fail _
  lookup := keeps_lookup
  define := keeps_define
  print _ := keeps_of_own_eq fun _ => rfl
  clone := keeps_of_own_eq fun _ => rfl
  bindParam _ _ _ := keeps_pure _
  called _ _ _ := keeps_of_own_eq fun _ => rfl
  inFrame frame _ := keeps_inFrame frame _
  fetch _ _ := keeps_of_own_eq fun _ => rfl

end

theorem Request.keeps (i : Interpreter) (q : Request) : Keeps (q.run i) :=
  Keeps.congruence.correspondence.request Discipline.sound_any Keeps.nested i (fun _ _ => trivial)
    fun _ _ => trivial

/-! ## Frames that are written -/

namespace Store

/-- Of the frames of the first store only one was written on the way to the second.  It still lies
inside the same frame, and the names that it bound are still bound in it. -/
structure OnlyWrites (s : Store) (id : Nat) (t : Store) : Prop where
  others : ∀ j < s.size, j ≠ id → t.frame? j = s.frame? j
  parent : (t.frame? id).map Frame.parent = (s.frame? id).map Frame.parent
  own : (s.own id).Within (t.own id)

/-- New bindings of a frame, with the names that it bound among them, are all that was written. -/
theorem onlyWrites_of_frames {s t : Store} {id : Nat} {own : Bindings} (hid : id < s.size)
    (h : ∀ j < s.size, t.frame? j = (s.setOwn id own).frame? j) (hown : (s.own id).Within own) :
    s.OnlyWrites id t := by
  obtain ⟨f, hf⟩ := exists_frame? hid
  have hg : t.frame? id = some { f with own := own } := by
    rw [h id hid, frame?_setOwn, if_pos rfl, hf]
    rfl
  refine ⟨fun j hj hne => ?_, ?_, ?_⟩
  · rw [h j hj, frame?_setOwn, if_neg hne]
  · rw [hg, hf]
    rfl
  · rw [own_eq hg]
    exact hown

end Store

/-- Evaluation writes only the frame that it is given.  That holds of a run that sees one frame, and
of the run on shared frames, which follows it. -/
theorem follows_and_onlyWrites (i : Interpreter) (q : Request) {s : Store} (hs : s.Linked)
    {id : Nat} (hid : id < s.size) :
    Follows s id (s.run id (q.run i)).1 (q.perform i id s) ∧
      s.OnlyWrites id (q.perform i id s).store ∧ s.OnlyWrites id (s.run id (q.run i)).2 := by
  have hfollows := q.realizes i s id hs hid
  have hown : (s.own id).Within (q.run i (s.scope id)).own := q.keeps i (s.scope id)
  exact ⟨hfollows, Store.onlyWrites_of_frames hid hfollows.frames hown,
    Store.onlyWrites_of_frames hid (fun _ _ => rfl) hown⟩

/-- A frame that binds a lambda, and a frame inside it that binds the lambda's parameter. -/
def lambdaAround : Store :=
  let body := [.keyword .define, .symbol "x", .int 5]
  (((Store.new {}).set 0 "f" (.lambda ["x"] body)).enclose 0).set 1 "x" (.int 7)

/-- In the inner frame, calls the lambda with a definition as its argument, and then fails. -/
def defineAndFail : Ending Value :=
  Request.perform ⟨.atMost 1, fun _ => .error "no such file"⟩
    (.eval (.list
      [.list [.symbol "f", .list [.keyword .define, .symbol "y", .int 6]], .symbol "missing"]))
    1 lambdaAround

/-- The argument is defined in the caller's frame, and what the body defines is left in a third
frame. -/
theorem defineAndFail_onlyWrites :
    lambdaAround.Linked ∧ 1 < lambdaAround.size ∧ lambdaAround.OnlyWrites 1 defineAndFail.store ∧
      defineAndFail.result = .error (.unbound "missing") ∧
      defineAndFail.store.own 1 = ⟨[("x", .int 7), ("y", .int 6)]⟩ ∧
      defineAndFail.store.own 2 = ⟨[("x", .int 5)]⟩ := by
  have hlinked : lambdaAround.Linked := by
    refine Store.linked_setOwn (Store.linked_enclose ?_ (by decide)) 1 _
    exact Store.linked_setOwn (Store.linked_new Store.linked_empty) 0 _
  have hsize : 1 < lambdaAround.size := by decide
  obtain ⟨-, hwrites, -⟩ := follows_and_onlyWrites _ _ hlinked hsize
  exact ⟨hlinked, hsize, hwrites, rfl, rfl, rfl⟩

end SmallLisp
