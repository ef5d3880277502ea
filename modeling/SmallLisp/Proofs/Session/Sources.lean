import Mathlib.Logic.Basic
import SmallLisp.Proofs.ModulePath
import SmallLisp.Proofs.Session.Live

/-!
# Only source files are read

A program may compute the path of a module, and modules may load modules, but every path goes
through `modulePath` before it is handed to the reader.  So an action adds nothing but source files
to the paths that were asked for (`Request.adds`), whatever the frames, the counter and the limit.

`reads_sources` says so of anything that can be done with a session and its interpreter, in any
order, and of what the records tell.
-/

namespace SmallLisp

/-- The second world has all the paths asked for that the first has, and then only source files. -/
def World.AddsSources (w w' : World) : Prop :=
  ∃ new, w'.asked = w.asked ++ new ∧ ∀ file ∈ new, isSourceFile file = true

namespace World.AddsSources

variable {w w' w'' : World}

theorem of_eq (h : w'.asked = w.asked) : w.AddsSources w' :=
  ⟨[], h.trans (List.append_nil _).symm, nofun⟩

/-- Sources may be added in steps. -/
theorem trans (h : w.AddsSources w') (h' : w'.AddsSources w'') : w.AddsSources w'' := by
  obtain ⟨new, hnew, hsources⟩ := h
  obtain ⟨new', hnew', hsources'⟩ := h'
  refine ⟨new ++ new', by rw [hnew', hnew, List.append_assoc], fun file hfile => ?_⟩
  rcases List.mem_append.1 hfile with hfile | hfile
  · exact hsources file hfile
  · exact hsources' file hfile

/-- Where nothing had been asked for, all that has been is source files. -/
theorem sources (h : w.AddsSources w') (hw : w.asked = []) :
    ∀ file ∈ w'.asked, isSourceFile file = true := by
  obtain ⟨new, hnew, hsources⟩ := h
  rw [hnew, hw, List.nil_append]
  exact hsources

end World.AddsSources

/-! ## Actions -/

section

variable {α β : Type}

/-- The action hands source files to the reader, and nothing else. -/
def Action.Adds (x : Action α) : Prop :=
  ∀ id (w : World), w.AddsSources (x id w).2

theorem adds_of_asked_eq {x : Action α} (h : ∀ id w, (x id w).2.asked = w.asked) : x.Adds :=
  fun id w => .of_eq (h id w)

/-- Actions in a row ask for what both ask for. -/
theorem Action.Adds.bind {x : Action α} {f : α → Action β} (hx : x.Adds) (hf : ∀ a, (f a).Adds) :
    (x >>= f).Adds := by
  intro id w
  have hfirst := hx id w
  change w.AddsSources (Action.bind x f id w).2
  rcases hw : x id w with ⟨result, w'⟩
  rw [hw] at hfirst
  rw [Action.bind, hw]
  cases result with
  | error e => exact hfirst
  | ok a => exact hfirst.trans (hf a id w')

theorem adds_pure (a : α) : (pure a : Action α).Adds :=
  adds_of_asked_eq fun _ _ => rfl

theorem adds_fail (e : Error) : (.fail e : Action α).Adds :=
  adds_of_asked_eq fun _ _ => rfl

theorem adds_lookup (name : String) : (Action.lookup name).Adds := by
  refine adds_of_asked_eq fun id w => ?_
  rw [Action.lookup]
  cases w.store.get? id name <;> rfl

theorem adds_trace (text : String) : (Action.trace text).Adds := by
  refine adds_of_asked_eq fun id w => ?_
  rw [Action.trace_eq]

theorem adds_define (name : String) (value : Value) : (Action.define name value).Adds :=
  (adds_trace _).bind fun _ => adds_of_asked_eq fun _ _ => rfl

/-- The one action that asks for a file asks for a source file. -/
theorem adds_ask (read : ModuleReader) {file : String} (h : isSourceFile file = true) :
    (Action.ask read file).Adds := by
  intro id w
  refine ⟨[file], rfl, fun other hother => ?_⟩
  rw [List.mem_singleton.1 hother]
  exact h

theorem Action.Adds.inFrame {x : Action α} (h : x.Adds) (other : Nat) :
    (Action.inFrame other x).Adds :=
  fun _ w => h other w

theorem Action.Adds.counted {x : Action α} (h : x.Adds) (limit : Limit) (what : String) :
    (Action.counted limit what x).Adds := by
  intro id w
  rw [Action.counted]
  split
  · exact .of_eq rfl
  · exact h id { w with depth := w.depth + 1 }

/-- Whatever a script can ask for, only source files are handed to the reader. -/
theorem Action.Adds.congruence :
    Congruence (fun _ => True) fun {α : Type} (x _ : Action α) => x.Adds where
  pure := adds_pure
  bind := Action.Adds.bind
  fail _ := adds_fail _
  lookup := adds_lookup
  define := adds_define
  print _ := adds_of_asked_eq fun _ _ => rfl
  clone := adds_of_asked_eq fun _ _ => rfl
  bindParam callee _ _ := (adds_of_asked_eq fun _ _ => rfl).bind fun _ => adds_pure callee
  called _ _ _ := adds_trace _
  inFrame callee h := h.inFrame callee
  fetch read hfile := (adds_trace _).bind fun _ => adds_ask read hfile

end

/-- Whatever is asked of an interpreter, it reads source files only. -/
theorem Request.adds (i : Interpreter) (q : Request) : (q.act i).Adds :=
  Action.Adds.congruence.correspondence.level Discipline.sound_any
    (fun _ what => (adds_fail _).counted i.limit what) (fun _ what _ _ h => h.counted i.limit what)
    i.read i.limit.room 0 q.script.obeys_any

/-! ## Sessions -/

/-- What can be done with a session and its interpreter. -/
inductive Use where
  /-- The interpreter is asked to do something in a frame. -/
  | request (id : Nat) (q : Request)
  /-- The session is given an input. -/
  | input (x : Input)

/-- The session after a use of it. -/
def LiveSession.use (t : LiveSession) : Use → LiveSession
  | .request id q => { t with world := (q.act t.interpreter id t.world).2 }
  | .input x => ((x.routine t.prompt).run backend t).2

theorem LiveSession.keeps_adds (w : World) :
    LiveSession.backend.Keeps fun t => w.AddsSources t.world where
  ask {t} h q _ := World.AddsSources.trans h (q.adds t.interpreter t.user t.world.cleared)
  reset h := World.AddsSources.trans h (.of_eq rfl)

/-- So does a session in one use. -/
theorem LiveSession.use_adds (t : LiveSession) (x : Use) : t.world.AddsSources (t.use x).world := by
  cases x with
  | request id q => exact q.adds t.interpreter id t.world
  | input x => exact (keeps_adds t.world).run _ (.of_eq rfl)

/-- And so it does in any number of uses. -/
theorem LiveSession.uses_add (uses : List Use) (t : LiveSession) :
    t.world.AddsSources (uses.foldl use t).world := by
  induction uses generalizing t with
  | nil => exact .of_eq rfl
  | cons x uses ih => exact (t.use_adds x).trans (ih (t.use x))

theorem LiveSession.serve_adds (inputs : List Input) (t : LiveSession) :
    t.world.AddsSources (t.serve inputs).2.world :=
  (keeps_adds t.world).serve t.prompt inputs (.of_eq rfl)

/-- Only source files are ever read.  A module path stands for a source file, which stands for
itself, or is refused, and it is refused if it has another extension.  Whatever is done with a
session and its interpreter, the paths handed to the reader are source files, and so are the files
that records tell of. -/
theorem reads_sources :
    (∀ path file, modulePath path = .ok file →
        isSourceFile file = true ∧ modulePath file = .ok file) ∧
      (∀ path : String, (∃ file, modulePath path = .ok file) ↔
        HasExtension path.toList [] ∨ HasExtension path.toList ".lisp".toList ∨
          HasExtension path.toList ".cl".toList) ∧
      (∀ path : String, isSourceFile path = true ↔
        HasExtension path.toList ".lisp".toList ∨ HasExtension path.toList ".cl".toList) ∧
      (∀ (t : LiveSession) (uses : List Use), ∃ new,
        (uses.foldl LiveSession.use t).world.asked = t.world.asked ++ new ∧
          ∀ file ∈ new, isSourceFile file = true) ∧
      (∀ (i : Interpreter) (prompt : String) (inputs : List Input),
        ∀ file ∈ filesRead (happened ((Session.start i prompt).serve inputs).1),
          isSourceFile file = true) ∧
      ∀ (i : Interpreter) (q : Request) (s : Store) (id : Nat), s.Linked → id < s.size →
        ∀ file ∈ filesRead (Activity.moments (s.run id (q.run i)).1.record),
          isSourceFile file = true := by
  refine ⟨fun path file h => ?_, fun path => exists_modulePath_iff, fun path => ?_,
    fun t uses => LiveSession.uses_add uses t, fun i prompt inputs => ?_,
    fun i q s id hs hid => ?_⟩
  · have hsource := isSourceFile_of_modulePath h
    exact ⟨hsource, modulePath_of_isSourceFile hsource⟩
  · simp only [← extensionOf_eq_iff]
    exact isSourceFile_iff
  · have hasked := (LiveSession.serve_start i prompt none inputs).2.asked
    rw [List.nil_append] at hasked
    rw [← hasked]
    exact ((LiveSession.start i prompt none).serve_adds inputs).sources rfl
  · have hasked : (q.act i id { store := s }).2.asked =
        filesRead (Activity.moments (s.run id (q.run i)).1.record) :=
      (q.acts i rfl hs hid).asked.trans (List.nil_append _)
    rw [← hasked]
    exact (q.adds i id { store := s }).sources rfl

/-- A program that puts the path of a module together and loads the module. -/
def loadsComputed : Request :=
  .eval (.list
    [.list [.keyword .define, .symbol "p", .list [.symbol "concat", .str "lib.d", .str "/m"]],
      .list [.keyword .load, .symbol "p"]])

/-- The dot of the directory is no extension, so the default one is appended. -/
theorem loadsComputed_reads :
    let i : Interpreter := ⟨.atMost 1, fun _ => .error "no such file"⟩
    let o := ((Store.new {}).run 0 (loadsComputed.run i)).1
    (Store.new {}).Linked ∧ filesRead (Activity.moments o.record) = ["lib.d/m.lisp"] ∧
      (∀ file ∈ filesRead (Activity.moments o.record), isSourceFile file = true) ∧
      modulePath "lib.d/m" = .ok "lib.d/m.lisp" ∧
      isSourceFile "lib.d/m.lisp" = true ∧ modulePath "lib.d/m.lisp" = .ok "lib.d/m.lisp" := by
  intro i o
  have hlinked : (Store.new {}).Linked := Store.linked_new Store.linked_empty
  have hpath : modulePath "lib.d/m" = .ok "lib.d/m.lisp" := rfl
  obtain ⟨hmodule, -, -, -, -, hrecord⟩ := reads_sources
  exact ⟨hlinked, rfl, hrecord i loadsComputed (Store.new {}) 0 hlinked (by decide), hpath,
    hmodule _ _ hpath⟩

end SmallLisp
