import Mathlib.Logic.Basic
import SmallLisp.Proofs.Store.Machine

/-!
# Acting on the world

An *action* does to the world what a program does: it prints to an output, hands paths to the
module reader, and writes entries to a logger if there is one.  An entry is made on the spot, in
between the evaluation of a value and its binding, or of the arguments and the body of a call, and
is indented by the counter as it stands then.

A machine logs events instead.  `Shows x y` says that the action `y` does what the machine `x` logs:
every printed text is appended to the output, every file asked for is handed to the reader, and
every event that the trace tells of is written to the logger.  The logger has no part in anything
else, which is what the proof has to look at in every place where an entry is made.

`Request.acts` says what that comes to between a frame of a store and an evaluation.
-/

namespace SmallLisp

/-! ## Loggers -/

/-- What has been written to a logger, each entry with the label in front. -/
structure Logger where
  label : String
  entries : List String := []

/-- Writes an entry with an indentation for this many active calls and loads. -/
def Logger.write (l : Logger) (depth : Nat) (text : String) : Logger :=
  { l with entries := l.entries ++ [l.label ++ endLine (traceIndent depth ++ text)] }

/-- The entry of a moment, if the trace tells of its event. -/
def Moment.line? (label : String) (m : Moment) : Option String :=
  m.event.traceText?.map fun text => label ++ endLine (traceIndent m.depth ++ text)

/-- The logger with the entries of moments. -/
def Logger.record (l : Logger) (ms : List Moment) : Logger :=
  { l with entries := l.entries ++ ms.filterMap (Moment.line? l.label) }

theorem Logger.record_nil (l : Logger) : l.record [] = l := by
  simp [record]

theorem Logger.record_record (l : Logger) (a b : List Moment) :
    (l.record a).record b = l.record (a ++ b) := by
  simp [record]

theorem Moment.traceEntry_eq (label : String) (m : Moment) :
    m.traceEntry label = (m.line? label).getD "" := by
  unfold traceEntry line?
  cases m.event.traceText? <;> rfl

/-- The trace is made of the entries. -/
theorem traceOf_eq (label : String) (ms : List Moment) :
    traceOf label ms = (ms.filterMap (Moment.line? label)).foldl (· ++ ·) "" := by
  unfold traceOf
  generalize "" = text
  induction ms generalizing text with
  | nil => rfl
  | cons m ms ih =>
    rw [List.foldl_cons, ih, Moment.traceEntry_eq]
    cases h : m.line? label with
    | none => simp [h]
    | some entry => simp [h]

/-! ## Actions -/

/-- What actions change. -/
structure World where
  /-- All frames. -/
  store : Store
  /-- How many calls and loads are active. -/
  depth : Nat := 0
  /-- What has been printed. -/
  output : String := ""
  /-- The paths that were handed to the module reader. -/
  asked : List String := []
  /-- What follows the run, if anything does. -/
  logger : Option Logger := none

/-- Something to be done to the world, from the frame with a number. -/
def Action (α : Type) : Type :=
  Nat → World → Except Error α × World

namespace Action

variable {α β : Type}

/-- Does nothing. -/
protected def pure (a : α) : Action α :=
  fun _ w => (.ok a, w)

/-- Does the first, then the second with its result. -/
protected def bind (x : Action α) (f : α → Action β) : Action β :=
  fun id w =>
    match x id w with
    | (.error e, w') => (.error e, w')
    | (.ok a, w') => f a id w'

instance : Monad Action where
  pure := Action.pure
  bind := Action.bind

/-- Fails. -/
def fail (e : Error) : Action α :=
  fun _ w => (.error e, w)

/-- Walks outward from the frame to the value of a name. -/
def lookup (name : String) : Action Value :=
  fun id w =>
    match w.store.get? id name with
    | some v => (.ok v, w)
    | none => (.error (.unbound name), w)

/-- Appends a text to the output. -/
def print (text : String) : Action Unit :=
  fun _ w => (.ok (), { w with output := w.output ++ text })

/-- Writes an entry, if there is a logger. -/
def trace (text : String) : Action Unit :=
  fun _ w =>
    match w.logger with
    | none => (.ok (), w)
    | some l => (.ok (), { w with logger := some (l.write w.depth text) })

/-- Binds a name in the frame. -/
def set (name : String) (value : Value) : Action Unit :=
  fun id w => (.ok (), { w with store := w.store.set id name value })

/-- Binds a name in another frame. -/
def setIn (other : Nat) (name : String) (value : Value) : Action Unit :=
  fun _ w => (.ok (), { w with store := w.store.set other name value })

/-- Makes a clone of the frame; the result is its number. -/
def clone : Action Nat :=
  fun id w => (.ok w.store.size, { w with store := w.store.clone id })

/-- Goes on in another frame. -/
def inFrame (other : Nat) (x : Action α) : Action α :=
  fun _ w => x other w

/-- Hands a path to the module reader. -/
def ask (read : ModuleReader) (file : String) : Action (Except String (List UInt8)) :=
  fun _ w => (.ok (read file), { w with asked := w.asked ++ [file] })

/-- Does something inside a call or a load, if the counter allows it, and counts down afterwards. -/
def counted (limit : Limit) (what : String) (x : Action α) : Action α :=
  fun id w =>
    if limit.stops w.depth then (.error (.recursionLimit what w.depth), w)
    else
      match x id { w with depth := w.depth + 1 } with
      | (result, w') => (result, { w' with depth := w'.depth - 1 })

/-- Binds a name in the frame, and traces it before. -/
def define (name : String) (value : Value) : Action Unit := do
  trace ("define " ++ name ++ " " ++ value.source)
  set name value

end Action

/-- Entries are made for what the trace tells of: definitions, calls and loads. -/
instance : Carrier Action Nat where
  fail := Action.fail
  lookup := Action.lookup
  define := Action.define
  print text := Action.print (text ++ "\n")
  clone := Action.clone
  bindParam callee name value := do
    Action.setIn callee name value
    pure callee
  called name args _ := Action.trace ("call " ++ name ++ " " ++ (Value.list args).text)
  inFrame := Action.inFrame
  fetch read file := do
    Action.trace ("load " ++ file)
    Action.ask read file

/-- Levels of actions, where the counter decides as with machines. -/
def Action.gate (limit : Limit) : Gate Action where
  refuse _ what := .counted limit what (.fail (.exhausted what))
  inside _ what x := .counted limit what x

/-- The level that is followed for this many further levels, whatever the counter says. -/
def station (read : ModuleReader) (limit : Limit) (followed : Nat) : Level Action :=
  (Action.gate limit).level read followed 0

/-- Does what is asked in the world. -/
def Request.act (i : Interpreter) (q : Request) : Action Value :=
  q.script.run (station i.read i.limit i.limit.room)

/-! ## Actions and machines -/

/-- The world as a machine sees it. -/
def World.memory (w : World) (past : List Store) : Memory :=
  ⟨w.store, w.depth, past⟩

/-- The world after what a machine logged. -/
def World.after {α : Type} (w : World) (h : Halt α) : World where
  store := h.memory.store
  depth := h.memory.depth
  output := w.output ++ outputOf h.log
  asked := w.asked ++ filesRead h.log
  logger := w.logger.map (·.record h.log)

section

variable {α β : Type}

/-- What logs nothing changes the frames and the counter only. -/
theorem World.after_silent (w : World) (result : Except Error α) (m : Memory) :
    w.after ⟨result, m, []⟩ = { w with store := m.store, depth := m.depth } := by
  obtain ⟨store, depth, output, asked, logger⟩ := w
  cases logger with
  | none => simp [after, outputOf, filesRead]
  | some l => simp [after, outputOf, filesRead, Logger.record_nil]

theorem World.after_after (w : World) (h : Halt α) (h' : Halt β) :
    (w.after h).after h' = w.after ⟨h'.result, h'.memory, h.log ++ h'.log⟩ := by
  cases hl : w.logger with
  | none => simp [after, hl, String.append_assoc]
  | some l => simp [after, hl, String.append_assoc, Logger.record_record]

theorem Logger.record_singleton (l : Logger) (m : Moment) :
    l.record [m] =
      match m.event.traceText? with
      | none => l
      | some text => l.write m.depth text := by
  cases h : m.event.traceText? with
  | none => simp [record, Moment.line?, h]
  | some text => simp [record, write, Moment.line?, h]

/-- What one event changes beside the frames and the counter. -/
theorem World.after_event (w : World) (result : Except Error α) (m : Memory) (depth : Nat)
    (e : Event) :
    w.after ⟨result, m, [⟨depth, e⟩]⟩ =
      { store := m.store
        depth := m.depth
        output := w.output ++ e.output
        asked := w.asked ++ e.file?.toList
        logger := w.logger.map fun l =>
          match e.traceText? with
          | none => l
          | some text => l.write depth text } := by
  have hfiles : filesRead [⟨depth, e⟩] = e.file?.toList := by
    cases h : e.file? <;> simp [filesRead, h]
  have houtput : outputOf [⟨depth, e⟩] = e.output := by simp [outputOf]
  simp only [after, hfiles, houtput, Logger.record_singleton]

theorem Action.trace_eq (text : String) (id : Nat) (w : World) :
    trace text id w = (.ok (), { w with logger := w.logger.map (·.write w.depth text) }) := by
  obtain ⟨store, depth, output, asked, logger⟩ := w
  cases logger <;> rfl

/-- The action does in the world what the machine does to its memory and logs. -/
def Shows (x : Machine α) (y : Action α) : Prop :=
  ∀ id w past, y id w = ((x id (w.memory past)).result, w.after (x id (w.memory past)))

theorem Shows.bind {x : Machine α} {y : Action α} {f : α → Machine β} {g : α → Action β}
    (hx : Shows x y) (hf : ∀ a, Shows (f a) (g a)) : Shows (x >>= f) (y >>= g) := by
  intro id w past
  have hfirst := hx id w past
  rcases hh : x id (w.memory past) with ⟨result, m', log⟩
  rw [hh] at hfirst
  change Action.bind y g id w = _
  rw [Action.bind, hfirst]
  cases result with
  | error e =>
    rw [Machine.bind_of_error hh]
    rfl
  | ok a =>
    rw [Machine.bind_of_ok hh]
    refine (hf a id _ m'.past).trans ?_
    rw [World.after_after]
    rfl

theorem shows_pure (a : α) : Shows (pure a) (pure a) :=
  fun _ w past => Prod.ext rfl (w.after_silent (.ok a) (w.memory past)).symm

theorem shows_fail (e : Error) : Shows (.fail e : Machine α) (.fail e) :=
  fun _ w past => Prod.ext rfl (w.after_silent (.error e : Except Error α) (w.memory past)).symm

theorem shows_lookup (name : String) : Shows (.lookup name) (.lookup name) := by
  intro id w past
  simp only [Machine.lookup, Action.lookup, World.memory]
  cases w.store.get? id name with
  | some v => rw [World.after_silent]
  | none => rw [World.after_silent]

theorem shows_clone : Shows .clone .clone :=
  fun id w past =>
    Prod.ext rfl (w.after_silent (.ok _) ((w.memory past).write (w.store.clone id))).symm

theorem shows_setIn (other : Nat) (name : String) (value : Value) :
    Shows (.setIn other name value) (.setIn other name value) :=
  fun _ w past =>
    Prod.ext rfl (w.after_silent (.ok ()) ((w.memory past).write (w.store.set other name value))).symm

theorem Shows.inFrame {x : Machine α} {y : Action α} (h : Shows x y) (other : Nat) :
    Shows (.inFrame other x) (.inFrame other y) :=
  fun _ w past => h other w past

/-- What only looks at the bindings of a frame does not show. -/
theorem shows_bindingsOf {other : Nat} {f : Bindings → Machine α} {y : Action α}
    (h : ∀ frame, Shows (f frame) y) : Shows (.bindingsOf other >>= f) y :=
  fun id w past => h (w.store.own other) id w past

theorem shows_print (text : String) : Shows (.note (.printed text)) (.print text) := by
  intro id w past
  simp only [Machine.note, World.after_event]
  simp [Action.print, World.memory, Event.output, Event.file?, Event.traceText?]

theorem shows_define (name : String) (value : Value) :
    Shows (.define name value) (.define name value) := by
  intro id w past
  change Action.bind (.trace _) (fun _ => .set name value) id w = _
  simp only [Machine.define, World.after_event, Action.bind, Action.trace_eq]
  simp [Action.set, Memory.write, World.memory, Event.output, Event.file?, Event.traceText?]

/-- An entry in between shows that a lambda is called. -/
theorem shows_called (name : String) (args : List Value) (frame : Bindings) :
    Shows (.note (.called name args frame))
      (.trace ("call " ++ name ++ " " ++ (Value.list args).text)) := by
  intro id w past
  simp only [Machine.note, World.after_event, Action.trace_eq]
  simp [World.memory, Event.output, Event.file?, Event.traceText?]

/-- An entry shows that a module is loaded, and then the path is handed to the reader. -/
theorem shows_loading (read : ModuleReader) (file : String) :
    Shows (Machine.note (.loading file) >>= fun _ => pure (read file))
      (Action.trace ("load " ++ file) >>= fun _ => .ask read file) := by
  intro id w past
  have hnote : Machine.note (.loading file) id (w.memory past) =
      ⟨.ok (), w.memory past, [⟨w.depth, .loading file⟩]⟩ := rfl
  rw [Machine.bind_of_ok hnote]
  change Action.bind (.trace _) (fun _ => .ask read file) id w = (.ok (read file), w.after _)
  rw [Action.bind, Action.trace_eq]
  refine Prod.ext rfl ?_
  change _ = w.after ⟨.ok (read file), w.memory past, [⟨w.depth, .loading file⟩]⟩
  rw [World.after_event]
  simp [Action.ask, World.memory, Event.output, Event.file?, Event.traceText?]

theorem Shows.counted {x : Machine α} {y : Action α} (h : Shows x y) (limit : Limit)
    (what : String) : Shows (.counted limit what x) (.counted limit what y) := by
  intro id w past
  by_cases hl : limit.stops w.depth = true
  · have hmachine : Machine.counted limit what x id (w.memory past) =
        ⟨.error (.recursionLimit what w.depth), w.memory past, []⟩ := if_pos hl
    have haction : Action.counted limit what y id w =
        (.error (.recursionLimit what w.depth), w) := if_pos hl
    rw [hmachine, haction, World.after_silent]
    rfl
  · have hmachine : Machine.counted limit what x id (w.memory past) = _ := if_neg hl
    have haction : Action.counted limit what y id w = _ := if_neg hl
    rw [hmachine, haction, h id { w with depth := w.depth + 1 } past]
    rfl

/-- Actions do what machines log, request by request. -/
theorem Shows.congruence :
    Congruence (fun _ => True) fun {α : Type} (x : Machine α) (y : Action α) => Shows x y where
  pure := shows_pure
  bind := Shows.bind
  fail _ := shows_fail _
  lookup := shows_lookup
  define := shows_define
  print _ := shows_print _
  clone := shows_clone
  bindParam callee name value := (shows_setIn callee name value).bind fun _ => shows_pure callee
  called name args _ := shows_bindingsOf fun frame => shows_called name args frame
  inFrame callee h := h.inFrame callee
  fetch read _ := shows_loading read _

end

/-- What is asked acts as the machine that carries it out. -/
theorem Request.shows (i : Interpreter) (q : Request) : Shows (q.operate i) (q.act i) :=
  Gate.run_related (S := fun _ => Shows) (k := 0) Discipline.sound_any
    (fun _ => Shows.congruence.correspondence) (fun what => (shows_fail _).counted i.limit what)
    (fun _ _ what _ _ h => h.counted i.limit what) i.read q.script.obeys_any

/-! ## Actions and evaluations -/

/-- What an evaluation in a frame comes to in the world. -/
structure Acts (w : World) (id : Nat) (o : Outcome Value) (e : Except Error Value × World) :
    Prop where
  result : e.1 = o.result
  depth : e.2.depth = 0
  linked : e.2.store.Linked
  size : w.store.size ≤ e.2.store.size
  frames : ∀ j < w.store.size, e.2.store.frame? j = (w.store.setOwn id o.own).frame? j
  output : e.2.output = w.output ++ outputOf (Activity.moments o.record)
  asked : e.2.asked = w.asked ++ filesRead (Activity.moments o.record)
  logger : e.2.logger = w.logger.map (·.record (Activity.moments o.record))

/-- Doing what is asked acts on the world as its evaluation in the frame says, whether there is a
logger or not. -/
theorem Request.acts (i : Interpreter) (q : Request) {w : World} (hdepth : w.depth = 0)
    (hlinked : w.store.Linked) {id : Nat} (hid : id < w.store.size) :
    Acts w id (q.run i (w.store.scope id)) (q.act i id w) := by
  have hshows := q.shows i id w []
  have hcopies := q.tracks i id (w.memory []) hdepth
  have hfollows := q.realizes i w.store id hlinked hid
  have hlog : (q.operate i id (w.memory [])).log =
      Activity.moments (q.run i (w.store.scope id)).record := by
    rw [hcopies.log, ← hfollows.record]
    rfl
  have hact : q.act i id w = ((q.operate i id (w.memory [])).result,
      w.after (q.operate i id (w.memory []))) := hshows
  have hstore : (w.after (q.operate i id (w.memory []))).store = (q.perform i id w.store).store :=
    hcopies.store
  rw [hact]
  refine ⟨hcopies.result.trans hfollows.result, hcopies.depth, ?_, ?_, fun j hj => ?_, ?_, ?_, ?_⟩
  · rw [hstore]
    exact hfollows.linked
  · rw [hstore]
    exact hfollows.size
  · rw [hstore]
    exact hfollows.frames j hj
  · rw [← hlog]
    rfl
  · rw [← hlog]
    rfl
  · rw [← hlog]
    rfl

end SmallLisp
