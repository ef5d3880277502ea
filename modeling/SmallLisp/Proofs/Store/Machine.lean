import Mathlib.Logic.Basic
import SmallLisp.Proofs.Event
import SmallLisp.Proofs.Store.Process

/-!
# A machine with a depth counter

A *machine* is what carries scripts out when the number of active calls and loads is no part of the
program but a counter in memory.  Entering a call or a load compares the counter with the limit,
counts up, and counts down again however the inside ends.  Events are logged with what the counter
says.  The memory also remembers the frames as they were before each write, so that one can speak of
everything that a run went through.

A process is given its depth, and its record has the nesting in its shape.  `Tracks` says that a
machine does what a process does: result, frames and log are the same, and the counter ends where it
started.  Every request keeps it (`Tracks.congruence`), so nothing is left of a run but the frames
(`Request.tracks`).
-/

namespace SmallLisp

/-- What a machine works on. -/
structure Memory where
  /-- All frames. -/
  store : Store
  /-- How many calls and loads are active. -/
  depth : Nat := 0
  /-- The frames as they were before each write, the latest first. -/
  past : List Store := []

/-- The memory after a write. -/
def Memory.write (m : Memory) (s : Store) : Memory :=
  { m with store := s, past := m.store :: m.past }

/-- How a machine halted. -/
structure Halt (α : Type) where
  /-- The result, or why there is none. -/
  result : Except Error α
  /-- The memory afterwards. -/
  memory : Memory
  /-- What happened, in order. -/
  log : List Moment

/-- Something to be done on a memory, from the frame with a number. -/
def Machine (α : Type) : Type :=
  Nat → Memory → Halt α

/-- Whether no further call or load may be entered with this many active. -/
def Limit.stops : Limit → Nat → Bool
  | atMost n, depth => n ≤ depth
  | unlimited _, _ => false

namespace Machine

variable {α β : Type}

/-- Does nothing. -/
protected def pure (a : α) : Machine α :=
  fun _ m => ⟨.ok a, m, []⟩

/-- Does the first, then the second with its result. -/
protected def bind (x : Machine α) (f : α → Machine β) : Machine β :=
  fun id m =>
    match x id m with
    | ⟨.error e, m', log⟩ => ⟨.error e, m', log⟩
    | ⟨.ok a, m', log⟩ =>
      match f a id m' with
      | ⟨result, m'', later⟩ => ⟨result, m'', log ++ later⟩

instance : Monad Machine where
  pure := Machine.pure
  bind := Machine.bind

/-- Fails. -/
def fail (e : Error) : Machine α :=
  fun _ m => ⟨.error e, m, []⟩

/-- Walks outward from the frame to the value of a name. -/
def lookup (name : String) : Machine Value :=
  fun id m =>
    match m.store.get? id name with
    | some v => ⟨.ok v, m, []⟩
    | none => ⟨.error (.unbound name), m, []⟩

/-- Logs an event with what the counter says. -/
def note (e : Event) : Machine Unit :=
  fun _ m => ⟨.ok (), m, [⟨m.depth, e⟩]⟩

/-- Binds a name in a frame. -/
def setIn (other : Nat) (name : String) (value : Value) : Machine Unit :=
  fun _ m => ⟨.ok (), m.write (m.store.set other name value), []⟩

/-- Binds a name in the frame of the machine, and logs it. -/
def define (name : String) (value : Value) : Machine Unit :=
  fun id m =>
    ⟨.ok (), m.write (m.store.set id name value), [⟨m.depth, .defined name value⟩]⟩

/-- Makes a clone of the frame; the result is its number. -/
def clone : Machine Nat :=
  fun id m => ⟨.ok m.store.size, m.write (m.store.clone id), []⟩

/-- The bindings of another frame. -/
def bindingsOf (other : Nat) : Machine Bindings :=
  fun _ m => ⟨.ok (m.store.own other), m, []⟩

/-- Goes on in another frame. -/
def inFrame (other : Nat) (x : Machine α) : Machine α :=
  fun _ m => x other m

/-- Does something inside a call or a load, if the counter allows it, and counts down afterwards. -/
def counted (limit : Limit) (what : String) (x : Machine α) : Machine α :=
  fun id m =>
    if limit.stops m.depth then ⟨.error (.recursionLimit what m.depth), m, []⟩
    else
      match x id { m with depth := m.depth + 1 } with
      | ⟨result, m', log⟩ => ⟨result, { m' with depth := m'.depth - 1 }, log⟩

end Machine

instance : Carrier Machine Nat where
  fail := Machine.fail
  lookup := Machine.lookup
  define := Machine.define
  print text := Machine.note (.printed (text ++ "\n"))
  clone := Machine.clone
  bindParam callee name value := do
    Machine.setIn callee name value
    pure callee
  called name args callee := do
    let frame ← Machine.bindingsOf callee
    Machine.note (.called name args frame)
  inFrame := Machine.inFrame
  fetch read file := do
    Machine.note (.loading file)
    pure (read file)

/-- Levels of machines.  It is the counter that decides about a call or load.  Without a limit a
machine can be followed for some levels only, and then there is nothing to be done inside. -/
def Machine.gate (limit : Limit) : Gate Machine where
  refuse _ what := .counted limit what (.fail (.exhausted what))
  inside _ what x := .counted limit what x

/-- The level of a machine that is followed for this many further levels, whatever the counter
says. -/
def engine (read : ModuleReader) (limit : Limit) (followed : Nat) : Level Machine :=
  (Machine.gate limit).level read followed 0

/-- Does what is asked on a memory. -/
def Request.operate (i : Interpreter) (q : Request) : Machine Value :=
  q.script.run (engine i.read i.limit i.limit.room)

/-! ## Machines and processes -/

namespace Machine

variable {α β : Type} {x : Machine α} {f : α → Machine β} {id : Nat} {m m' : Memory}
  {log : List Moment}

theorem bind_of_error {e : Error} (h : x id m = ⟨.error e, m', log⟩) :
    (x >>= f) id m = ⟨.error e, m', log⟩ := by
  change Machine.bind x f id m = _
  rw [Machine.bind, h]

theorem bind_of_ok {a : α} (h : x id m = ⟨.ok a, m', log⟩) :
    (x >>= f) id m = ⟨(f a id m').result, (f a id m').memory, log ++ (f a id m').log⟩ := by
  change Machine.bind x f id m = _
  rw [Machine.bind, h]

end Machine

section

variable {α β : Type} {d : Nat}

/-- A machine halted as a process ended, with the counter at `d`. -/
structure Copies (d : Nat) (e : Ending α) (h : Halt α) : Prop where
  result : h.result = e.result
  store : h.memory.store = e.store
  depth : h.memory.depth = d
  log : h.log = Activity.momentsAt d e.record

/-- The machine does what the process does, if the counter is at `d`. -/
def Tracks (d : Nat) (p : Process α) (x : Machine α) : Prop :=
  ∀ id m, m.depth = d → Copies d (p id m.store) (x id m)

theorem Tracks.bind {p : Process α} {x : Machine α} {f : α → Process β} {g : α → Machine β}
    (hx : Tracks d p x) (hf : ∀ a, Tracks d (f a) (g a)) : Tracks d (p >>= f) (x >>= g) := by
  intro id m hm
  obtain ⟨hresult, hstore, hdepth, hlog⟩ := hx id m hm
  rcases he : p id m.store with ⟨result, s, record⟩
  rcases hh : x id m with ⟨result', m', log⟩
  simp only [he, hh] at hresult hstore hdepth hlog
  subst hresult hstore hlog
  cases result' with
  | error e =>
    rw [Process.bind_of_error he, Machine.bind_of_error hh]
    exact ⟨rfl, rfl, hdepth, rfl⟩
  | ok a =>
    have hsecond := hf a id m' hdepth
    rw [Process.bind_of_ok he, Machine.bind_of_ok hh]
    refine ⟨hsecond.result, hsecond.store, hsecond.depth, ?_⟩
    rw [hsecond.log, Activity.momentsAt_append]

theorem tracks_pure (a : α) : Tracks d (pure a) (pure a) :=
  fun _ _ hm => ⟨rfl, rfl, hm, rfl⟩

theorem tracks_fail (e : Error) : Tracks d (.fail e : Process α) (.fail e) :=
  fun _ _ hm => ⟨rfl, rfl, hm, rfl⟩

theorem tracks_lookup (name : String) : Tracks d (.lookup name) (.lookup name) := by
  intro id m hm
  rw [Process.lookup, Machine.lookup]
  cases m.store.get? id name with
  | some v => exact ⟨rfl, rfl, hm, rfl⟩
  | none => exact ⟨rfl, rfl, hm, rfl⟩

theorem tracks_note (e : Event) : Tracks d (.note e) (.note e) := by
  rintro id m rfl
  exact ⟨rfl, rfl, rfl, rfl⟩

theorem tracks_define (name : String) (value : Value) :
    Tracks d (.define name value) (.define name value) := by
  rintro id m rfl
  exact ⟨rfl, rfl, rfl, rfl⟩

theorem tracks_clone : Tracks d .clone .clone :=
  fun _ _ hm => ⟨rfl, rfl, hm, rfl⟩

theorem tracks_setIn (other : Nat) (name : String) (value : Value) :
    Tracks d (.setIn other name value) (.setIn other name value) :=
  fun _ _ hm => ⟨rfl, rfl, hm, rfl⟩

theorem tracks_bindingsOf (other : Nat) : Tracks d (.bindingsOf other) (.bindingsOf other) :=
  fun _ _ hm => ⟨rfl, rfl, hm, rfl⟩

theorem Tracks.inFrame {p : Process α} {x : Machine α} (h : Tracks d p x) (other : Nat) :
    Tracks d (.inFrame other p) (.inFrame other x) :=
  fun _ m hm => h other m hm

/-- What is inside is logged one deeper, and the counter comes back. -/
theorem Tracks.counted {p : Process α} {x : Machine α} (h : Tracks (d + 1) p x) {limit : Limit}
    (hl : limit.stops d = false) (what : String) :
    Tracks d (.nested p) (.counted limit what x) := by
  rintro id m rfl
  have hin := h id { m with depth := m.depth + 1 } rfl
  rw [Machine.counted, hl, Process.nested]
  refine ⟨hin.result, hin.store, ?_, ?_⟩
  · exact congrArg (· - 1) hin.depth
  · rw [Activity.momentsAt_nested]
    exact hin.log

theorem tracks_counted_of_stops {limit : Limit} (hl : limit.stops d = true) (what : String)
    (x : Machine α) : Tracks d (.fail (.recursionLimit what d)) (.counted limit what x) := by
  rintro id m rfl
  rw [Machine.counted, hl]
  exact ⟨rfl, rfl, rfl, rfl⟩

/-- What fails at once logs nothing, so it does not show that the counter went up. -/
theorem tracks_counted_fail {limit : Limit} (hl : limit.stops d = false) (what : String)
    (e : Error) : Tracks d (.fail e : Process α) (.counted limit what (.fail e)) := by
  rintro id m rfl
  rw [Machine.counted, hl]
  exact ⟨rfl, rfl, rfl, rfl⟩

/-- With the counter at `d` machines do what processes do, request by request. -/
theorem Tracks.congruence (d : Nat) :
    Congruence (fun _ => True) fun {α : Type} (p : Process α) (x : Machine α) => Tracks d p x where
  pure := tracks_pure
  bind := Tracks.bind
  fail _ := tracks_fail _
  lookup := tracks_lookup
  define := tracks_define
  print _ := tracks_note _
  clone := tracks_clone
  bindParam callee name value := (tracks_setIn callee name value).bind fun _ => tracks_pure callee
  called _ _ callee := (tracks_bindingsOf callee).bind fun _ => tracks_note _
  inFrame callee h := h.inFrame callee
  fetch _ _ := (tracks_note _).bind fun _ => tracks_pure _

end

/-! ## Limits and counters -/

theorem Limit.stops_eq_false {limit : Limit} {depth : Nat} (h : depth < limit.room) :
    limit.stops depth = false := by
  cases limit with
  | atMost n => exact decide_eq_false (Nat.not_le.2 h)
  | unlimited n => rfl

/-- Where there is no room left a level is refused, for the reason that the limit gives. -/
theorem tracks_refuse (limit : Limit) (what : String) :
    Tracks limit.room ((Process.gate limit.refusal).refuse limit.room what)
      ((Machine.gate limit).refuse limit.room what) := by
  cases limit with
  | atMost n =>
    have hstops : (Limit.atMost n).stops n = true := decide_eq_true (Nat.le_refl n)
    exact tracks_counted_of_stops hstops what (.fail (.exhausted what) : Machine Value)
  | unlimited n =>
    have hgoes : (Limit.unlimited n).stops n = false := rfl
    exact tracks_counted_fail hgoes what _

/-- A machine with its counter at zero does what is asked as a process does, and the counter is back
at zero afterwards.  The counter stops a run where the levels do: what is left of the room is what
the counter has not used up. -/
theorem Request.tracks (i : Interpreter) (q : Request) : Tracks 0 (q.perform i) (q.operate i) := by
  refine Gate.run_related (k := 0) Discipline.sound_any
    (fun d => (Tracks.congruence d).correspondence)
    (fun what => ?_) (fun d hd what p x h => ?_) i.read q.script.obeys_any
  · rw [Nat.zero_add]
    exact tracks_refuse i.limit what
  · rw [Nat.zero_add] at hd
    exact h.counted (Limit.stops_eq_false hd) what

end SmallLisp
