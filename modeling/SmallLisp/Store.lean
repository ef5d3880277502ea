import SmallLisp.Eval.Evaluation

/-!
# The store of frames

Frames are made one after the other and known by their number.  A frame has its own bindings, and
may lie inside an older frame, to which its lookups fall back.  Since the frame around it is always
older, a lookup walks outward through ever older frames and ends.

Binding a name writes into one frame.  A clone starts with the bindings of the frame that it copies
and lies inside the same frame; after that the two are written apart.

The frames are listed with the newest first, so that the frames older than one are those that
follow it.
-/

namespace SmallLisp

/-- One frame. -/
structure Frame where
  /-- The number of the frame around it. -/
  parent : Option Nat
  /-- Its own bindings. -/
  own : Bindings
deriving Inhabited

/-- All frames made so far, the newest first. -/
structure Store where
  frames : List Frame := []
deriving Inhabited

/-- The frame with a number, among frames listed with the newest first. -/
def frameIn? : List Frame → Nat → Option Frame
  | [], _ => none
  | f :: older, id => if id = older.length then some f else frameIn? older id

/-- The value of a name seen from the frame with a number. -/
def getIn? (name : String) : List Frame → Nat → Option Value
  | [], _ => none
  | f :: older, id =>
    if id = older.length then
      match f.own.get? name with
      | some v => some v
      | none =>
        match f.parent with
        | some p => getIn? name older p
        | none => none
    else getIn? name older id

/-- The frames with new bindings for the one with a number. -/
def replaceIn (own : Bindings) : List Frame → Nat → List Frame
  | [], _ => []
  | f :: older, id =>
    if id = older.length then { f with own := own } :: older else f :: replaceIn own older id

namespace Store

/-- How many frames there are; also the number of the next one. -/
def size (s : Store) : Nat :=
  s.frames.length

/-- The frame with a number. -/
def frame? (s : Store) (id : Nat) : Option Frame :=
  frameIn? s.frames id

/-- The value of a name seen from a frame: its own, else that of the nearest frame around it that
binds the name. -/
def get? (s : Store) (id : Nat) (name : String) : Option Value :=
  getIn? name s.frames id

/-- A frame's own bindings. -/
def own (s : Store) (id : Nat) : Bindings :=
  match s.frame? id with
  | some f => f.own
  | none => .empty

/-- What the frames around a frame answer. -/
def outer (s : Store) (id : Nat) (name : String) : Option Value :=
  match s.frame? id with
  | some f =>
    match f.parent with
    | some p => s.get? p name
    | none => none
  | none => none

/-- The store with a frame's bindings replaced. -/
def setOwn (s : Store) (id : Nat) (own : Bindings) : Store :=
  { frames := replaceIn own s.frames id }

/-- The store with a name bound in a frame. -/
def set (s : Store) (id : Nat) (name : String) (value : Value) : Store :=
  s.setOwn id ((s.own id).set name value)

/-- The store with `true` and `false` bound in a frame. -/
def bindBooleans (s : Store) (id : Nat) : Store :=
  s.setOwn id (s.own id).withBooleans

/-- The store with one more frame. -/
def push (s : Store) (f : Frame) : Store :=
  { frames := f :: s.frames }

/-- The store with an empty frame that lies inside no other. -/
def new (s : Store) : Store :=
  s.push { parent := none, own := .empty }

/-- The store with an empty frame inside a frame. -/
def enclose (s : Store) (id : Nat) : Store :=
  s.push { parent := some id, own := .empty }

/-- The store with a copy of a frame. -/
def clone (s : Store) (id : Nat) : Store :=
  s.push ((s.frame? id).getD default)

/-- The scope of a frame. -/
def scope (s : Store) (id : Nat) : Scope :=
  { own := s.own id, outer := s.outer id }

/-- Does an evaluation in a frame: how it ended, and the store afterwards. -/
def run {α : Type} (s : Store) (id : Nat) (x : Evaluation α) : Outcome α × Store :=
  let outcome := x (s.scope id)
  (outcome, s.setOwn id outcome.own)

end Store

end SmallLisp
