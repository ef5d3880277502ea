import SmallLisp.Bindings
import SmallLisp.Value.Text

/-!
# What happens during a run

A run of a program leaves a record: what it printed, which names it defined, which lambdas it called
and which modules it asked for, in order.  What happens inside a call or a load is kept together, so
the record has the shape of the nesting, and the depth of an event is the number of calls and loads
around it.

`Activity.moments` lists the events with their depths.  Output, trace and files read are views of
that list.  The trace has one entry for each definition, call and load, indented by two spaces for
each call or load that is active when the entry is made.
-/

namespace SmallLisp

/-- Something that happened during a run. -/
inductive Event where
  /-- A text was printed. -/
  | printed (text : String)
  /-- A name was bound to a value. -/
  | defined (name : String) (value : Value)
  /-- A lambda was called by a name, with unevaluated arguments; its body starts with a frame of
  these bindings. -/
  | called (name : String) (args : List Value) (frame : Bindings)
  /-- A module was asked for. -/
  | loading (file : String)

/-- A part of the record of a run. -/
inductive Activity where
  /-- An event. -/
  | event (e : Event)
  /-- What happened inside a call or a load. -/
  | nested (inside : List Activity)
deriving Inhabited

/-- An event with the number of calls and loads that were active. -/
structure Moment where
  /-- The number of calls and loads around the event. -/
  depth : Nat
  /-- The event. -/
  event : Event

namespace Activity

mutual

/-- The moments of an activity at a depth, in front of later ones. -/
def momentsOnto (depth : Nat) (later : List Moment) : Activity → List Moment
  | event e => ⟨depth, e⟩ :: later
  | nested inside => allMomentsOnto (depth + 1) later inside

/-- The moments of activities at a depth, in front of later ones. -/
def allMomentsOnto (depth : Nat) (later : List Moment) : List Activity → List Moment
  | [] => later
  | a :: rest => momentsOnto depth (allMomentsOnto depth later rest) a

end

/-- The events of a record in order, each with its depth. -/
def moments (record : List Activity) : List Moment :=
  allMomentsOnto 0 [] record

mutual

/-- How many calls and loads of an activity were inside each other at most. -/
def height : Activity → Nat
  | event _ => 0
  | nested inside => heights inside + 1

/-- The greatest height of activities. -/
def heights : List Activity → Nat
  | [] => 0
  | a :: rest => max (height a) (heights rest)

end

end Activity

/-! ## Views of a record -/

namespace Event

/-- What an event printed. -/
def output : Event → String
  | printed text => text
  | defined _ _ | called _ _ _ | loading _ => ""

/-- The file that an event asked for. -/
def file? : Event → Option String
  | loading file => some file
  | printed _ | defined _ _ | called _ _ _ => none

/-- What the trace says of an event; nothing of printing. -/
def traceText? : Event → Option String
  | printed _ => none
  | defined name value => some ("define " ++ name ++ " " ++ value.source)
  | called name args _ => some ("call " ++ name ++ " " ++ (Value.list args).text)
  | loading file => some ("load " ++ file)

end Event

/-- The texts printed, one after the other. -/
def outputOf (ms : List Moment) : String :=
  ms.foldl (fun text m => text ++ m.event.output) ""

/-- The files asked for, in order. -/
def filesRead (ms : List Moment) : List String :=
  ms.filterMap (·.event.file?)

/-! ## Trace -/

/-- The greatest indentation that is written out. -/
def widestIndent : Nat := 1000000

/-- What stands in place of a wider indentation. -/
def tooWide : String := "%!(BADWIDTH)"

/-- The indentation of an entry: two spaces for each active call or load. -/
def traceIndent (depth : Nat) : String :=
  if 2 * depth ≤ widestIndent then String.ofList (List.replicate (2 * depth) ' ') else tooWide

/-- A line with a newline at its end. -/
def endLine (line : String) : String :=
  if line.toList.getLast? = some '\n' then line else line ++ "\n"

/-- The trace entry of a moment, after a label; empty for an event that is not traced. -/
def Moment.traceEntry (label : String) (m : Moment) : String :=
  match m.event.traceText? with
  | some text => label ++ endLine (traceIndent m.depth ++ text)
  | none => ""

/-- The trace of moments, each entry after the label. -/
def traceOf (label : String) (ms : List Moment) : String :=
  ms.foldl (fun text m => text ++ m.traceEntry label) ""

end SmallLisp
