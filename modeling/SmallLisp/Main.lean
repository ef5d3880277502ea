import SmallLisp.Command.Disk

/-!
# The program

The outermost layer: arguments, environment, files, input and output.  What the command does is
worked out by `Command.run` and `Session.handle`, which get the files that they ask for as plain
data.  A file is looked up once it has been asked for, and the work is then done again.
-/

namespace SmallLisp.Program

/-- Files that have been looked up. -/
abbrev Known : Type :=
  List (String × Found)

/-- What is found at a path, as far as it has been looked up. -/
def Known.find (known : Known) (path : String) : Found :=
  (known.lookup path).getD (.nothing .missing)

/-- The code of a path with too long an element; the system gives codes with either sign. -/
def isTooLong (code : UInt32) : Bool :=
  code == 36 || code == 0 - 36

/-- Why a file could not be read.  Opening a path below a file fails with the path at hand, and
reading a directory fails without it. -/
def faultOf : IO.Error → Found
  | .noFileOrDirectory _ _ _ => .nothing .missing
  | .inappropriateType (some _) _ _ => .nothing .notDirectory
  | .inappropriateType none _ _ => .directory
  | .permissionDenied _ _ _ => .nothing .denied
  | .resourceExhausted _ code _ | .invalidArgument _ code _ =>
    if isTooLong code then .nothing .nameTooLong else .nothing .invalidName
  | _ => .nothing .invalidName

/-- Looks a path up. -/
def lookUp (path : String) : IO Found := do
  try
    return .file (← IO.FS.readBinFile path).toList
  catch e =>
    return faultOf e

/-- Repeats an attempt until every file that it asks for has been looked up. -/
partial def settle {α : Type} (known : Known) (attempt : Known → α × List String) : IO α := do
  let (answer, asked) := attempt known
  match asked.find? fun path => !known.any (·.1 == path) with
  | none => return answer
  | some path => settle ((path, ← lookUp path) :: known) attempt

/-- The host with the files that have been looked up. -/
def hostOf (home : Option String) (known : Known) : Command.Host :=
  { find := known.find
    home
    input := []
    decoder := Yaml.decodeSettings
    editor := Command.lineEditor }

/-- The settings file that the arguments ask for. -/
def settingsPaths (home : Option String) (args : List String) : List String :=
  match Flags.read args with
  | .ok (flags, _) => ((hostOf home []).settingsPath? flags).toList
  | .error _ => []

/-- Writes texts as output and about errors. -/
def write (output errors : String) : IO Unit := do
  let out ← IO.getStdout
  out.putStr output
  out.flush
  (← IO.getStderr).putStr errors

/-- Writes bytes to a file, if that can be done. -/
def save (file : String) (bytes : List UInt8) : IO Unit := do
  if !file.isEmpty then
    try IO.FS.writeBinFile file ⟨bytes.toArray⟩ catch _ => pure ()

/-- Ends the program as a report says.  There is none if a program nests without end. -/
def finish : Option Command.Report → IO UInt32
  | none => do
    write "" "stack exhausted\n"
    return 2
  | some r => do
    write r.output r.errors
    match r.history with
    | some (file, bytes) => save file bytes
    | none => pure ()
    return UInt32.ofNat r.code

/-- Handles one line, with the files that it asks for. -/
def handle (s : Session) (line : String) : IO (Step Bool) :=
  settle [] fun known =>
    let read : ModuleReader := fun path => (known.find path).bytes path
    let step := { s with interpreter := { s.interpreter with read } }.handle line
    (step, filesRead step.moments)

/-- Handles lines, and shows the prompt after each that does not end the session; the answer has the
session afterwards and says whether it ends. -/
def handleAll (l : Command.Launch) (s : Session) (h : History) :
    List Text.Line → IO (Session × History × Bool)
  | [] => return (s, h, false)
  | line :: rest => do
    let h := h.remember line
    let step ← handle s line.text
    write step.output (l.trace step.moments)
    if step.answer then return (step.session, h, true)
    write step.session.prompt ""
    handleAll l step.session h rest

/-- The bytes of the input up to and including a newline, or to its end. -/
partial def readLine (input : IO.FS.Stream) (held : List UInt8) : IO (List UInt8) := do
  let chunk ← input.read 1
  match chunk.toList with
  | [] => return held.reverse
  | b :: _ => if b = Text.newline then return (b :: held).reverse else readLine input (b :: held)

/-- Handles the input line by line until it or the session ends; the answer is what to remember.
The prompt has been shown before. -/
partial def converse (l : Command.Launch) (s : Session) (h : History) : IO History := do
  let chunk ← readLine (← IO.getStdin) []
  if chunk.isEmpty then
    write ("\n" ++ Session.farewell) ""
    return h
  let (s, h, done) ← handleAll l s h (Text.lines chunk)
  if done then
    write Session.farewell ""
    return h
  converse l s h

/-- Talks with the user at a prompt. -/
def talk (home : Option String) (l : Command.Launch) : IO UInt32 := do
  let file := l.settings.historyFile
  let found ← if file.isEmpty then pure [] else do pure [(file, ← lookUp file)]
  let host := hostOf home found
  if Command.canShow l.session.prompt then
    write (l.output ++ l.session.prompt) (l.trace l.moments)
    let h ← converse l l.session (Command.historyOf (host.find file))
    save file h.bytes
    return 0
  else finish (l.converse host)

/-- What a command that is ready asks for: the modules it has loaded. -/
def modulesOf : Except (Option Command.Report) (Command.Launch × List String) → List String
  | .error r => r.elim [] (·.modules)
  | .ok (l, _) => filesRead l.moments

/-- Runs the command. -/
def run (args : List String) : IO UInt32 := do
  let home ← IO.getEnv "HOME"
  let paths := settingsPaths home args
  let prepared ← settle [] fun known =>
    let prepared := Command.prepare unlimitedRoom (hostOf home known) args
    (prepared, paths ++ modulesOf prepared)
  match prepared with
  | .error r => finish r
  | .ok (l, []) => talk home l
  | .ok (_, _ :: _) =>
    finish (← settle [] fun known =>
      let r := Command.run unlimitedRoom (hostOf home known) args
      (r, paths ++ r.elim [] (·.modules)))

end SmallLisp.Program

/-- The entry point. -/
def main (args : List String) : IO UInt32 :=
  SmallLisp.Program.run args
