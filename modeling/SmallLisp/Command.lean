import SmallLisp.Command.Flags
import SmallLisp.Disk
import SmallLisp.Session
import SmallLisp.Settings

/-!
# The command

`run` says what the command does on a host, given its arguments.  The flags come first, and wrong
ones end the command.  Then the settings are read: from the file that a flag names, or from
`.lisp.yml` in the home directory, which need not be there.  Flags override settings.  The modules
to preload are loaded in order, and after them the first argument that is no flag is executed as a
program file.  Without such an argument the lines of the input are handled as at a prompt.

A `Report` has the exit code, the two texts that are written, the modules that were asked for, and
what is to be written to the file of remembered lines.  There is none if a program nests without
end: `run` follows programs without a limit for a number of levels, and a report is one of a command
that needed no more of them.

How a settings file is decoded, and how lines are edited at a prompt, is up to the host.
-/

namespace SmallLisp.Command

/-! ## Hosts -/

/-- How a line editor goes through an input. -/
structure Editing where
  /-- Whether the prompt is written in front of each event. -/
  echo : Bool
  /-- What comes from it, one event after the other. -/
  events : List Prompted
  /-- What it leaves in its file of remembered lines, after this many events. -/
  remembered : Nat → List UInt8

/-- Goes through an input with a prompt, given what is found at its file of remembered lines. -/
abbrev LineEditor : Type :=
  String → Found → List UInt8 → Editing

/-- What the command finds around it. -/
structure Host where
  /-- What is found at a path. -/
  find : String → Found
  /-- The home directory, if it is set. -/
  home : Option String
  /-- The input. -/
  input : List UInt8
  /-- The decoder of settings files. -/
  decoder : SettingsDecoder
  /-- The editor for lines at a prompt. -/
  editor : LineEditor

/-- What the command did. -/
structure Report where
  /-- The exit code: zero for success, one for a failed run, two for a wrong use. -/
  code : Nat
  /-- The text written as output. -/
  output : String
  /-- The text written about errors, and the trace. -/
  errors : String
  /-- The modules that were asked for, in order. -/
  modules : List String
  /-- A file to be written with remembered lines. -/
  history : Option (String × List UInt8)

/-- The report of a command that ends before anything is evaluated. -/
def Report.early (code : Nat) (errors : String) : Report :=
  { code, output := "", errors, modules := [], history := none }

/-! ## Settings -/

/-- The name of the settings file in the home directory. -/
def settingsName : String := ".lisp.yml"

/-- Why a settings file cannot be used. -/
inductive SettingsFileError where
  /-- It cannot be opened. -/
  | unopened (path : String) (fault : FileFault)
  /-- What it holds gives no settings. -/
  | unread (path : String) (cause : SettingsError)
deriving DecidableEq

/-- An error in words. -/
def SettingsFileError.message : SettingsFileError → String
  | unopened path fault =>
    "config: open " ++ path ++ ": open " ++ path ++ ": " ++ fault.reason
  | unread path cause => "config: " ++ path ++ ": " ++ cause.message

namespace Host

/-- The bytes of the file at a path, or why they cannot be had. -/
def read (host : Host) : ModuleReader :=
  fun path => (host.find path).bytes path

/-- The settings in a file.  A directory can be opened, but not read. -/
def settingsAt (host : Host) (path : String) : Except SettingsFileError Settings :=
  match host.find path with
  | .nothing fault => .error (.unopened path fault)
  | .directory | .file _ =>
    (Settings.decode host.decoder host.home (host.read path)).mapError (.unread path)

/-- The settings file to use: the one that flags name, or the usual one in the home directory if
that is known. -/
def settingsPath? (host : Host) (flags : Flags) : Option String :=
  if flags.config.isEmpty then
    (Settings.homeDirectory? host.home).map fun home => joinPath home settingsName
  else some flags.config

/-- Whether a settings file may be missing: the usual one may. -/
def mayMiss (host : Host) (flags : Flags) (path : String) : Bool :=
  flags.config.isEmpty && host.find path == .nothing .missing

/-- The settings in use: those of the settings file, with what flags ask for. -/
def settings (host : Host) (flags : Flags) : Except SettingsFileError Settings :=
  match host.settingsPath? flags with
  | none => .ok (flags.override {})
  | some path =>
    if host.mayMiss flags path then .ok (flags.override {})
    else (host.settingsAt path).map flags.override

/-- The interpreter that settings ask for, which follows runs without a limit for this many
levels. -/
def interpreter (host : Host) (followed : Nat) (s : Settings) : Interpreter :=
  { limit := .following followed s.maxDepth, read := host.read }

/-- How the line editor goes through the input, with a prompt and a file of remembered lines, if one
is named. -/
def edit (host : Host) (prompt file : String) : Editing :=
  host.editor prompt (if file.isEmpty then .nothing .missing else host.find file) host.input

end Host

/-! ## Running -/

/-- What stands in front of a trace entry. -/
def traceLabel : String := "lisp: "

/-- A session that is ready for a program. -/
structure Launch where
  /-- The settings in use. -/
  settings : Settings
  /-- The session. -/
  session : Session
  /-- What has been written as output. -/
  output : String
  /-- What has happened. -/
  moments : List Moment

namespace Launch

/-- The trace of moments, if the settings ask for it. -/
def trace (l : Launch) (moments : List Moment) : String :=
  if l.settings.trace then traceOf traceLabel moments else ""

/-- The report after a further step. -/
def report {α : Type} (l : Launch) (code : Nat) (step : Step α) (errors : String)
    (history : Option (String × List UInt8)) : Report :=
  let moments := l.moments ++ step.moments
  { code
    output := l.output ++ step.output
    errors := l.trace moments ++ errors
    modules := filesRead moments
    history }

/-- The report after a step that may have failed; none if it was cut off. -/
def reportResult (l : Launch) (step : Step (Except Error Unit)) : Option Report :=
  match step.answer with
  | .ok _ => some (l.report 0 step "" none)
  | .error e =>
    if l.session.interpreter.limit.cutsOff e then none
    else some (l.report 1 step ("Error: " ++ e.message ++ "\n") none)

/-- A session before anything has been loaded. -/
def start (host : Host) (followed : Nat) (settings : Settings) : Launch :=
  { settings
    session := Session.start (host.interpreter followed settings) settings.prompt
    output := ""
    moments := [] }

/-- Loads the modules that the settings ask for.  If one fails, that is all the command does. -/
def preload (l : Launch) : Except (Option Report) Launch :=
  let step := l.session.preload l.settings.preload
  match step.answer with
  | .error _ => .error (l.reportResult step)
  | .ok _ =>
    .ok
      { l with
        session := step.session
        output := l.output ++ step.output
        moments := l.moments ++ step.moments }

/-- Executes a program file. -/
def exec (l : Launch) (file : String) : Option Report :=
  l.reportResult (l.session.exec file)

/-- Handles the lines of the input as at a prompt.  Those that were handled are remembered. -/
def converse (l : Launch) (host : Host) : Option Report :=
  let file := l.settings.historyFile
  let editing := host.edit l.session.prompt file
  let step := l.session.run editing.echo editing.events
  let asked := editing.events.length - step.answer.unread.length
  let history := if file.isEmpty then none else some (file, editing.remembered asked)
  if l.session.finishesAll editing.events then
    match step.answer.failure with
    | none => some (l.report 0 step "" history)
    | some message => some (l.report 1 step (message ++ "\n") history)
  else none

/-- Executes the first of the arguments behind the flags, or handles the input if there is none. -/
def proceed (l : Launch) (host : Host) : List String → Option Report
  | file :: _ => l.exec file
  | [] => l.converse host

end Launch

/-- Everything up to the choice between a program file and a prompt: flags, settings and preloaded
modules.  The answer has the arguments after the flags. -/
def prepare (followed : Nat) (host : Host) (args : List String) :
    Except (Option Report) (Launch × List String) :=
  match Flags.read args with
  | .error e => .error (some (.early 2 e.report))
  | .ok (flags, files) =>
    match host.settings flags with
    | .error e => .error (some (.early 1 (e.message ++ "\n")))
    | .ok settings =>
      if settings.maxDepth < 0 then
        .error
          (some (.early 2 ("invalid -max-depth " ++ Number.wholeText settings.maxDepth ++ "\n")))
      else (Launch.start host followed settings).preload.map fun l => (l, files)

/-- What the command does, as far as it can be told by following runs without a limit for this many
levels. -/
def run (followed : Nat) (host : Host) (args : List String) : Option Report :=
  match prepare followed host args with
  | .error report? => report?
  | .ok (l, files) => l.proceed host files

end SmallLisp.Command
