import SmallLisp.Eval.Interpreter
import SmallLisp.Path

/-!
# Settings

The settings of the command: what is shown in front of an input line, where input lines are
remembered, how deep calls and loads may nest, whether they are traced, and which modules are loaded
first.

`Settings.check` makes settings usable.  The depth must not be negative, an empty prompt stands for
the usual one, and a history file that starts with `~/` is in the home directory.

How settings are written down is not said here.  A `SettingsDecoder` fills in what a document says,
and `Settings.decode` uses one to read settings from a stream: what the document leaves out keeps
its usual value, and so does everything if there is no document.
-/

namespace SmallLisp

/-- The settings of the command. -/
structure Settings where
  /-- What is shown in front of an input line. -/
  prompt : String := "lisp> "
  /-- The file that remembers input lines; none if empty. -/
  historyFile : String := ""
  /-- How deep calls and loads may nest; zero is no limit. -/
  maxDepth : Int := defaultDepth
  /-- Whether definitions, calls and loads are traced. -/
  trace : Bool := false
  /-- The modules that are loaded first. -/
  preload : List String := []
deriving DecidableEq

/-- Why settings cannot be used. -/
inductive SettingsFault where
  /-- The depth is negative. -/
  | negativeDepth (n : Int)
  /-- The history file is in the home directory, which is not known. -/
  | homeUnknown
deriving DecidableEq

/-- A fault in words. -/
def SettingsFault.message : SettingsFault → String
  | negativeDepth n => "max_depth must not be negative, got " ++ Number.wholeText n
  | homeUnknown => "history_file: $HOME is not defined"

namespace Settings

/-- The home directory, if it is known: an empty path names none. -/
def homeDirectory? (home : Option String) : Option String :=
  home.filter fun path => !path.isEmpty

/-- The place of a history file, given the home directory. -/
def historyPlace (home : Option String) (file : String) : Except SettingsFault String :=
  match file.toList with
  | '~' :: '/' :: rest =>
    match homeDirectory? home with
    | some directory => .ok (joinPath directory (String.ofList rest))
    | none => .error .homeUnknown
  | _ => .ok file

/-- Makes settings usable. -/
def check (s : Settings) (home : Option String) : Except SettingsFault Settings :=
  if s.maxDepth < 0 then .error (.negativeDepth s.maxDepth)
  else
    let prompt := if s.prompt.isEmpty then ({} : Settings).prompt else s.prompt
    (historyPlace home s.historyFile).map fun historyFile => { s with prompt, historyFile }

end Settings

/-! ## Decoding -/

/-- Why a decoder stopped. -/
inductive DecodeFault where
  /-- The stream ends before there is a document. -/
  | ended
  /-- The document cannot be decoded, or the stream cannot be read. -/
  | failed (message : String)
deriving DecidableEq

/-- What a decoder has made of settings. -/
structure Decoded where
  /-- The settings, as far as they were filled in. -/
  settings : Settings
  /-- Why it stopped, if it did not come to the end of a document. -/
  fault : Option DecodeFault := none

/-- Fills settings in from the bytes of a stream, or from the reason why they cannot be had. -/
abbrev SettingsDecoder : Type :=
  Settings → Except String (List UInt8) → Decoded

/-- Why a stream gives no settings. -/
inductive SettingsError where
  /-- Its document cannot be decoded. -/
  | undecoded (message : String)
  /-- The settings cannot be used. -/
  | unusable (fault : SettingsFault)
deriving DecidableEq

/-- An error in words. -/
def SettingsError.message : SettingsError → String
  | undecoded message => "parse: " ++ message
  | unusable fault => fault.message

/-- The settings that a stream gives, with the home directory if it is set. -/
def Settings.decode (decoder : SettingsDecoder) (home : Option String)
    (stream : Except String (List UInt8)) : Except SettingsError Settings :=
  let decoded := decoder {} stream
  match decoded.fault with
  | some (.failed message) => .error (.undecoded message)
  | some .ended | none => (decoded.settings.check home).mapError .unusable

end SmallLisp
