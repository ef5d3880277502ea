import SmallLisp.Command
import SmallLisp.History
import SmallLisp.Settings.Document
import SmallLisp.Text.Control

/-!
# The command on a disk

A host whose files are on a disk, with a decoder for settings files and a line editor for input that
does not come from a terminal.  The editor cuts the input into lines, and remembers those that are
not blank.  It cannot show a prompt with control characters: then no line is had at all.
-/

namespace SmallLisp.Command

/-- Whether a prompt can be shown. -/
def canShow (prompt : String) : Bool :=
  !prompt.toList.any Text.isControl

/-- The failure of a prompt that cannot be shown. -/
def promptFailure : String := "invalid prompt"

/-- The remembered lines of a file; none if it cannot be read. -/
def historyOf : Found → History
  | .file bytes => .ofBytes bytes
  | .directory | .nothing _ => {}

/-- Edits nothing: the lines are those of the input. -/
def lineEditor : LineEditor := fun prompt found input =>
  if canShow prompt then
    let lines := Text.lines input
    { echo := true
      events := lines.map fun line => .line line.text
      remembered := fun asked => ((historyOf found).rememberAll (lines.take asked)).bytes }
  else
    { echo := false
      events := [.failure promptFailure]
      remembered := fun _ => (historyOf found).bytes }

/-- The host whose files are on a disk. -/
def Host.onDisk (disk : Disk) (home : Option String) (input : List UInt8) : Host :=
  { find := disk.find, home, input, decoder := Yaml.decodeSettings, editor := lineEditor }

/-- A disk after the command. -/
def Report.disk (r : Report) (disk : Disk) : Disk :=
  match r.history with
  | none => disk
  | some (path, bytes) => disk.write path bytes

end SmallLisp.Command
