import SmallLisp.Text.Blank
import SmallLisp.Text.Utf8

/-!
# Lines of input

Input is cut into lines at newlines, and a carriage return in front of a newline goes with it.  The
last line needs no newline.  Lines are read through a buffer: one that fills the buffer before its
newline comes is cut there, and what is left of it counts as a further line.  A carriage return is
never cut off from the newline that may follow it.
-/

namespace SmallLisp.Text

/-- A newline. -/
def newline : UInt8 := 0x0A

/-- A carriage return. -/
def carriageReturn : UInt8 := 0x0D

/-- How many bytes the buffer holds. -/
def bufferSize : Nat := 4096

/-- A line as it is read. -/
structure Line where
  /-- Its bytes, without the end of the line. -/
  bytes : List UInt8
  /-- Whether the end of the line has been seen; the end of the input is one. -/
  complete : Bool
deriving DecidableEq

/-- The bytes of a line, given last one first, without a carriage return at the end. -/
def endedLine : List UInt8 → Line
  | b :: bs => ⟨(if b = carriageReturn then bs else b :: bs).reverse, true⟩
  | [] => ⟨[], true⟩

/-- The lines of the input, where `held` are the bytes in the buffer, the last one first, and
`count` is their number. -/
def linesOnto (held : List UInt8) (count : Nat) : List UInt8 → List Line
  | [] => if held.isEmpty then [] else [⟨held.reverse, true⟩]
  | b :: rest =>
    if b = newline then endedLine held :: linesOnto [] 0 rest
    else if count + 1 < bufferSize then linesOnto (b :: held) (count + 1) rest
    else if b = carriageReturn then ⟨held.reverse, false⟩ :: linesOnto [b] 1 rest
    else ⟨(b :: held).reverse, false⟩ :: linesOnto [] 0 rest

/-- The lines of the input. -/
def lines (bytes : List UInt8) : List Line :=
  linesOnto [] 0 bytes

/-- The text of a line. -/
def Line.text (l : Line) : String :=
  String.ofList (decodeAll l.bytes)

/-- Whether a line holds nothing but blanks. -/
def Line.isBlank (l : Line) : Bool :=
  (trim l.text).isEmpty

/-- Whether the bytes of a line are well formed. -/
def Line.isText (l : Line) : Bool :=
  encode (decodeAll l.bytes) == l.bytes

example :
    lines (bytesOf "a\r\n\nb\r") = [⟨bytesOf "a", true⟩, ⟨[], true⟩, ⟨bytesOf "b\r", true⟩] := by
  decide

end SmallLisp.Text
