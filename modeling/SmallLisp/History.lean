import SmallLisp.Text.Lines

/-!
# Remembered lines

The lines entered at the prompt are remembered in order, byte for byte.  A line that repeats the one
just before it is remembered once, and only the last thousand lines are kept.  In a file they stand
one on a line.  A file is read up to the first line that is cut or not well formed.
-/

namespace SmallLisp

/-- Remembered lines, the oldest one first. -/
structure History where
  /-- The lines. -/
  lines : List (List UInt8) := []
deriving DecidableEq

namespace History

/-- How many lines are kept. -/
def capacity : Nat := 1000

/-- The last lines of a list, as many as are kept. -/
def ofLines (lines : List (List UInt8)) : History :=
  { lines := lines.drop (lines.length - capacity) }

/-- The lines of a file. -/
def ofBytes (bytes : List UInt8) : History :=
  ofLines (((Text.lines bytes).takeWhile fun l => l.complete && l.isText).map Text.Line.bytes)

/-- Remembers a line, unless it is blank. -/
def remember (h : History) (line : Text.Line) : History :=
  if line.isBlank || h.lines.getLast? = some line.bytes then h
  else ofLines (h.lines ++ [line.bytes])

/-- Remembers lines in order. -/
def rememberAll (h : History) (lines : List Text.Line) : History :=
  lines.foldl remember h

/-- The lines as they stand in a file. -/
def bytes (h : History) : List UInt8 :=
  h.lines.flatMap fun line => line ++ [Text.newline]

end History

end SmallLisp
