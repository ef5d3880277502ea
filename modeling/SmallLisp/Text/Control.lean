import SmallLisp.Text.Printable

/-!
# Control characters

Characters that act on a display instead of appearing on it or spacing it: controls, format
characters, the codes for private use and the codes that no character has.  They are what is left
when the printable characters and the separators are taken away.  A prompt that holds one cannot
be shown.
-/

namespace SmallLisp.Text

/-- Whether a character is a space, line or paragraph separator. -/
def isSeparator (c : Char) : Bool :=
  let n := c.toNat
  n == 0x20 || n == 0xA0 || n == 0x1680 || (0x2000 ≤ n && n ≤ 0x200A) || n == 0x2028 ||
  n == 0x2029 || n == 0x202F || n == 0x205F || n == 0x3000

/-- Whether a character acts on a display instead of appearing on it or spacing it. -/
def isControl (c : Char) : Bool :=
  !isPrintable c && !isSeparator c

/-- No character that has a visible form is a control. -/
theorem not_isControl_of_isPrintable {c : Char} (h : isPrintable c = true) :
    isControl c = false := by
  simp [isControl, h]

example : ['\t', '\u200B', '\uE000', '\u0378'].all isControl = true := by
  decide +kernel

example : ['a', ' ', 'é', '\u2003', '\uFFFD'].any isControl = false := by
  decide +kernel

end SmallLisp.Text
