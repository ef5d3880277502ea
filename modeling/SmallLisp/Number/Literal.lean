import SmallLisp.Number.Binary64

/-!
# Number words

Two readings of a word as a number.

An *integer word* is an optional sign and decimal digits, with a value that fits in 64 bits.

A *float word* is an optional sign, digits with at most one point among them, and an exponent.  It
is decimal with an optional exponent after `e`, or hexadecimal after `0x`, and then the exponent
after `p` is a power of two and must be there.  Underscores may separate digits.  The value is the
nearest double-precision number; a word whose value is too large for one is refused, and one too
small is zero.
-/

namespace SmallLisp.Number

/-! ## Digits -/

/-- Whether a character is a decimal digit. -/
def isDigit (c : Char) : Bool :=
  '0' ≤ c && c ≤ '9'

/-- Whether a character is a sign. -/
def isSign (c : Char) : Bool :=
  c == '+' || c == '-'

/-- The value of a hexadecimal digit. -/
def hexDigit? (c : Char) : Option Nat :=
  if isDigit c then some (c.toNat - '0'.toNat)
  else if 'a' ≤ c ∧ c ≤ 'f' then some (c.toNat - 'a'.toNat + 10)
  else if 'A' ≤ c ∧ c ≤ 'F' then some (c.toNat - 'A'.toNat + 10)
  else none

/-- The value of a digit in base ten or sixteen. -/
def digit? (base : Nat) (c : Char) : Option Nat :=
  (hexDigit? c).filter (· < base)

/-- A leading sign, if there is one, and the characters after it. -/
def splitSign : List Char → Bool × List Char
  | '-' :: cs => (true, cs)
  | '+' :: cs => (false, cs)
  | cs => (false, cs)

/-! ## Integer words -/

/-- The value of an integer word. -/
def readInteger? (word : List Char) : Option Int64 :=
  let (negative, digits) := splitSign word
  if digits.isEmpty || !digits.all isDigit then none
  else
    let magnitude := Nat.ofDigitChars 10 digits 0
    let n : Int := if negative then -(magnitude : Int) else magnitude
    if -0x8000000000000000 ≤ n ∧ n < 0x8000000000000000 then some (Int64.ofInt n) else none

/-! ## Float words -/

/-- The digits before an exponent, as far as they have been read. -/
structure Mantissa where
  /-- All digits read as one whole number. -/
  value : Nat := 0
  /-- How many of the digits stand after the point. -/
  places : Nat := 0
  /-- Whether the point was passed. -/
  point : Bool := false
  /-- Whether there was any digit. -/
  digits : Bool := false
deriving DecidableEq

/-- Adds one digit on the right. -/
def Mantissa.push (m : Mantissa) (base d : Nat) : Mantissa :=
  { value := m.value * base + d
    places := if m.point then m.places + 1 else m.places
    point := m.point
    digits := true }

/-- Reads digits, underscores and one point, up to the first other character. -/
def Mantissa.read (base : Nat) (m : Mantissa) : List Char → Mantissa × List Char
  | [] => (m, [])
  | c :: cs =>
    if c = '_' then m.read base cs
    else if c = '.' then
      if m.point then (m, c :: cs) else Mantissa.read base { m with point := true } cs
    else
      match digit? base c with
      | some d => (m.push base d).read base cs
      | none => (m, c :: cs)

/-- The magnitude of an exponent at which further digits no longer count. -/
def exponentCap : Nat := 10000

/-- Reads the digits of an exponent to the end of the word.  Once the exponent has reached the cap
its further digits are passed over: the number is zero or too large whatever they are. -/
def readExponentDigits (e : Nat) : List Char → Option Nat
  | [] => some e
  | c :: cs =>
    if c = '_' then readExponentDigits e cs
    else if isDigit c then
      readExponentDigits (if e < exponentCap then e * 10 + (c.toNat - '0'.toNat) else e) cs
    else none

/-- The exponent that follows its letter: an optional sign, then digits, the first of them not an
underscore. -/
def readExponent? (cs : List Char) : Option Int :=
  let (negative, digits) := splitSign cs
  match digits with
  | [] => none
  | c :: _ =>
    if isDigit c then
      (readExponentDigits 0 digits).map fun e => if negative then -(e : Int) else e
    else none

/-- What the last character was, for the rule on underscores. -/
inductive UnderscoreState where
  /-- The start of the word. -/
  | start
  /-- A digit, or the letter of a base. -/
  | digit
  /-- An underscore, which needs a digit next. -/
  | underscore
  /-- Any other character. -/
  | other
deriving DecidableEq

/-- Checks that every underscore stands after a digit and before one. -/
def underscoresFrom (hex : Bool) (state : UnderscoreState) : List Char → Bool
  | [] => state ≠ .underscore
  | c :: cs =>
    if isDigit c || (hex && (hexDigit? c).isSome) then underscoresFrom hex .digit cs
    else if c = '_' then state = .digit && underscoresFrom hex .underscore cs
    else state ≠ .underscore && underscoresFrom hex .other cs

/-- Whether the underscores of a word separate digits.  The letter of a base counts as a digit, so
one may follow it. -/
def underscoresOk (word : List Char) : Bool :=
  match (splitSign word).2 with
  | '0' :: b :: cs =>
    if b = 'x' || b = 'X' then underscoresFrom true .digit cs
    else if b = 'b' || b = 'B' || b = 'o' || b = 'O' then underscoresFrom false .digit cs
    else underscoresFrom false .start ('0' :: b :: cs)
  | cs => underscoresFrom false .start cs

/-- The code of `value * base ^ exponent`. -/
def codeOfScaled (value base : Nat) (exponent : Int) : Nat :=
  match exponent with
  | .ofNat e => codeOfRatio (value * base.pow e) 1
  | .negSucc e => codeOfRatio value (base.pow (e + 1))

/-- The code of a decimal magnitude: digits, then perhaps an exponent. -/
def decimalCode? (cs : List Char) : Option Nat :=
  let (m, rest) := Mantissa.read 10 {} cs
  if !m.digits then none
  else
    match rest with
    | [] => some (codeOfScaled m.value 10 (-(m.places : Int)))
    | c :: cs =>
      if c = 'e' || c = 'E' then
        (readExponent? cs).map fun e => codeOfScaled m.value 10 (e - m.places)
      else none

/-- The code of a hexadecimal magnitude after its `0x`: digits, then an exponent. -/
def hexCode? (cs : List Char) : Option Nat :=
  let (m, rest) := Mantissa.read 16 {} cs
  if !m.digits then none
  else
    match rest with
    | [] => none
    | c :: cs =>
      if c = 'p' || c = 'P' then
        (readExponent? cs).map fun e => codeOfScaled m.value 2 (e - 4 * m.places)
      else none

/-- The code of a magnitude, decimal or hexadecimal.  A bare `0x` starts no hexadecimal word. -/
def magnitudeCode? : List Char → Option Nat
  | '0' :: b :: c :: cs =>
    if b = 'x' || b = 'X' then hexCode? (c :: cs) else decimalCode? ('0' :: b :: c :: cs)
  | cs => decimalCode? cs

/-- The value of a float word. -/
def readFloat? (word : List Char) : Option Float :=
  let (negative, magnitude) := splitSign word
  match magnitudeCode? magnitude with
  | none => none
  | some code =>
    if code < infinityCode && (!word.contains '_' || underscoresOk word) then
      some (ofCode negative code)
    else none

end SmallLisp.Number
