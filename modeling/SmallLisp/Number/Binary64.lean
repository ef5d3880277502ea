/-!
# Double-precision numbers by their codes

The magnitude of a double-precision number is described by a code of 63 bits.  Codes grow with the
magnitude: zero has code `0`, the least positive number has code `1`, and the finite magnitudes are
the codes below `infinityCode`.

Every finite magnitude is a whole number of units, where the unit is the least positive number
`2 ^ (-1074)`.  That makes rounding a matter of natural numbers: `codeOfRatio num den` is the code
of the number nearest to `num / den`, and of two that are equally near the one with an even code.
A ratio beyond the largest finite number gets a code at or above `infinityCode`.
-/

namespace SmallLisp.Number

/-- The code of infinity.  Smaller codes are finite, larger ones are not numbers. -/
def infinityCode : Nat := 0x7FF0000000000000

/-- How many codes share an exponent field, `2 ^ 52`. -/
abbrev fractionCodes : Nat := 0x10000000000000

/-- The word that holds the sign alone, `2 ^ 63`. -/
abbrev signWord : Nat := 0x8000000000000000

/-- How many units make one. -/
def unitsPerOne : Nat := Nat.pow 2 1074

/-- The whole number nearest to `num / den`, the even one of two that are equally near. -/
def nearest (num den : Nat) : Nat :=
  let q := num / den
  let r := num % den
  if 2 * r < den then q else if den < 2 * r then q + 1 else q + q % 2

/-- The code of the number nearest to `num / den`.  With `t` the number of binary places by which
the ratio passes 53 digits, the codes around it step by `2 ^ t` units, so the ratio is rounded to a
multiple of that step. -/
def codeOfRatio (num den : Nat) : Nat :=
  let units := num * unitsPerOne
  let t := (units / den).log2 - 52
  t * fractionCodes + nearest units (den * Nat.pow 2 t)

/-- The magnitude with a finite code, in units. -/
def unitsOfCode (code : Nat) : Nat :=
  let field := code / fractionCodes
  let fraction := code % fractionCodes
  if field = 0 then fraction else (fractionCodes + fraction) * Nat.pow 2 (field - 1)

/-- The code of the number nearest to a number of units. -/
def codeOfUnits (units : Nat) : Nat :=
  codeOfRatio units unitsPerOne

/-- The number with a sign and the code of a magnitude; what lies beyond the finite codes is
infinite. -/
def ofCode (negative : Bool) (code : Nat) : Float :=
  let magnitude := min code infinityCode
  Float.ofBits (UInt64.ofNat (if negative then signWord + magnitude else magnitude))

/-- The code of a number's magnitude. -/
def codeOf (x : Float) : Nat :=
  x.toBits.toNat % signWord

/-- Whether a number carries a minus sign; zero may. -/
def isNegative (x : Float) : Bool :=
  signWord ≤ x.toBits.toNat

/-- Whether a number is neither infinite nor undefined. -/
def isFinite (x : Float) : Bool :=
  codeOf x < infinityCode

/-- The number nearest to a whole number. -/
def ofInt64 (n : Int64) : Float :=
  ofCode (n.toInt < 0) (codeOfRatio n.toInt.natAbs 1)

/-- The magnitude of a finite number, in units. -/
def unitsOf (x : Float) : Nat :=
  unitsOfCode (codeOf x)

/-- A finite number as a signed number of units. -/
def signedUnits (x : Float) : Int :=
  if isNegative x then -(unitsOf x : Int) else unitsOf x

/-- The smallest step above one is rounded to even. -/
example : codeOfRatio (2 ^ 53 + 1) (2 ^ 53) = codeOfRatio 1 1 := by
  decide +kernel

end SmallLisp.Number
