import SmallLisp.Number.Binary64

/-!
# The shortest decimal

The text of a double-precision number has the fewest significant digits that still read back as
that number, and of the decimals with so few digits the one nearest to it.

A finite magnitude has an exact decimal expansion with at most 1074 places, since its unit is
`2 ^ (-1074) = 5 ^ 1074 / 10 ^ 1074`.  So all decimals here are whole numbers of the *place*
`10 ^ (-1074)`.  For one digit, two digits and so on the two neighbours of the exact expansion on
that grid are tried; `readsBack` says whether one rounds to the number again.  The expansion itself
reads back, so the search always has an answer.

Numbers are written positionally, never with an exponent.
-/

namespace SmallLisp.Number

/-- How many decimal places suffice for every finite number. -/
def decimalPlaces : Nat := 1074

/-- How many places make one. -/
def placesPerOne : Nat := Nat.pow 10 decimalPlaces

/-- The most significant digits that a shortest decimal ever needs. -/
def mostDigits : Nat := 17

/-- The exact expansion of a finite magnitude, in places. -/
def expansion (code : Nat) : Nat :=
  unitsOfCode code * Nat.pow 5 decimalPlaces

/-- Whether a number of places rounds to the magnitude with this code. -/
def readsBack (code places : Nat) : Bool :=
  codeOfRatio places placesPerOne == code

/-- The nearer of the two neighbours of `exact` among the multiples of `step` that reads back, the
one with an even count of steps if both are equally near. -/
def neighbour? (code exact step : Nat) : Option Nat :=
  let below := exact / step
  let low := below * step
  let high := (below + 1) * step
  match readsBack code low, readsBack code high with
  | true, true => some (nearest exact step * step)
  | true, false => some low
  | false, true => some high
  | false, false => none

/-- Tries `digits` significant digits of an expansion of `length` digits, and one more each time,
`tries` times. -/
def searchDigits (code exact length : Nat) : (tries digits : Nat) → Option Nat
  | 0, _ => none
  | tries + 1, digits =>
    match neighbour? code exact (Nat.pow 10 (length - digits)) with
    | some places => some places
    | none => searchDigits code exact length tries (digits + 1)

/-- The shortest decimal of a finite magnitude, in places. -/
def shortest (code : Nat) : Nat :=
  let exact := expansion code
  let length := (Nat.toDigits 10 exact).length
  ((searchDigits code exact length mostDigits 1).filter (readsBack code)).getD exact

/-- A list without the zeros at its end. -/
def dropTrailingZeros (cs : List Char) : List Char :=
  (cs.reverse.dropWhile (· == '0')).reverse

/-- Exactly `width` digits of `n`, zeros in front. -/
def paddedDigits (width n : Nat) : List Char :=
  let digits := Nat.toDigits 10 n
  List.replicate (width - digits.length) '0' ++ digits

/-- A number of places in positional notation, without a point when it is whole. -/
def positional (places : Nat) : List Char :=
  let whole := Nat.toDigits 10 (places / placesPerOne)
  let fraction := dropTrailingZeros (paddedDigits decimalPlaces (places % placesPerOne))
  if fraction.isEmpty then whole else whole ++ '.' :: fraction

/-- The text of a finite number. -/
def finiteText (x : Float) : List Char :=
  let digits := positional (shortest (codeOf x))
  if isNegative x then '-' :: digits else digits

/-- The text of a number. -/
def floatText (x : Float) : String :=
  if isFinite x then String.ofList (finiteText x)
  else if codeOf x = infinityCode then if isNegative x then "-inf" else "inf"
  else "NaN"

/-- The text of a whole number: its digits, after a sign if it is negative. -/
def wholeText (n : Int) : String :=
  let digits := Nat.toDigits 10 n.natAbs
  String.ofList (if n < 0 then '-' :: digits else digits)

/-- The text of an integer of 64 bits. -/
def integerText (n : Int64) : String :=
  wholeText n.toInt

end SmallLisp.Number
