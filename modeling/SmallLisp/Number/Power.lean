import SmallLisp.Number.Remainder

/-!
# Powers

Integer powers wrap around like every other integer operation: `wrappingPower` squares and
multiplies modulo `2 ^ 64`.

A floating-point power `x ^ y` splits the exponent into its whole part and its fraction.  The whole
part is done by squaring and multiplying a fraction between one half and one, with the power of two
kept apart so that nothing overflows on the way.  The fraction contributes `exp (f * log x)`.  The
logarithm is the usual rational approximation around one after taking out a power of two, and the
exponential is a polynomial on a sixteenth of the reduced argument that is squared up again.
-/

namespace SmallLisp.Number

/-! ## Integer powers -/

/-- Multiplies into `result` the powers of `base` that the binary digits of `e` ask for, at most
`digits` of them. -/
def squareMultiply : (digits : Nat) → (result base : Int64) → (e : Nat) → Int64
  | 0, result, _, _ => result
  | digits + 1, result, base, e =>
    if e = 0 then result
    else squareMultiply digits (if e % 2 = 1 then result * base else result) (base * base) (e / 2)

/-- `base ^ e` modulo `2 ^ 64`. -/
def wrappingPower (base : Int64) (e : Nat) : Int64 :=
  squareMultiply (e.log2 + 1) 1 base e

/-! ## Numbers as fractions and powers of two -/

/-- A number as a fraction of magnitude at least one half and below one, and a power of two. -/
structure Scaled where
  /-- The fraction, with the sign. -/
  fraction : Float
  /-- The exponent of two. -/
  exponent : Int

/-- Splits a finite number other than zero. -/
def Scaled.of (x : Float) : Scaled :=
  let units := unitsOf x
  let length := units.log2 + 1
  { fraction := ofCode (isNegative x) (codeOfRatio units (Nat.pow 2 length))
    exponent := (length : Int) - 1074 }

/-- Splits a positive finite number by the fields of its code alone.  For a number that has all 53
binary places this is the same split; for a smaller one the places that are missing are not made
up for, and the fraction is read as if it stood under a leading one. -/
def Scaled.ofFields (x : Float) : Scaled :=
  { fraction := ofCode false (0x3FE * fractionCodes + codeOf x % fractionCodes)
    exponent := (codeOf x / fractionCodes : Nat) - 0x3FE }

/-- The number nearest to `x * 2 ^ e`, for a finite `x`. -/
def timesPowerOfTwo (x : Float) (e : Int) : Float :=
  match e with
  | .ofNat n => ofCode (isNegative x) (codeOfRatio (unitsOf x * Nat.pow 2 n) unitsPerOne)
  | .negSucc n => ofCode (isNegative x) (codeOfRatio (unitsOf x) (unitsPerOne * Nat.pow 2 (n + 1)))

/-- `a * b + c` for finite numbers, rounded once. -/
def multiplyAdd (a b c : Float) : Float :=
  let sum := signedUnits a * signedUnits b + signedUnits c * (unitsPerOne : Int)
  ofCode (sum < 0) (codeOfRatio sum.natAbs (unitsPerOne * unitsPerOne))

/-! ## Logarithm and exponential -/

/-- The leading digits of the natural logarithm of two. -/
def ln2High : Float := 6.93147180369123816490e-01

/-- What `ln2High` leaves out. -/
def ln2Low : Float := 1.90821492927058770002e-10

/-- The square root of one half. -/
def halfRoot : Float := 7.07106781186547524401e-01

/-- The natural logarithm of a positive finite number that has all 53 binary places.  Below those
it is the logarithm of what `Scaled.ofFields` makes of the number.  A fraction up to `halfRoot`,
that number included, is doubled, so that what is left is close to one. -/
def naturalLog (x : Float) : Float :=
  let s := Scaled.ofFields x
  let small := s.fraction ≤ halfRoot
  let f := (if small then s.fraction * 2 else s.fraction) - 1
  let k := ofInt64 (Int64.ofInt (if small then s.exponent - 1 else s.exponent))
  let q := f / (2 + f)
  let q2 := q * q
  let q4 := q2 * q2
  let odd := q2 * (6.666666666666735130e-01 + q4 * (2.857142874366239149e-01 +
    q4 * (1.818357216161805012e-01 + q4 * 1.479819860511658591e-01)))
  let even := q4 * (3.999999999940941908e-01 + q4 * (2.222219843214978396e-01 +
    q4 * 1.531383769920937332e-01))
  let half := 0.5 * f * f
  k * ln2High - ((half - (q * (half + (odd + even)) + k * ln2Low)) - f)

/-- The whole number nearest to a finite number, even on a tie. -/
def nearestInt (x : Float) : Int :=
  let n : Int := nearest (unitsOf x) unitsPerOne
  if isNegative x then -n else n

/-- The coefficients `1 / n!` of the exponential series, from the eighth to the first. -/
def seriesCoefficients : List Float :=
  [1.9841269841269841270e-4, 1.3888888888888888889e-3, 8.3333333333333333333e-3,
   4.1666666666666666667e-2, 1.6666666666666666667e-1, 0.5, 1.0]

/-- The exponential of a number of moderate size. -/
def exponential (x : Float) : Float :=
  let n := nearestInt (1.4426950408889634073599246810018920 * x)
  let k := -(ofInt64 (Int64.ofInt n))
  let high := multiplyAdd k 0.69314718055966295651160180568695068359375 x
  let low := multiplyAdd k 0.28235290563031577122588448175013436025525412068e-12 high
  let r := low * 0.0625
  let series := seriesCoefficients.foldl (fun acc c => multiplyAdd acc r c) 2.4801587301587301587e-5
  let e16 := r * series
  let e8 := e16 * (e16 + 2)
  let e4 := e8 * (e8 + 2)
  let e2 := e4 * (e4 + 2)
  timesPowerOfTwo (multiplyAdd e2 (e2 + 2) 1) n

/-! ## Floating-point powers -/

/-- Whether a number is an odd whole number. -/
def isOddWhole (x : Float) : Bool :=
  let units := unitsOf x
  isFinite x && units % unitsPerOne == 0 && units / unitsPerOne % 2 == 1

/-- Multiplies into `acc` the powers of a fraction that the binary digits of `e` ask for, at most
`digits` of them.  A power of two far outside every finite number ends the work. -/
def scaledPower : (digits : Nat) → (acc base : Scaled) → (e : Nat) → Scaled
  | 0, acc, _, _ => acc
  | digits + 1, acc, base, e =>
    if e = 0 then acc
    else if base.exponent < -4096 ∨ 4096 < base.exponent then
      { acc with exponent := acc.exponent + base.exponent }
    else
      let acc : Scaled :=
        if e % 2 = 1 then
          { fraction := acc.fraction * base.fraction, exponent := acc.exponent + base.exponent }
        else acc
      let square := base.fraction * base.fraction
      let base : Scaled :=
        if square < 0.5 then { fraction := square + square, exponent := 2 * base.exponent - 1 }
        else { fraction := square, exponent := 2 * base.exponent }
      scaledPower digits acc base (e / 2)

/-- `x ^ y` for finite `x` and `y`, neither of them zero. -/
def finitePower (x y : Float) : Float :=
  let units := unitsOf y
  let whole := units / unitsPerOne
  let fraction := ofCode false (codeOfUnits (units % unitsPerOne))
  if fraction != 0 && x < 0 then undefinedNumber
  else if signWord ≤ whole then
    if x == -1 then 1
    else if (x.abs < 1) == (y > 0) then 0
    else ofCode false infinityCode
  else
    let up := fraction > 0.5
    let start : Float :=
      if fraction == 0 then 1
      else exponential ((if up then fraction - 1 else fraction) * naturalLog x)
    let e := if up then whole + 1 else whole
    let p := scaledPower (e.log2 + 1) { fraction := start, exponent := 0 } (Scaled.of x) e
    if y < 0 then timesPowerOfTwo (1 / p.fraction) (-p.exponent)
    else timesPowerOfTwo p.fraction p.exponent

/-- `x ^ y` for `x` zero and `y` a number other than zero. -/
def powerOfZero (x y : Float) : Float :=
  if y < 0 then ofCode (isNegative x && isOddWhole y) infinityCode
  else if isNegative x && isOddWhole y then x
  else 0

/-- `x ^ y`. -/
def power (x y : Float) : Float :=
  if y == 0 || x == 1 then 1
  else if y == 1 then x
  else if x.isNaN || y.isNaN then undefinedNumber
  else if x == 0 then powerOfZero x y
  else if !isFinite y then
    if x == -1 then 1
    else if (x.abs < 1) == !isNegative y then 0
    else ofCode false infinityCode
  else if !isFinite x then
    if isNegative x then powerOfZero (1 / x) (-y)
    else if y < 0 then 0
    else x
  else if y == 0.5 then x.sqrt
  else if y == -0.5 then 1 / x.sqrt
  else finitePower x y

end SmallLisp.Number
