import SmallLisp.Number.Binary64

/-!
# Floating-point remainder

The remainder of a division whose quotient is cut off toward zero.  Both magnitudes are whole
numbers of units, so the remainder of the natural numbers is the exact answer; it takes the sign of
the dividend.
-/

namespace SmallLisp.Number

/-- The number that is no number. -/
def undefinedNumber : Float :=
  ofCode false infinityCode - ofCode false infinityCode

/-- What is left of `x` after taking away the multiple of `y` that is nearest to it toward zero. -/
def remainder (x y : Float) : Float :=
  if !isFinite x || codeOf y = 0 || infinityCode < codeOf y then undefinedNumber
  else if codeOf y = infinityCode then x
  else ofCode (isNegative x) (codeOfUnits (unitsOf x % unitsOf y))

end SmallLisp.Number
