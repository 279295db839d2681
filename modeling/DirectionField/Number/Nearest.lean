/-
This file rounds exact values to doubles. Every rounding gives the nearest double, and of two
equally near ones the even one. Sums of squares are exact, whatever the sizes of the two values
are, for they are computed with integers; only their root is rounded, and only once.
-/

import DirectionField.Number.Binary

namespace DirectionField

/-! ### Rounding -/

namespace Binary

/-- The double nearest to a value. -/
def nearest (value : Binary) : Float :=
  .ofModel (.pack (.round .binary64 .positive value.significand value.exponent))

/-- The double nearest to the root of a value. -/
def nearestRoot (value : Binary) : Float :=
  if positive : 0 < value.significand then
    .ofModel (.pack (.sqrt .binary64
      (.finite .positive value.significand value.exponent positive)))
  else
    0.0

example : nearest ⟨powerOfTwo 53 + 1, 0⟩ = 9007199254740992.0 := by decide +kernel

example : nearestRoot ⟨2, 0⟩ = 1.4142135623730951 := by decide +kernel

/-- The sum of the squares of two values, in units of the square of the finer unit. -/
def sumOfSquares (first second : Binary) : Binary :=
  let exponent := min first.exponent second.exponent
  let square (value : Binary) : Nat :=
    let units := value.significand * powerOfTwo (value.exponent - exponent).toNat
    units * units
  ⟨square first + square second, 2 * exponent⟩

example : (sumOfSquares ⟨3, 0⟩ ⟨1, 2⟩).nearestRoot = 5.0 := by decide +kernel

end Binary

/-- The double nearest to half of an integer, which may be finite although the integer is beyond the
greatest double. -/
def halfOf (integer : Int) : Float :=
  let half := (Binary.mk integer.natAbs (-1)).nearest
  if integer < 0 then -half else half

example : halfOf (-5) = -2.5 := by decide +kernel

end DirectionField
