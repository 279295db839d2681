/-
This file finds decimals for a positive binary value by exact integer arithmetic: the nearest one
with a given number of digits, and the shortest one that reads back as the same double.

A double is read back from every decimal that lies between the points halfway to its two
neighbours. The halfway points themselves belong to the double with the even significand.
-/

import DirectionField.Number.Binary

namespace DirectionField

/-! ### Decimals -/

/-- The value `coefficient * 10 ^ place`. -/
structure Decimal where
  coefficient : Nat
  place : Int
deriving DecidableEq, Repr, Inhabited

/-- The number of decimal digits of a natural number; zero has one. -/
def digitCount (natural : Nat) : Nat :=
  (Nat.toDigits 10 natural).length

/-! ### The decimal grid -/

/-- The numerator and the denominator of a value in units of `10 ^ place`. -/
def Binary.inUnits (value : Binary) (place : Int) : Nat × Nat :=
  (value.significand * powerOfTwo value.exponent.toNat * powerOfTen (-place).toNat,
   powerOfTwo (-value.exponent).toNat * powerOfTen place.toNat)

/-- The place of the first digit of a positive value: the greatest power of ten that is not
above it. -/
def Binary.leadingPlace (value : Binary) : Int :=
  let (numerator, denominator) := value.inUnits 0
  if denominator ≤ numerator then
    (digitCount (numerator / denominator) : Int) - 1
  else
    -(digitCount ((denominator - 1) / numerator) : Int)

/-- The grid points beside a value, the nearer first; of two equally near, the even one first. -/
def Binary.neighbours (value : Binary) (place : Int) : Nat × Nat :=
  let (numerator, denominator) := value.inUnits place
  let below := numerator / denominator
  let twice := 2 * (numerator % denominator)
  if twice < denominator || (twice == denominator && below % 2 == 0) then
    (below, below + 1)
  else
    (below + 1, below)

/-- The nearest decimal with a given number of digits, half to even. -/
def Binary.rounded (value : Binary) (digits : Nat) : Decimal :=
  let place := value.leadingPlace - ((digits : Int) - 1)
  ⟨(value.neighbours place).1, place⟩

/-! ### Reading back -/

/-- Whether a double is the nearest one to a decimal. All is measured in quarters of the unit of
the significand. The lower neighbour of a power of two is only half as far away, unless the value
is among the least ones, which are evenly spaced. -/
def Binary.isNearestTo (value : Binary) (decimal : Decimal) : Bool :=
  let isPowerOfTwo := value.significand == powerOfTwo 52 && value.exponent != -1074
  let quarter := value.exponent - 2
  let scale := powerOfTwo quarter.toNat * powerOfTen (-decimal.place).toNat
  let lower := (4 * value.significand - if isPowerOfTwo then 1 else 2) * scale
  let upper := (4 * value.significand + 2) * scale
  let point := decimal.coefficient * powerOfTen decimal.place.toNat * powerOfTwo (-quarter).toNat
  if value.significand % 2 = 0 then
    lower ≤ point && point ≤ upper
  else
    lower < point && point < upper

/-- The nearest point of a decimal grid that reads back as the value, if one does. -/
def Binary.readable? (value : Binary) (place : Int) : Option Decimal :=
  let (nearer, farther) := value.neighbours place
  [Decimal.mk nearer place, Decimal.mk farther place].find? value.isNearestTo

/-- The decimal of a positive value with the fewest digits among those that read back, and the
nearest of these. Seventeen digits always suffice. -/
def Binary.shortest (value : Binary) : Decimal :=
  let leading := value.leadingPlace
  ((List.range 16).findSome? fun (more : Nat) => value.readable? (leading - more)).getD
    (value.rounded 17)

end DirectionField
