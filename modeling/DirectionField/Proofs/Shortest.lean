/-
This file proves that the shortest decimal of a double is read back as that double, and as no other
one. A decimal is read back as the double whose reach it lies in: the numbers up to the points
halfway to the neighbours of the double. The reach of one double ends where that of the next one
begins, and only the one with the even significand has the point between them.

Seventeen digits always suffice. The nearest decimal with so many digits is less than half a unit of
the significand away, for the significand is below `10 ^ 16`.
-/

import DirectionField.Number.Decimal
import Mathlib.Algebra.Order.Field.Power
import Mathlib.Algebra.Order.Ring.Rat
import Mathlib.Tactic.Linarith
import Mathlib.Tactic.NormNum
import Mathlib.Tactic.Positivity
import Mathlib.Tactic.Ring

namespace DirectionField

/-! ### Exact values -/

/-- The rational number that a decimal is. -/
def Decimal.exact (decimal : Decimal) : ℚ :=
  decimal.coefficient * 10 ^ decimal.place

/-- The rational number that a magnitude is. -/
def Binary.exact (value : Binary) : ℚ :=
  value.significand * 2 ^ value.exponent

theorem cast_powerOfTwo (exponent : Nat) : (powerOfTwo exponent : ℚ) = 2 ^ exponent :=
  Nat.cast_pow 2 exponent

theorem cast_powerOfTen (exponent : Nat) : (powerOfTen exponent : ℚ) = 10 ^ exponent :=
  Nat.cast_pow 10 exponent

/-- The numerator of a power over its denominator is the power. -/
theorem pow_toNat {base : ℚ} (nonzero : base ≠ 0) (exponent : ℤ) :
    base ^ exponent.toNat = base ^ exponent * base ^ (-exponent).toNat := by
  obtain ⟨count, rfl | rfl⟩ := exponent.eq_nat_or_neg
  · rw [Int.toNat_natCast, Int.toNat_neg_natCast, pow_zero, mul_one, zpow_natCast]
  · rw [neg_neg, Int.toNat_natCast, Int.toNat_neg_natCast, pow_zero, zpow_neg, zpow_natCast,
      inv_mul_cancel₀ (pow_ne_zero _ nonzero)]

theorem cast_powerOfTwo_toNat (exponent : ℤ) :
    (powerOfTwo exponent.toNat : ℚ) = 2 ^ exponent * powerOfTwo (-exponent).toNat := by
  rw [cast_powerOfTwo, cast_powerOfTwo, pow_toNat two_ne_zero]

theorem cast_powerOfTen_toNat (exponent : ℤ) :
    (powerOfTen exponent.toNat : ℚ) = 10 ^ exponent * powerOfTen (-exponent).toNat := by
  rw [cast_powerOfTen, cast_powerOfTen, pow_toNat (by norm_num)]

theorem powerOfTwo_pos (exponent : Nat) : 0 < powerOfTwo exponent :=
  Nat.pow_pos (Nat.succ_pos 1)

theorem powerOfTwo_succ (exponent : Nat) : powerOfTwo (exponent + 1) = 2 * powerOfTwo exponent :=
  Nat.pow_succ'

theorem powerOfTen_pos (exponent : Nat) : 0 < powerOfTen exponent :=
  Nat.pow_pos (Nat.succ_pos 9)

/-! ### The reach of a double -/

namespace Binary

/-- How far the reach of a value goes below the value, in quarters of the unit of the
significand. -/
def quartersBelow (value : Binary) : Nat :=
  if value.significand == powerOfTwo 52 && value.exponent != -1074 then 1 else 2

/-- The lower end of the reach of a value. -/
def lowerEnd (value : Binary) : ℚ :=
  (4 * value.significand - value.quartersBelow) * 2 ^ (value.exponent - 2)

/-- The upper end of the reach of a value. -/
def upperEnd (value : Binary) : ℚ :=
  (4 * value.significand + 2) * 2 ^ (value.exponent - 2)

/-- Whether a number is in the reach of a value. The ends belong to even significands only. -/
def Reaches (value : Binary) (number : ℚ) : Prop :=
  if value.significand % 2 = 0 then
    value.lowerEnd ≤ number ∧ number ≤ value.upperEnd
  else
    value.lowerEnd < number ∧ number < value.upperEnd

theorem quartersBelow_le (value : Binary) : value.quartersBelow ≤ 2 := by
  unfold quartersBelow
  split <;> omega

section

variable (quarter place : ℤ)

/-- The unit in which both a number of quarters and a decimal are integers. -/
def commonUnit : ℚ :=
  powerOfTwo (-quarter).toNat * powerOfTen (-place).toNat

theorem commonUnit_pos : 0 < commonUnit quarter place :=
  mul_pos (Nat.cast_pos.mpr (powerOfTwo_pos _)) (Nat.cast_pos.mpr (powerOfTen_pos _))

theorem cast_quarters (count : Nat) :
    ((count * (powerOfTwo quarter.toNat * powerOfTen (-place).toNat) : Nat) : ℚ) =
      count * 2 ^ quarter * commonUnit quarter place := by
  rw [Nat.cast_mul, Nat.cast_mul, cast_powerOfTwo_toNat, commonUnit]
  ring

theorem cast_point (coefficient : Nat) :
    ((coefficient * powerOfTen place.toNat * powerOfTwo (-quarter).toNat : Nat) : ℚ) =
      (Decimal.mk coefficient place).exact * commonUnit quarter place := by
  rw [Nat.cast_mul, Nat.cast_mul, cast_powerOfTen_toNat, commonUnit, Decimal.exact]
  ring

end

section

variable {value : Binary}

theorem cast_lowerQuarters (positive : 0 < value.significand) :
    ((4 * value.significand - value.quartersBelow : Nat) : ℚ) * 2 ^ (value.exponent - 2) =
      value.lowerEnd := by
  have bound := value.quartersBelow_le
  rw [Nat.cast_sub (by omega), Nat.cast_mul]
  rfl

theorem cast_upperQuarters :
    ((4 * value.significand + 2 : Nat) : ℚ) * 2 ^ (value.exponent - 2) = value.upperEnd := by
  rw [Nat.cast_add, Nat.cast_mul]
  rfl

/-- A positive value is the nearest one to the decimals in its reach. -/
theorem isNearestTo_iff (positive : 0 < value.significand) (decimal : Decimal) :
    value.isNearestTo decimal = true ↔ value.Reaches decimal.exact := by
  have unit := commonUnit_pos (value.exponent - 2) decimal.place
  unfold isNearestTo Reaches
  dsimp only
  rw [show (if value.significand == powerOfTwo 52 && value.exponent != -1074 then 1 else 2) =
    value.quartersBelow from rfl]
  split
  · rw [Bool.and_eq_true, decide_eq_true_eq, decide_eq_true_eq, ← Nat.cast_le (α := ℚ),
      ← Nat.cast_le (α := ℚ), cast_quarters, cast_quarters, cast_point,
      cast_lowerQuarters positive, cast_upperQuarters, mul_le_mul_iff_of_pos_right unit,
      mul_le_mul_iff_of_pos_right unit]
  · rw [Bool.and_eq_true, decide_eq_true_eq, decide_eq_true_eq, ← Nat.cast_lt (α := ℚ),
      ← Nat.cast_lt (α := ℚ), cast_quarters, cast_quarters, cast_point,
      cast_lowerQuarters positive, cast_upperQuarters, mul_lt_mul_iff_of_pos_right unit,
      mul_lt_mul_iff_of_pos_right unit]

end

/-! ### Only one double reaches a number -/

/-- A magnitude as doubles have it: the significand has at most 53 bits, and exactly 53 unless the
exponent is the lowest one. -/
structure IsDouble (value : Binary) : Prop where
  small : value.significand < powerOfTwo 53
  lowest : -1074 ≤ value.exponent
  full : value.exponent ≠ -1074 → powerOfTwo 52 ≤ value.significand

theorem IsDouble.exponent_of_zero {value : Binary} (isDouble : value.IsDouble)
    (isZero : value.significand = 0) : value.exponent = -1074 := by
  refine Classical.not_not.mp fun different => ?_
  have full := isDouble.full different
  have positive := powerOfTwo_pos 52
  omega

/-- Whether one magnitude is less than another one. -/
def Precedes (first second : Binary) : Prop :=
  first.exponent < second.exponent ∨
    first.exponent = second.exponent ∧ first.significand < second.significand

/-- In a binade above the lowest one, no reach begins below the first halfway point. -/
theorem le_lowerQuarters {value : Binary} (isDouble : value.IsDouble)
    (above : value.exponent ≠ -1074) :
    2 * powerOfTwo 53 ≤ 4 * value.significand - value.quartersBelow + 1 := by
  have full := isDouble.full above
  have double : powerOfTwo 53 = 2 * powerOfTwo 52 := powerOfTwo_succ 52
  unfold quartersBelow
  split
  · omega
  · next notPower =>
    have different : value.significand ≠ powerOfTwo 52 := by
      intro same
      rw [same, beq_self_eq_true, Bool.true_and] at notPower
      exact notPower (bne_iff_ne.mpr above)
    omega

variable {first second : Binary}

/-- The reach of the greater double begins where that of the lesser one ends, or above. If it begins
there, one of the significands is odd. -/
theorem exists_lowerQuarters (isFirst : first.IsDouble) (isSecond : second.IsDouble)
    (positive : 0 < second.significand) (precedes : first.Precedes second) :
    ∃ count : Nat, second.lowerEnd = count * 2 ^ (first.exponent - 2) ∧
      (4 * first.significand + 2 < count ∨ 4 * first.significand + 2 = count ∧
        (first.significand % 2 = 1 ∨ second.significand % 2 = 1)) := by
  rcases precedes with lower | ⟨same, less⟩
  · -- A quarter of the higher binade is at least two quarters of the lower one.
    have above : second.exponent ≠ -1074 := by
      have := isFirst.lowest
      omega
    obtain ⟨gap, isGap⟩ : ∃ gap : Nat, second.exponent - 2 = first.exponent - 2 + (gap + 1 : Nat) :=
      ⟨(second.exponent - first.exponent - 1).toNat, by omega⟩
    refine ⟨(4 * second.significand - second.quartersBelow) * powerOfTwo (gap + 1), ?_, ?_⟩
    · rw [← cast_lowerQuarters positive, isGap, zpow_add₀ two_ne_zero, zpow_natCast, Nat.cast_mul,
        cast_powerOfTwo]
      ring
    · have small := isFirst.small
      have double : powerOfTwo 53 = 2 * powerOfTwo 52 := powerOfTwo_succ 52
      have begins := le_lowerQuarters isSecond above
      have doubled : 2 * (4 * second.significand - second.quartersBelow) ≤
          (4 * second.significand - second.quartersBelow) * powerOfTwo (gap + 1) := by
        rw [Nat.mul_comm]
        refine Nat.mul_le_mul_left _ ?_
        rw [powerOfTwo_succ]
        exact Nat.le_mul_of_pos_right 2 (powerOfTwo_pos gap)
      omega
  · refine ⟨4 * second.significand - second.quartersBelow, ?_, ?_⟩
    · rw [← cast_lowerQuarters positive, same]
    · have bound := second.quartersBelow_le
      omega

theorem Reaches.within {value : Binary} {number : ℚ} (reached : value.Reaches number) :
    value.lowerEnd ≤ number ∧ number ≤ value.upperEnd := by
  unfold Reaches at reached
  split at reached
  · exact reached
  · exact ⟨reached.1.le, reached.2.le⟩

theorem Reaches.inside {value : Binary} {number : ℚ} (reached : value.Reaches number)
    (odd : value.significand % 2 = 1) : value.lowerEnd < number ∧ number < value.upperEnd := by
  rwa [Reaches, if_neg (by omega)] at reached

/-- Only positive numbers are in the reach of a positive value. -/
theorem Reaches.pos {value : Binary} {number : ℚ} (reached : value.Reaches number)
    (positive : 0 < value.significand) : 0 < number := by
  have bound := value.quartersBelow_le
  refine lt_of_lt_of_le ?_ reached.within.1
  rw [← cast_lowerQuarters positive]
  exact mul_pos (Nat.cast_pos.mpr (by omega)) (by positivity)

theorem reaches_of_inside {value : Binary} {number : ℚ} (lower : value.lowerEnd < number)
    (upper : number < value.upperEnd) : value.Reaches number := by
  unfold Reaches
  split
  · exact ⟨lower.le, upper.le⟩
  · exact ⟨lower, upper⟩

theorem not_reaches_of_precedes (isFirst : first.IsDouble) (isSecond : second.IsDouble)
    (positive : 0 < second.significand) (precedes : first.Precedes second) {number : ℚ}
    (reached : first.Reaches number) : ¬second.Reaches number := by
  intro alsoReached
  obtain ⟨count, isLower, apart⟩ := exists_lowerQuarters isFirst isSecond positive precedes
  have isUpper : _ = first.upperEnd := cast_upperQuarters
  rcases apart with beyond | ⟨touching, odd | odd⟩
  · have gap : first.upperEnd < second.lowerEnd := by
      rw [isLower, ← isUpper]
      exact mul_lt_mul_of_pos_right (Nat.cast_lt.mpr beyond) (by positivity)
    exact absurd (reached.within.2.trans_lt gap) (not_lt.mpr alsoReached.within.1)
  · rw [touching, ← isLower] at isUpper
    exact absurd (reached.inside odd).2 (not_lt.mpr (isUpper ▸ alsoReached.within.1))
  · rw [touching, ← isLower] at isUpper
    exact absurd (alsoReached.inside odd).1 (not_lt.mpr (isUpper ▸ reached.within.2))

/-- A number is in the reach of one double only. -/
theorem eq_of_reaches (isFirst : first.IsDouble) (isSecond : second.IsDouble)
    (firstPositive : 0 < first.significand) (secondPositive : 0 < second.significand) {number : ℚ}
    (reached : first.Reaches number) (alsoReached : second.Reaches number) : first = second := by
  have notBefore : ¬first.Precedes second := fun precedes =>
    not_reaches_of_precedes isFirst isSecond secondPositive precedes reached alsoReached
  have notAfter : ¬second.Precedes first := fun precedes =>
    not_reaches_of_precedes isSecond isFirst firstPositive precedes alsoReached reached
  unfold Precedes at notBefore notAfter
  have sameExponent : first.exponent = second.exponent := by omega
  have sameSignificand : first.significand = second.significand := by omega
  cases first
  cases second
  exact congrArg₂ Binary.mk sameSignificand sameExponent

/-! ### Seventeen digits suffice -/

theorem digitCount_pos (natural : Nat) : 0 < digitCount natural :=
  Nat.length_toDigits_pos

theorem lt_powerOfTen_digitCount (natural : Nat) : natural < powerOfTen (digitCount natural) :=
  (Nat.length_toDigits_le_iff (Nat.succ_lt_succ (Nat.succ_pos 8)) (digitCount_pos natural)).mp
    (Nat.le_refl _)

theorem powerOfTen_digitCount_le {natural : Nat} (positive : 0 < natural) :
    powerOfTen (digitCount natural - 1) ≤ natural := by
  cases isCount : digitCount natural - 1 with
  | zero => exact positive
  | succ count =>
    refine Nat.not_lt.mp fun less => ?_
    have short : digitCount natural ≤ count + 1 :=
      (Nat.length_toDigits_le_iff (Nat.succ_lt_succ (Nat.succ_pos 8)) (Nat.succ_pos count)).mpr less
    omega

section

variable (value : Binary) (place : ℤ)

theorem denominator_pos : 0 < (value.inUnits place).2 :=
  Nat.mul_pos (powerOfTwo_pos _) (powerOfTen_pos _)

/-- The numerator over the denominator is the value in units of the power of ten. -/
theorem cast_inUnits :
    ((value.inUnits place).1 : ℚ) * 10 ^ place = value.exact * (value.inUnits place).2 := by
  rw [inUnits, Nat.cast_mul, Nat.cast_mul, Nat.cast_mul, cast_powerOfTwo_toNat value.exponent,
    cast_powerOfTen_toNat place, exact]
  ring

/-- The nearer grid point is at most half a unit away. -/
theorem neighbour_near :
    2 * (value.inUnits place).1 ≤
        2 * ((value.neighbours place).1 * (value.inUnits place).2) + (value.inUnits place).2 ∧
      2 * ((value.neighbours place).1 * (value.inUnits place).2) ≤
        2 * (value.inUnits place).1 + (value.inUnits place).2 := by
  have positive := value.denominator_pos place
  unfold neighbours
  generalize value.inUnits place = units at positive ⊢
  obtain ⟨numerator, denominator⟩ := units
  dsimp only at positive ⊢
  have whole := Nat.div_add_mod numerator denominator
  have small := Nat.mod_lt numerator positive
  rw [Nat.mul_comm] at whole
  split
  · next nearBelow =>
    rw [Bool.or_eq_true, decide_eq_true_eq, Bool.and_eq_true, beq_iff_eq] at nearBelow
    dsimp only
    omega
  · next nearAbove =>
    rw [Bool.or_eq_true, decide_eq_true_eq, Bool.and_eq_true, beq_iff_eq, not_or] at nearAbove
    dsimp only
    rw [Nat.add_mul, Nat.one_mul]
    omega

/-- The nearest decimal of a grid is at most half a unit of the grid away. -/
theorem abs_neighbour_sub_le :
    |(Decimal.mk (value.neighbours place).1 place).exact - value.exact| ≤ 10 ^ place / 2 := by
  have denominator : (0 : ℚ) < (value.inUnits place).2 :=
    Nat.cast_pos.mpr (value.denominator_pos place)
  have unit : (0 : ℚ) < 10 ^ place := by positivity
  have units := value.cast_inUnits place
  obtain ⟨below, above⟩ := value.neighbour_near place
  rw [← Nat.cast_le (α := ℚ)] at below above
  push_cast at below above
  have near :
      |((value.neighbours place).1 * (value.inUnits place).2 : ℚ) - (value.inUnits place).1| ≤
        (value.inUnits place).2 / 2 :=
    abs_le.mpr ⟨by linarith, by linarith⟩
  have scaled : ((value.neighbours place).1 * 10 ^ place - value.exact) * (value.inUnits place).2 =
      ((value.neighbours place).1 * (value.inUnits place).2 - (value.inUnits place).1) *
        10 ^ place := by
    rw [sub_mul, ← units]
    ring
  rw [Decimal.exact]
  refine le_of_mul_le_mul_right ?_ denominator
  calc |(value.neighbours place).1 * 10 ^ place - value.exact| * (value.inUnits place).2
      = |((value.neighbours place).1 * (value.inUnits place).2 : ℚ) - (value.inUnits place).1| *
          10 ^ place := by
        rw [← abs_of_pos denominator, ← abs_mul, abs_of_pos denominator, scaled, abs_mul,
          abs_of_pos unit]
    _ ≤ (value.inUnits place).2 / 2 * 10 ^ place := mul_le_mul_of_nonneg_right near unit.le
    _ = 10 ^ place / 2 * (value.inUnits place).2 := by ring

/-- The first digit of a positive value stands at most at the place where the value begins. -/
theorem leadingPlace_le (positive : 0 < value.significand) :
    10 ^ value.leadingPlace ≤ value.exact := by
  have begins : 0 < (value.inUnits 0).1 :=
    Nat.mul_pos (Nat.mul_pos positive (powerOfTwo_pos _)) (powerOfTen_pos _)
  have ends := value.denominator_pos 0
  have units := value.cast_inUnits 0
  rw [zpow_zero, mul_one] at units
  unfold leadingPlace
  generalize value.inUnits 0 = fraction at begins ends units ⊢
  obtain ⟨numerator, denominator⟩ := fraction
  dsimp only at begins ends units ⊢
  have denominatorPositive : (0 : ℚ) < denominator := Nat.cast_pos.mpr ends
  refine le_of_mul_le_mul_right ?_ denominatorPositive
  rw [← units]
  split
  · next large =>
    have few := powerOfTen_digitCount_le (Nat.div_pos large ends)
    have counted : (digitCount (numerator / denominator) : ℤ) - 1 =
        (digitCount (numerator / denominator) - 1 : Nat) :=
      (Nat.cast_sub (digitCount_pos _)).symm
    rw [counted, zpow_natCast, ← cast_powerOfTen, ← Nat.cast_mul, Nat.cast_le]
    exact (Nat.le_div_iff_mul_le ends).mp few
  · next small =>
    have many := lt_powerOfTen_digitCount ((denominator - 1) / numerator)
    rw [Nat.div_lt_iff_lt_mul begins] at many
    have power : (0 : ℚ) < powerOfTen (digitCount ((denominator - 1) / numerator)) :=
      Nat.cast_pos.mpr (powerOfTen_pos _)
    rw [zpow_neg, zpow_natCast, ← cast_powerOfTen, inv_mul_le_iff₀ power, ← Nat.cast_mul,
      Nat.cast_le]
    omega

end

/-- A decimal that differs from a double by less than a part in twice `10 ^ 16` is in its reach. -/
theorem reaches_of_close {value : Binary} (isDouble : value.IsDouble) {number : ℚ}
    (close : |number - value.exact| * (2 * 10 ^ 16) ≤ value.exact) : value.Reaches number := by
  have unit : (0 : ℚ) < 2 ^ (value.exponent - 2) := by positivity
  have quarters : value.exact = 4 * value.significand * 2 ^ (value.exponent - 2) := by
    rw [exact, zpow_sub₀ two_ne_zero]
    ring
  have few : value.significand < value.quartersBelow * (5 * 10 ^ 15) := by
    have small := isDouble.small
    unfold quartersBelow
    split
    · next isPower =>
      rw [beq_iff_eq.mp (Bool.and_eq_true_iff.mp isPower).1]
      decide
    · exact small.trans (by decide)
  have closer : |number - value.exact| < value.quartersBelow * 2 ^ (value.exponent - 2) := by
    refine lt_of_mul_lt_mul_right (close.trans_lt ?_) (by norm_num : (0 : ℚ) ≤ 2 * 10 ^ 16)
    have cast : (value.significand : ℚ) < value.quartersBelow * (5 * 10 ^ 15) := by
      exact_mod_cast few
    calc value.exact = value.significand * (4 * 2 ^ (value.exponent - 2)) := by
          rw [quarters]
          ring
      _ < value.quartersBelow * (5 * 10 ^ 15) * (4 * 2 ^ (value.exponent - 2)) :=
        mul_lt_mul_of_pos_right cast (by positivity)
      _ = value.quartersBelow * 2 ^ (value.exponent - 2) * (2 * 10 ^ 16) := by ring
  obtain ⟨below, above⟩ := abs_lt.mp closer
  have atMostTwo : (value.quartersBelow : ℚ) * 2 ^ (value.exponent - 2) ≤
      2 * 2 ^ (value.exponent - 2) :=
    mul_le_mul_of_nonneg_right (by exact_mod_cast value.quartersBelow_le) unit.le
  refine reaches_of_inside ?_ ?_
  · rw [lowerEnd, sub_mul, ← quarters]
    linarith
  · rw [upperEnd, add_mul, ← quarters]
    linarith

/-- The shortest decimal of a positive double is read back as the double. -/
theorem isNearestTo_shortest {value : Binary} (isDouble : value.IsDouble)
    (positive : 0 < value.significand) : value.isNearestTo value.shortest = true := by
  unfold shortest
  dsimp only
  cases found : (List.range 16).findSome? fun more : Nat =>
      value.readable? (value.leadingPlace - more) with
  | some decimal =>
    obtain ⟨more, -, read⟩ := List.exists_of_findSome?_eq_some found
    exact List.find?_some read
  | none =>
    -- No decimal with fewer digits is read back, and seventeen digits are close enough.
    rw [Option.getD_none, isNearestTo_iff positive]
    refine reaches_of_close isDouble ?_
    have units : (10 : ℚ) ^ (value.leadingPlace - ((17 : Nat) - 1)) / 2 * (2 * 10 ^ 16) =
        10 ^ value.leadingPlace := by
      rw [zpow_sub₀ (by norm_num)]
      norm_num
      ring
    calc |(value.rounded 17).exact - value.exact| * (2 * 10 ^ 16)
        ≤ 10 ^ (value.leadingPlace - ((17 : Nat) - 1)) / 2 * (2 * 10 ^ 16) :=
          mul_le_mul_of_nonneg_right (value.abs_neighbour_sub_le _) (by norm_num)
      _ = 10 ^ value.leadingPlace := units
      _ ≤ value.exact := value.leadingPlace_le positive

variable {value : Binary}

theorem reaches_shortest (isDouble : value.IsDouble) (positive : 0 < value.significand) :
    value.Reaches value.shortest.exact :=
  (isNearestTo_iff positive _).mp (isNearestTo_shortest isDouble positive)

theorem coefficient_shortest_pos (isDouble : value.IsDouble) (positive : 0 < value.significand) :
    0 < value.shortest.coefficient := by
  refine Nat.pos_of_ne_zero fun isZero => ?_
  have number := (reaches_shortest isDouble positive).pos positive
  rw [Decimal.exact, isZero, Nat.cast_zero, zero_mul] at number
  exact lt_irrefl 0 number

/-- Doubles are the same if their shortest decimals are the same number. -/
theorem eq_of_shortest (isFirst : first.IsDouble) (isSecond : second.IsDouble)
    (firstPositive : 0 < first.significand) (secondPositive : 0 < second.significand)
    (same : first.shortest.exact = second.shortest.exact) : first = second := by
  have reached := reaches_shortest isFirst firstPositive
  rw [same] at reached
  exact eq_of_reaches isFirst isSecond firstPositive secondPositive reached
    (reaches_shortest isSecond secondPositive)

end Binary

end DirectionField
