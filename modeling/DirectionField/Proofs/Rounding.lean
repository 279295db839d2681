/-
This file proves that roots are rounded to the nearest double. The core library rounds a significand
with two further bits: whether a half is reached, and whether there is more. Such a significand
tells between which halves of its unit a number lies, and it still does when it is shifted to a
coarser unit. So the rounded significand is the nearest integer in the unit of the result.

That makes it the nearest double. Doubles of the same or a greater unit are integers in this unit.
Those of a smaller unit are too small to be nearer, because the significand of the result is full
then.
-/

import DirectionField.Number.Nearest
import DirectionField.Proofs.Shortest
import Mathlib.Analysis.Real.Sqrt

namespace DirectionField

open Float.Model Float.Model.UnpackedFloat

/-! ### Numbers between halves -/

/-- What a significand with its two further bits tells about a number: which half it is, or between
which halves it lies. -/
def Describes (extended : ExtendedMantissa) (number : ℝ) : Prop :=
  let half : ℝ := extended.mantissa + if extended.roundBit then 1 / 2 else 0
  if extended.stickyBit then half < number ∧ number < half + 1 / 2 else number = half

namespace Describes

variable {extended : ExtendedMantissa} {number : ℝ}

theorem shiftRightOne (describes : Describes extended number) :
    Describes extended.shiftRightOne (number / 2) := by
  obtain ⟨significand, roundBit, stickyBit⟩ := extended
  have split : (significand : ℝ) = 2 * (significand / 2 : Nat) + (significand % 2 : Nat) := by
    exact_mod_cast (Nat.div_add_mod significand 2).symm
  unfold Describes at describes ⊢
  unfold ExtendedMantissa.shiftRightOne
  -- The last bit of the significand becomes the half, and the former half is only more.
  rcases Nat.mod_two_eq_zero_or_one significand with parity | parity <;> rw [parity] at split <;>
    cases roundBit <;> cases stickyBit <;>
    simp only [parity, split, Bool.false_eq_true, Bool.or_self, Bool.or_true, Bool.true_or,
      bne_self_eq_false, if_true, if_false, Nat.one_ne_zero, bne_iff_ne, ne_eq, not_false_eq_true,
      Nat.cast_one, Nat.cast_zero] at describes ⊢ <;>
    first | linarith | (constructor <;> linarith)

theorem shiftRight (describes : Describes extended number) (count : Nat) :
    Describes (extended >>> count) (number / 2 ^ count) := by
  show Describes (count.repeat ExtendedMantissa.shiftRightOne extended) _
  induction count with
  | zero => rwa [pow_zero, div_one]
  | succ fewer inductionHypothesis =>
    rw [pow_succ, ← div_div]
    exact inductionHypothesis.shiftRightOne

theorem mantissa_le (describes : Describes extended number) : extended.mantissa ≤ number := by
  unfold Describes at describes
  revert describes
  cases extended.roundBit <;> cases extended.stickyBit <;>
    simp only [Bool.false_eq_true, if_true, if_false] <;> intro describes <;> linarith

/-- The rounded significand is an integer next to the number. -/
theorem abs_sub_rounded_le (describes : Describes extended number) :
    |number - extended.roundedMantissa| ≤ 1 / 2 := by
  obtain ⟨significand, roundBit, stickyBit⟩ := extended
  unfold Describes at describes
  rw [abs_le]
  cases roundBit <;> cases stickyBit <;>
    simp only [Bool.false_eq_true, if_true, if_false, ExtendedMantissa.roundedMantissa,
      ExtendedMantissa.accuracy, Accuracy.roundToNearestEven] at describes ⊢
  · constructor <;> linarith
  · constructor <;> linarith
  · -- Halfway, the last bit decides.
    rcases Nat.mod_two_eq_zero_or_one significand with parity | parity <;> rw [parity] <;>
      push_cast <;> constructor <;> linarith
  · push_cast
    constructor <;> linarith

end Describes

theorem mantissa_shiftRight (extended : ExtendedMantissa) (count : Nat) :
    (extended >>> count).mantissa = extended.mantissa / 2 ^ count := by
  show (count.repeat ExtendedMantissa.shiftRightOne extended).mantissa = _
  induction count with
  | zero => exact (Nat.div_one _).symm
  | succ fewer inductionHypothesis =>
    show (fewer.repeat ExtendedMantissa.shiftRightOne extended).mantissa / 2 = _
    rw [inductionHypothesis, Nat.div_div_eq_div_mul, Nat.pow_succ]

theorem mantissa_le_rounded (extended : ExtendedMantissa) :
    extended.mantissa ≤ extended.roundedMantissa ∧
      extended.roundedMantissa ≤ extended.mantissa + 1 := by
  obtain ⟨significand, roundBit, stickyBit⟩ := extended
  have bit := Nat.mod_lt significand Nat.two_pos
  cases roundBit <;> cases stickyBit <;>
    simp only [ExtendedMantissa.roundedMantissa, ExtendedMantissa.accuracy,
      Accuracy.roundToNearestEven] <;> omega

/-! ### Nearest values -/

/-- No integer is nearer to a number than one that is at most a half away. -/
theorem abs_sub_le_of_near {number : ℝ} {nearest : Nat} (near : |number - nearest| ≤ 1 / 2)
    (other : Nat) : |number - nearest| ≤ |number - other| := by
  rcases eq_or_ne nearest other with rfl | different
  · exact le_rfl
  · have apart : (1 : ℝ) ≤ |(nearest : ℝ) - other| := by
      have integers : (1 : ℤ) ≤ |(nearest : ℤ) - other| := Int.one_le_abs (by omega)
      exact_mod_cast integers
    have between := abs_sub_le (nearest : ℝ) number other
    rw [abs_sub_comm (nearest : ℝ) number] at between
    linarith

namespace Binary

variable {value : Binary} {number : ℝ}

theorem cast_exact (value : Binary) :
    (value.exact : ℝ) = value.significand * 2 ^ value.exponent := by
  rw [exact]
  push_cast
  rfl

/-- No double is nearer to a number than a value. -/
def IsNearestOf (value : Binary) (number : ℝ) : Prop :=
  ∀ other : Binary, other.IsDouble → |number - value.exact| ≤ |number - other.exact|

/-- A value is a number rounded to an integer in a unit of doubles. The number is not below the
doubles of that unit, and may have been rounded up to the first one of the next unit. -/
structure IsRoundingOf (value : Binary) (number : ℝ) : Prop where
  near : |number / 2 ^ value.exponent - value.significand| ≤ 1 / 2
  small : value.significand ≤ 2 ^ 53
  lowest : -1074 ≤ value.exponent
  full : value.exponent ≠ -1074 →
    2 ^ 52 ≤ value.significand ∧ 2 ^ 52 ≤ number / 2 ^ value.exponent

/-- Doubles of a smaller unit have at most the value of the first one of the next unit. -/
theorem exact_div_le {other : Binary} (isDouble : other.IsDouble) {exponent : ℤ}
    (smaller : other.exponent < exponent) : (other.exact : ℝ) / 2 ^ exponent ≤ 2 ^ 52 := by
  have unit : (0 : ℝ) < 2 ^ exponent := by positivity
  have small : (other.significand : ℝ) ≤ 2 ^ 53 := by exact_mod_cast isDouble.small.le
  have halved : (2 : ℝ) ^ other.exponent ≤ 2 ^ (exponent - 1) :=
    zpow_le_zpow_right₀ one_le_two (by omega)
  rw [div_le_iff₀ unit, cast_exact]
  calc (other.significand : ℝ) * 2 ^ other.exponent ≤ 2 ^ 53 * 2 ^ (exponent - 1) :=
        mul_le_mul small halved (by positivity) (by positivity)
    _ = 2 ^ 52 * 2 ^ exponent := by
        rw [zpow_sub₀ two_ne_zero]
        ring

/-- Doubles of the same or a greater unit are integers in the unit. -/
theorem exists_exact_div_eq {other : Binary} {exponent : ℤ} (greater : exponent ≤ other.exponent) :
    ∃ units : Nat, (other.exact : ℝ) / 2 ^ exponent = units := by
  obtain ⟨gap, isGap⟩ : ∃ gap : Nat, other.exponent = gap + exponent :=
    ⟨(other.exponent - exponent).toNat, by omega⟩
  refine ⟨other.significand * 2 ^ gap, ?_⟩
  rw [cast_exact, isGap, zpow_add₀ two_ne_zero, zpow_natCast, ← mul_assoc,
    mul_div_cancel_right₀ _ (by positivity)]
  push_cast
  rfl

theorem IsRoundingOf.isNearestOf (rounding : value.IsRoundingOf number) :
    value.IsNearestOf number := by
  intro other isDouble
  have unit : (0 : ℝ) < 2 ^ value.exponent := by positivity
  have inUnits (exact : ℝ) : |number - exact| =
      |number / 2 ^ value.exponent - exact / 2 ^ value.exponent| * 2 ^ value.exponent := by
    rw [← sub_div, abs_div, abs_of_pos unit, div_mul_cancel₀ _ unit.ne']
  rw [inUnits, inUnits]
  refine mul_le_mul_of_nonneg_right ?_ unit.le
  rw [cast_exact, mul_div_cancel_right₀ _ unit.ne']
  rcases le_or_gt value.exponent other.exponent with greater | smaller
  · obtain ⟨units, isInteger⟩ := exists_exact_div_eq greater
    rw [isInteger]
    exact abs_sub_le_of_near rounding.near units
  · -- The number is not below the first double of the unit, and the other double not above it.
    have above : value.exponent ≠ -1074 := by
      have := isDouble.lowest
      omega
    have large := (rounding.full above).2
    have below := exact_div_le isDouble smaller
    have first := abs_sub_le_of_near rounding.near (2 ^ 52)
    rw [Nat.cast_pow, Nat.cast_ofNat, abs_of_nonneg (sub_nonneg.mpr large)] at first
    rw [abs_of_nonneg (sub_nonneg.mpr (below.trans large))]
    linarith

end Binary

/-! ### Rounding significands -/

theorem targetExponent_eq (significand : Nat) (exponent : ℤ) :
    Format.binary64.targetExponent (totalExponent significand exponent) =
      max (significand.log2 + exponent - 52) (-1074) := by
  show max ((significand.log2 : ℤ) + 1 + exponent - 53) (-1074) = _
  congr 1
  omega

/-- The number of bits that a significand has more than a double with the same value would have. -/
def surplus (significand : Nat) (exponent : ℤ) : Nat :=
  (max (significand.log2 + exponent - 52) (-1074) - exponent).toNat

section

variable {significand : Nat} {exponent : ℤ} {accuracy : Accuracy}

theorem shiftToTargetExponent_eq (significand : Nat) (exponent : ℤ) (accuracy : Accuracy) :
    shiftToTargetExponent .binary64 significand exponent accuracy =
      (ExtendedMantissa.ofMantissaAndAccuracy significand accuracy >>> surplus significand exponent,
        exponent + surplus significand exponent) := by
  rw [surplus, ← targetExponent_eq]
  rfl

theorem mantissa_ofMantissaAndAccuracy_shiftRight (significand : Nat) (accuracy : Accuracy)
    (count : Nat) :
    let extended := ExtendedMantissa.ofMantissaAndAccuracy significand accuracy
    (extended >>> count).mantissa = significand / 2 ^ count := by
  intro extended
  rw [mantissa_shiftRight]
  cases accuracy with
  | exact => rfl
  | inexact order => cases order <;> rfl

/-- A rounded significand that has reached the next unit is shifted to it, with the same value. -/
theorem exists_carried (small : significand ≤ 2 ^ 53) (lowest : -1074 ≤ exponent)
    (full : exponent ≠ -1074 → 2 ^ 52 ≤ significand) :
    let carried := shiftToTargetExponent .binary64 significand exponent .exact
    (Binary.mk carried.1.mantissa carried.2).IsDouble ∧
      (Binary.mk carried.1.mantissa carried.2).exact = (Binary.mk significand exponent).exact := by
  rw [shiftToTargetExponent_eq]
  dsimp only
  rw [mantissa_ofMantissaAndAccuracy_shiftRight]
  rcases Nat.lt_or_eq_of_le small with less | rfl
  · have bits : significand.log2 < 53 := by
      rcases Nat.eq_zero_or_pos significand with rfl | positive
      · decide
      · exact (Nat.log2_lt positive.ne').mpr less
    have none : surplus significand exponent = 0 := by
      unfold surplus
      omega
    rw [none, pow_zero, Nat.div_one, Nat.cast_zero, add_zero]
    exact ⟨⟨less, lowest, full⟩, rfl⟩
  · have one : surplus (2 ^ 53) exponent = 1 := by
      unfold surplus
      rw [Nat.log2_two_pow]
      omega
    rw [one, Nat.cast_one, show 2 ^ 53 / 2 ^ 1 = powerOfTwo 52 from rfl]
    refine ⟨⟨by exact Nat.pow_lt_pow_succ Nat.one_lt_two, ?_, fun _ => Nat.le_refl _⟩, ?_⟩
    · dsimp only
      omega
    · rw [Binary.exact, Binary.exact, cast_powerOfTwo, zpow_add₀ two_ne_zero]
      push_cast
      ring

/-- The double of a value. -/
def Binary.unpacked (value : Binary) : UnpackedFloat :=
  if zero : value.significand = 0 then .zero .positive
  else .finite .positive value.significand value.exponent (Nat.pos_of_ne_zero zero)

/-- A significand with a unit that is not too great is rounded to the nearest double. -/
theorem exists_rounded {number : ℝ} (positive : 0 < significand)
    (describes : Describes (.ofMantissaAndAccuracy significand accuracy) (number / 2 ^ exponent))
    (fine : exponent ≤ max (significand.log2 + exponent - 52) (-1074)) :
    ∃ value : Binary, value.IsDouble ∧ value.IsNearestOf number ∧
      roundWithAccuracy .binary64 .positive significand exponent accuracy = value.unpacked := by
  let count := surplus significand exponent
  let unit := exponent + count
  let extended := ExtendedMantissa.ofMantissaAndAccuracy significand accuracy >>> count
  have isUnit : unit = max (significand.log2 + exponent - 52) (-1074) := by
    show exponent + ((max _ _ - exponent).toNat : ℤ) = _
    omega
  have isSignificand : extended.mantissa = significand / 2 ^ count :=
    mantissa_ofMantissaAndAccuracy_shiftRight ..
  have shifted : Describes extended (number / 2 ^ unit) := by
    rw [zpow_add₀ two_ne_zero, zpow_natCast, ← div_div]
    exact describes.shiftRight count
  have below : extended.mantissa < 2 ^ 53 := by
    rw [isSignificand, Nat.div_lt_iff_lt_mul (by positivity), ← pow_add]
    exact Nat.lt_log2_self.trans_le (Nat.pow_le_pow_right Nat.two_pos (by omega))
  have above (higher : unit ≠ -1074) : 2 ^ 52 ≤ extended.mantissa := by
    rw [isSignificand, Nat.le_div_iff_mul_le (by positivity), ← pow_add]
    exact (Nat.pow_le_pow_right Nat.two_pos (by omega)).trans (Nat.log2_self_le positive.ne')
  have near := mantissa_le_rounded extended
  have rounding : (Binary.mk extended.roundedMantissa unit).IsRoundingOf number := by
    refine ⟨shifted.abs_sub_rounded_le, by dsimp only; omega, by dsimp only; omega,
      fun higher => ⟨(above higher).trans near.1, le_trans ?_ shifted.mantissa_le⟩⟩
    exact_mod_cast above higher
  obtain ⟨isDouble, same⟩ :=
    exists_carried rounding.small rounding.lowest fun higher => (rounding.full higher).1
  refine ⟨_, isDouble, ?_, ?_⟩
  · rw [Binary.IsNearestOf, same]
    exact rounding.isNearestOf
  · rw [roundWithAccuracy, shiftToTargetExponent_eq]
    rfl

end

/-! ### Packing -/

/-- What a positive double is by its two fields. -/
def ofFields (biased fraction : Nat) : Magnitude :=
  if biased = 2047 then if fraction = 0 then .infinite false else .undefined
  else if biased = 0 then .finite false ⟨fraction, -1074⟩
  else .finite false ⟨powerOfTwo 52 + fraction, biased - 1075⟩

theorem magnitudeOf_eq_ofFields {number : Float} {biased fraction : Nat}
    (bits : number.toBits.toNat = biased * powerOfTwo 52 + fraction)
    (isBiased : biased < powerOfTwo 11) (isFraction : fraction < powerOfTwo 52) :
    magnitudeOf number = ofFields biased fraction := by
  have front : (biased * powerOfTwo 52 + fraction) / powerOfTwo 52 = biased := by
    rw [Nat.mul_comm, Nat.mul_add_div (powerOfTwo_pos 52), Nat.div_eq_of_lt isFraction, Nat.add_zero]
  have back : (biased * powerOfTwo 52 + fraction) % powerOfTwo 52 = fraction := by
    rw [Nat.mul_comm, Nat.mul_add_mod, Nat.mod_eq_of_lt isFraction]
  have noSign : (biased * powerOfTwo 52 + fraction) / powerOfTwo 63 = 0 := by
    rw [show powerOfTwo 63 = powerOfTwo 52 * powerOfTwo 11 from rfl, ← Nat.div_div_eq_div_mul, front,
      Nat.div_eq_of_lt isBiased]
  unfold magnitudeOf
  rw [bits]
  dsimp only
  rw [front, back, noSign, Nat.mod_eq_of_lt isBiased]
  rfl

theorem toNat_packComponents (biased : BitVec 11) (fraction : BitVec 52) :
    (packComponents .binary64 .positive biased fraction).toNat =
      biased.toNat * powerOfTwo 52 + fraction.toNat := by
  show ((0#1 ++ biased) ++ fraction).toNat = _
  rw [BitVec.toNat_append, BitVec.toNat_append, ← Nat.shiftLeft_add_eq_or_of_lt fraction.isLt,
    Nat.shiftLeft_eq]
  show (0 <<< 11 ||| biased.toNat) * powerOfTwo 52 + _ = _
  rw [Nat.zero_shiftLeft, Nat.zero_or]

theorem magnitudeOf_packComponents {number : UnpackedFloat} {biased : BitVec 11}
    {fraction : BitVec 52} (packed : UnpackedFloat.pack .binary64 number =
      packComponents .binary64 .positive biased fraction) :
    magnitudeOf (.ofModel (.pack number)) = ofFields biased.toNat fraction.toNat := by
  refine magnitudeOf_eq_ofFields ?_ biased.isLt fraction.isLt
  rw [← toNat_packComponents, ← packed]
  rfl

namespace Binary

variable {value : Binary}

/-- A positive value is packed with a biased exponent and without the leading bit of its
significand, if it has all bits. -/
theorem pack_unpacked (nonzero : value.significand ≠ 0) :
    let biased := (value.exponent + 1075).toNat
    UnpackedFloat.pack .binary64 value.unpacked =
      if 2048 ≤ biased + 1 then packComponents .binary64 .positive (-1#11) 0
      else if value.significand.log2 + 1 = 53 then
        packComponents .binary64 .positive (.ofNat 11 biased) (.ofNat 52 value.significand)
      else packComponents .binary64 .positive 0 (.ofNat 52 value.significand) := by
  have isBiased : value.exponent + 1075 = value.exponent + (1023 : Nat) + (52 : Nat) := by omega
  rw [unpacked, dif_neg nonzero, isBiased]
  rfl

theorem magnitudeOf_normal (small : value.significand < powerOfTwo 53)
    (normal : powerOfTwo 52 ≤ value.significand) (lowest : -1074 ≤ value.exponent)
    (isFinite : value.exponent ≤ 971) :
    magnitudeOf (.ofModel (.pack value.unpacked)) = .finite false value := by
  have nonzero : value.significand ≠ 0 := (Nat.lt_of_lt_of_le (powerOfTwo_pos 52) normal).ne'
  have bits : value.significand.log2 + 1 = 53 := by
    rw [Nat.add_right_cancel_iff, Nat.log2_eq_iff nonzero]
    exact ⟨normal, small⟩
  have packed := pack_unpacked nonzero
  dsimp only at packed
  rw [if_neg (by omega), if_pos bits] at packed
  have isBiased : (BitVec.ofNat 11 (value.exponent + 1075).toNat).toNat =
      (value.exponent + 1075).toNat := Nat.mod_eq_of_lt (by omega)
  have isFraction : powerOfTwo 52 + (BitVec.ofNat 52 value.significand).toNat =
      value.significand := by
    show powerOfTwo 52 + value.significand % powerOfTwo 52 = value.significand
    rw [powerOfTwo_succ 52] at small
    rw [Nat.mod_eq_sub_mod normal, Nat.mod_eq_of_lt (by omega), Nat.add_sub_cancel' normal]
  have isExponent : ((value.exponent + 1075).toNat : ℤ) - 1075 = value.exponent := by omega
  rw [magnitudeOf_packComponents packed, isBiased, ofFields, if_neg (by omega), if_neg (by omega),
    isFraction, isExponent]

theorem magnitudeOf_subnormal (nonzero : value.significand ≠ 0)
    (subnormal : value.significand < powerOfTwo 52) (lowest : value.exponent = -1074) :
    magnitudeOf (.ofModel (.pack value.unpacked)) = .finite false value := by
  have bits : ¬value.significand.log2 + 1 = 53 := by
    rw [Nat.add_right_cancel_iff, Nat.log2_eq_iff nonzero]
    exact fun normal => absurd subnormal (Nat.not_lt.mpr normal.1)
  have packed := pack_unpacked nonzero
  dsimp only at packed
  rw [if_neg (by omega), if_neg bits] at packed
  have isFraction : (BitVec.ofNat 52 value.significand).toNat = value.significand :=
    Nat.mod_eq_of_lt subnormal
  rw [magnitudeOf_packComponents packed, isFraction]
  obtain ⟨significand, exponent⟩ := value
  cases lowest
  rfl

theorem magnitudeOf_beyond (nonzero : value.significand ≠ 0) (isBeyond : 971 < value.exponent) :
    magnitudeOf (.ofModel (.pack value.unpacked)) = .infinite false := by
  have packed := pack_unpacked nonzero
  dsimp only at packed
  rw [if_pos (by omega)] at packed
  rw [magnitudeOf_packComponents packed]
  rfl

/-- The double of a value stands for the value, unless its exponent is too great for a double. -/
theorem magnitudeOf_unpacked (isDouble : value.IsDouble) :
    magnitudeOf (.ofModel (.pack value.unpacked)) =
      if value.exponent ≤ 971 then .finite false value else .infinite false := by
  by_cases isZero : value.significand = 0
  · have isLowest := isDouble.exponent_of_zero isZero
    obtain ⟨significand, exponent⟩ := value
    cases isZero
    cases isLowest
    rfl
  · split
    · next isFinite =>
      by_cases normal : powerOfTwo 52 ≤ value.significand
      · exact magnitudeOf_normal isDouble.small normal isDouble.lowest isFinite
      · refine magnitudeOf_subnormal isZero (Nat.lt_of_not_le normal) ?_
        exact Classical.not_not.mp fun different => normal (isDouble.full different)
    · next isBeyond => exact magnitudeOf_beyond isZero (Int.lt_of_not_ge isBeyond)

end Binary

/-! ### Nearest doubles -/

/-- A double is the nearest one to a number that is not negative. It is infinite if the number is
beyond the greatest double by half a unit or more. -/
def IsNearest (double : Float) (number : ℝ) : Prop :=
  match magnitudeOf double with
  | .finite false value => value.IsNearestOf number
  | .infinite false => (2 ^ 54 - 1) * 2 ^ 970 ≤ number
  | _ => False

/-- If a value with a greater exponent is nearer than the greatest double, the number is beyond the
middle between them. -/
theorem le_of_isNearestOf_beyond {value : Binary} {number : ℝ} (isDouble : value.IsDouble)
    (nearest : value.IsNearestOf number) (isBeyond : 971 < value.exponent) :
    (2 ^ 54 - 1) * 2 ^ 970 ≤ number := by
  let greatest : Binary := ⟨2 ^ 53 - 1, 971⟩
  have nearer := nearest greatest ⟨by decide, by decide, fun _ => by decide⟩
  generalize isUnit : (2 : ℝ) ^ 970 = unit
  have positive : 0 < unit := isUnit ▸ pow_pos two_pos 970
  have isGreatest : (greatest.exact : ℝ) = (2 ^ 54 - 2) * unit := by
    rw [Binary.cast_exact]
    show ((2 ^ 53 - 1 : Nat) : ℝ) * 2 ^ ((970 : Nat) + 1 : ℤ) = _
    rw [zpow_add₀ two_ne_zero, zpow_natCast, isUnit]
    push_cast
    ring
  have beyond : 2 ^ 54 * unit ≤ value.exact := by
    have significand : (2 : ℝ) ^ 52 ≤ value.significand := by
      exact_mod_cast isDouble.full (by omega)
    have exponent : 4 * unit ≤ (2 : ℝ) ^ value.exponent := by
      have higher : (2 : ℝ) ^ ((970 : Nat) + 2 : ℤ) ≤ 2 ^ value.exponent :=
        zpow_le_zpow_right₀ one_le_two (by omega)
      rw [zpow_add₀ two_ne_zero, zpow_natCast, isUnit] at higher
      linarith
    rw [Binary.cast_exact]
    calc 2 ^ 54 * unit = 2 ^ 52 * (4 * unit) := by ring
      _ ≤ (value.significand : ℝ) * 2 ^ value.exponent :=
        mul_le_mul significand exponent (by positivity) (by positivity)
  clear isUnit
  rw [isGreatest] at nearer
  have below := neg_abs_le (number - value.exact)
  rcases abs_cases (number - (2 ^ 54 - 2) * unit) with ⟨isDistance, -⟩ | ⟨isDistance, -⟩ <;> linarith

theorem isNearest_of_isNearestOf {value : Binary} {number : ℝ} (isDouble : value.IsDouble)
    (nearest : value.IsNearestOf number) : IsNearest (.ofModel (.pack value.unpacked)) number := by
  unfold IsNearest
  rw [Binary.magnitudeOf_unpacked isDouble]
  by_cases isFinite : value.exponent ≤ 971
  · rw [if_pos isFinite]
    exact nearest
  · rw [if_neg isFinite]
    exact le_of_isNearestOf_beyond isDouble nearest (Int.lt_of_not_ge isFinite)

/-! ### Roots -/

/-- How the root of an integer relates to its integer root. -/
def rootAccuracy (radicand : Nat) : Accuracy :=
  let remainder := radicand - radicand.sqrt * radicand.sqrt
  if remainder = 0 then .exact else .inexact (if remainder ≤ radicand.sqrt then .lt else .gt)

theorem describes_root (radicand : Nat) :
    Describes (.ofMantissaAndAccuracy radicand.sqrt (rootAccuracy radicand)) √(radicand : ℝ) := by
  have square := Nat.sqrt_le radicand
  have nextSquare := Nat.lt_succ_sqrt radicand
  unfold rootAccuracy
  generalize radicand.sqrt = root at square nextSquare ⊢
  have nonnegative : (0 : ℝ) ≤ root := Nat.cast_nonneg root
  have below : √(radicand : ℝ) < root + 1 := by
    rw [Real.sqrt_lt' (by linarith), sq]
    exact_mod_cast nextSquare
  dsimp only
  split
  · next isSquare =>
    have exactly : (radicand : ℝ) = root * root := by
      have integers : radicand = root * root := by omega
      exact_mod_cast integers
    show √(radicand : ℝ) = root + 0
    rw [exactly, Real.sqrt_mul_self nonnegative, add_zero]
  · next notSquare =>
    -- The square of the middle is not an integer, so the remainder tells the sides apart.
    split
    · next small =>
      have more : (root : ℝ) * root < radicand := by
        have integers : root * root < radicand := by omega
        exact_mod_cast integers
      have within : (radicand : ℝ) ≤ root * root + root := by
        have integers : radicand ≤ root * root + root := by omega
        exact_mod_cast integers
      show (root : ℝ) + 0 < √(radicand : ℝ) ∧ √(radicand : ℝ) < root + 0 + 1 / 2
      rw [add_zero, Real.lt_sqrt nonnegative, Real.sqrt_lt' (by linarith)]
      constructor <;> nlinarith only [more, within]
    · next large =>
      have more : (root : ℝ) * root + root + 1 ≤ radicand := by
        have integers : root * root + root + 1 ≤ radicand := by omega
        exact_mod_cast integers
      show (root : ℝ) + 1 / 2 < √(radicand : ℝ) ∧ √(radicand : ℝ) < root + 1 / 2 + 1 / 2
      refine ⟨?_, by linarith⟩
      rw [Real.lt_sqrt (by linarith)]
      nlinarith only [more]

/-- The root of a number has half as many bits. -/
theorem log2_sqrt {radicand : Nat} (positive : 0 < radicand) :
    radicand.sqrt.log2 = radicand.log2 / 2 := by
  refine (Nat.log2_eq_iff (Nat.sqrt_pos.mpr positive).ne').mpr ⟨?_, ?_⟩
  · refine Nat.le_sqrt.mpr ?_
    rw [← pow_add]
    exact (Nat.pow_le_pow_right Nat.two_pos (by omega)).trans (Nat.log2_self_le positive.ne')
  · refine Nat.sqrt_lt.mpr ?_
    rw [← pow_add]
    exact Nat.lt_log2_self.trans_le (Nat.pow_le_pow_right Nat.two_pos (by omega))

theorem log2_mul_two_pow {significand : Nat} (positive : 0 < significand) (count : Nat) :
    (significand * 2 ^ count).log2 = significand.log2 + count := by
  refine (Nat.log2_eq_iff (Nat.mul_pos positive (by positivity)).ne').mpr ⟨?_, ?_⟩
  · rw [pow_add]
    exact Nat.mul_le_mul_right _ (Nat.log2_self_le positive.ne')
  · rw [Nat.add_right_comm, pow_add]
    exact Nat.mul_lt_mul_of_pos_right Nat.lt_log2_self (by positivity)

namespace Binary

/-- The exponent of the unit in which the root of a value is taken. -/
def rootExponent (value : Binary) : ℤ :=
  min (value.exponent / 2) (max ((value.significand.log2 + value.exponent) / 2 - 52) (-1074))

/-- A value in the square of the unit in which its root is taken. -/
def radicand (value : Binary) : Nat :=
  value.significand * 2 ^ (value.exponent - 2 * value.rootExponent).toNat

theorem sqrtCore_eq (value : Binary) :
    sqrtCore .binary64 value.significand value.exponent =
      (value.radicand.sqrt, value.rootExponent, rootAccuracy value.radicand) := by
  have isExponent : min (value.exponent.ediv 2) (Format.binary64.targetExponent
      ((totalExponent value.significand value.exponent + 1).ediv 2)) = value.rootExponent := by
    show min (value.exponent / 2)
      (max (((value.significand.log2 : ℤ) + 1 + value.exponent + 1) / 2 - 53) (-1074)) = _
    rw [rootExponent]
    congr 2
    omega
  rw [sqrtCore, isExponent, Nat.shiftLeft_eq]
  rfl

theorem sqrt_exact_div (value : Binary) :
    √(value.exact : ℝ) / 2 ^ value.rootExponent = √(value.radicand : ℝ) := by
  have unit : (0 : ℝ) < 2 ^ value.rootExponent := by positivity
  have fine : 2 * value.rootExponent ≤ value.exponent := by
    unfold rootExponent
    omega
  have square : (value.exact : ℝ) = value.radicand * (2 ^ value.rootExponent) ^ 2 := by
    rw [cast_exact, radicand, Nat.cast_mul, Nat.cast_pow, Nat.cast_ofNat, mul_assoc, ← zpow_natCast,
      ← zpow_natCast, ← zpow_mul, ← zpow_add₀ two_ne_zero]
    congr 2
    omega
  rw [square, Real.sqrt_mul (Nat.cast_nonneg _), Real.sqrt_sq unit.le,
    mul_div_cancel_right₀ _ unit.ne']

/-- Roots are rounded to the nearest double. -/
theorem isNearest_nearestRoot (value : Binary) :
    IsNearest value.nearestRoot √(value.exact : ℝ) := by
  by_cases positive : 0 < value.significand
  · have radicandPositive : 0 < value.radicand := Nat.mul_pos positive (by positivity)
    have describes := describes_root value.radicand
    rw [← sqrt_exact_div] at describes
    have fine : value.rootExponent ≤
        max (value.radicand.sqrt.log2 + value.rootExponent - 52) (-1074) := by
      rw [log2_sqrt radicandPositive, radicand, log2_mul_two_pow positive]
      unfold rootExponent
      omega
    obtain ⟨rounded, isDouble, nearest, isRounded⟩ :=
      exists_rounded (Nat.sqrt_pos.mpr radicandPositive) describes fine
    have isRoot : UnpackedFloat.sqrt .binary64
        (.finite .positive value.significand value.exponent positive) = rounded.unpacked := by
      rw [← isRounded]
      show (let (root, exponent, accuracy) := sqrtCore .binary64 value.significand value.exponent
        roundWithAccuracy .binary64 .positive root exponent accuracy) = _
      rw [sqrtCore_eq]
    rw [nearestRoot, dif_pos positive, isRoot]
    exact isNearest_of_isNearestOf isDouble nearest
  · have isZero : value.significand = 0 := Nat.eq_zero_of_not_pos positive
    rw [nearestRoot, dif_neg positive, cast_exact, isZero, Nat.cast_zero, zero_mul, Real.sqrt_zero]
    have isDouble : IsDouble ⟨0, -1074⟩ := ⟨by decide, by decide, by decide⟩
    refine isNearest_of_isNearestOf isDouble ?_
    intro other _
    rw [cast_exact, Nat.cast_zero, zero_mul, sub_zero, abs_zero]
    exact abs_nonneg _

end Binary

end DirectionField
