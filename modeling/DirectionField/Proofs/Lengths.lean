/-
This file proves what the length of a vector is: the double nearest to the root of the sum of the
squares. The sum is exact, and only the root is rounded. Zero vectors, infinite ones and such as
have a component that is not a number are told apart by their components alone. Short vectors, whose
lengths take further steps, are told apart by the sizes of their components.
-/

import DirectionField.Field.Direction
import DirectionField.Proofs.NumberTexts
import DirectionField.Proofs.Rounding

namespace DirectionField

/-! ### Sums of squares -/

/-- A value is an integer in any unit that is not greater than its own. -/
theorem Binary.exact_eq_units {value : Binary} {exponent : ℤ} (fine : exponent ≤ value.exponent) :
    value.exact =
      ((value.significand * powerOfTwo (value.exponent - exponent).toNat : Nat) : ℚ) *
        2 ^ exponent := by
  rw [Nat.cast_mul, cast_powerOfTwo, ← zpow_natCast, Int.toNat_of_nonneg (by omega), mul_assoc,
    ← zpow_add₀ two_ne_zero, Int.sub_add_cancel, exact]

theorem Binary.exact_sumOfSquares (first second : Binary) :
    (first.sumOfSquares second).exact = first.exact ^ 2 + second.exact ^ 2 := by
  rw [exact_eq_units (Int.min_le_left first.exponent second.exponent),
    exact_eq_units (Int.min_le_right first.exponent second.exponent), exact, sumOfSquares]
  dsimp only
  generalize min first.exponent second.exponent = exponent
  generalize first.significand * powerOfTwo (first.exponent - exponent).toNat = units
  generalize second.significand * powerOfTwo (second.exponent - exponent).toNat = others
  rw [mul_comm (2 : ℤ), zpow_mul, zpow_ofNat]
  push_cast
  ring

/-! ### Lengths by squares -/

/-- What a double is as the root of the sum of the squares of two others: the nearest one. If one of
the two is infinite, so is the root, whatever the other one is. -/
structure IsRootOfSquares (u v root : Float) : Prop where
  infinite : ∀ negative, magnitudeOf u = .infinite negative ∨ magnitudeOf v = .infinite negative →
    root = 1.0 / 0.0
  undefined : magnitudeOf u = .undefined ∨ magnitudeOf v = .undefined →
    (∀ negative, magnitudeOf u ≠ .infinite negative ∧ magnitudeOf v ≠ .infinite negative) →
      root = 0.0 / 0.0
  nearest : ∀ negative first otherNegative second, magnitudeOf u = .finite negative first →
    magnitudeOf v = .finite otherNegative second →
      IsNearest root √((first.exact : ℝ) ^ 2 + (second.exact : ℝ) ^ 2)

theorem isRootOfSquares_lengthBySquares (u v : Float) :
    IsRootOfSquares u v (lengthBySquares u v) where
  infinite negative isInfinite := by
    rw [lengthBySquares]
    rcases isInfinite with uInfinite | vInfinite
    · rw [uInfinite]
    · rw [vInfinite]
      cases magnitudeOf u <;> rfl
  undefined isUndefined notInfinite := by
    rw [lengthBySquares]
    cases first : magnitudeOf u with
    | infinite negative => exact absurd first (notInfinite negative).1
    | undefined =>
      cases second : magnitudeOf v with
      | infinite negative => exact absurd second (notInfinite negative).2
      | undefined | finite _ _ => rfl
    | finite _ _ =>
      cases second : magnitudeOf v with
      | infinite negative => exact absurd second (notInfinite negative).2
      | undefined => rfl
      | finite _ _ =>
        rw [first, second] at isUndefined
        rcases isUndefined with isFirst | isSecond
        · cases isFirst
        · cases isSecond
  nearest negative first otherNegative second isFirst isSecond := by
    have root := (first.sumOfSquares second).isNearest_nearestRoot
    rw [Binary.exact_sumOfSquares] at root
    push_cast at root
    rw [lengthBySquares, isFirst, isSecond]
    exact root

/-! ### Lengths of all vectors -/

/-- What a double is as the length of a vector. Most lengths are roots of squares. Short vectors are
lengthened by `2 ^ 600` for that. Only the shortest ones, below `2 ^ -1024`, have lengths by the
ratio of their components. -/
structure IsLength (u v length : Float) : Prop where
  zero : u == 0.0 → v == 0.0 → length = 0.0
  long : ¬(u.abs < 1e-150 ∧ v.abs < 1e-150) → IsRootOfSquares u v length
  short : u.abs < 1e-150 → v.abs < 1e-150 →
    ¬(u.abs < 5.562684646268003e-309 ∧ v.abs < 5.562684646268003e-309) →
      ∃ root, IsRootOfSquares (u * 4.149515568880993e180) (v * 4.149515568880993e180) root ∧
        length = root / 4.149515568880993e180
  shortest : u.abs < 1e-150 → v.abs < 1e-150 → ¬(u == 0.0 ∧ v == 0.0) →
    u.abs < 5.562684646268003e-309 → v.abs < 5.562684646268003e-309 →
      let size := if u.abs < v.abs then v.abs else u.abs
      let other := if u.abs < v.abs then u.abs else v.abs
      length = size * (1.0 + other / size * (other / size)).sqrt

theorem abs_of_isZero {number : Float} (isZero : number == 0.0) : number.abs = 0.0 := by
  have equal : (number.toModel.unpack.compare (.zero .positive) == some .eq) = true := isZero
  show Float.ofModel (.pack number.toModel.unpack.abs) = _
  cases unpacked : number.toModel.unpack with
  | zero sign => rfl
  | notANumber =>
    rw [unpacked] at equal
    cases equal
  | infinity sign | finite sign =>
    rw [unpacked] at equal
    cases sign <;> cases equal

section

variable {u v bound : Float}

theorem isWithin_iff : isWithin bound u v = true ↔ u.abs < bound ∧ v.abs < bound := by
  rw [isWithin, Bool.and_eq_true_iff, decide_eq_true_iff, decide_eq_true_iff]

theorem isWithin_of_isZero (positive : 0.0 < bound) (uZero : u == 0.0) (vZero : v == 0.0) :
    isWithin bound u v = true := by
  rw [isWithin_iff, abs_of_isZero uZero, abs_of_isZero vZero]
  exact ⟨positive, positive⟩

theorem lengthOf_of_short (uShort : u.abs < 1e-150) (vShort : v.abs < 1e-150) :
    lengthOf u v = lengthOfShort u v :=
  if_pos (isWithin_iff.mpr ⟨uShort, vShort⟩)

theorem lengthOf_of_isZero (uZero : u == 0.0) (vZero : v == 0.0) : lengthOf u v = 0.0 := by
  have isShort : isWithin shortSize u v = true := isWithin_of_isZero (by decide +kernel) uZero vZero
  exact (if_pos isShort).trans (if_pos (Bool.and_eq_true_iff.mpr ⟨uZero, vZero⟩))

theorem lengthOfShort_of_not_isZero (notZero : ¬(u == 0.0 ∧ v == 0.0)) :
    lengthOfShort u v =
      if isWithin leastSquaredSize u v then lengthByRatio u v
      else lengthBySquares (u * lengthening) (v * lengthening) / lengthening :=
  if_neg (mt Bool.and_eq_true_iff.mp notZero)

theorem lengthByRatio_eq (u v : Float) :
    let size := if u.abs < v.abs then v.abs else u.abs
    let other := if u.abs < v.abs then u.abs else v.abs
    lengthByRatio u v = size * (1.0 + other / size * (other / size)).sqrt := by
  unfold lengthByRatio
  split <;> rfl

theorem isLength_lengthOf (u v : Float) : IsLength u v (lengthOf u v) where
  zero := lengthOf_of_isZero
  long notShort := by
    rw [show lengthOf u v = lengthBySquares u v from if_neg (mt isWithin_iff.mp notShort)]
    exact isRootOfSquares_lengthBySquares u v
  short uShort vShort notShortest := by
    have notZero : ¬(u == 0.0 ∧ v == 0.0) := fun ⟨uZero, vZero⟩ =>
      notShortest (isWithin_iff.mp (isWithin_of_isZero (by decide +kernel) uZero vZero))
    refine ⟨_, isRootOfSquares_lengthBySquares _ _, ?_⟩
    rw [lengthOf_of_short uShort vShort, lengthOfShort_of_not_isZero notZero]
    exact if_neg (mt isWithin_iff.mp notShortest)
  shortest uShort vShort notZero uShortest vShortest := by
    have isShortest : isWithin leastSquaredSize u v = true :=
      isWithin_iff.mpr ⟨uShortest, vShortest⟩
    rw [lengthOf_of_short uShort vShort, lengthOfShort_of_not_isZero notZero, if_pos isShortest]
    exact lengthByRatio_eq u v

end

end DirectionField
