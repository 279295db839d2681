/-
This file proves that the text of a double determines the double. The text of a decimal has the
exact value of the decimal, in either layout of its digits. So two doubles with the same text are
read back from the same number, which only one double is.

What is not a number and the infinities have texts without a value, and the sign of a double is the
first character of its text.
-/

import DirectionField.Number.Written
import DirectionField.Proofs.Numerals
import DirectionField.Proofs.Shortest

namespace DirectionField

/-! ### The fields of a double -/

section

variable {first second number : Float} {negative : Bool} {value : Binary}

/-- What the sign, the biased exponent and the fraction of a double are, told by what the double
stands for. -/
def Magnitude.HasFields (sign : Bool) (biased fraction : Nat) : Magnitude → Prop
  | undefined => biased = 2047 ∧ fraction ≠ 0
  | infinite negative => sign = negative ∧ biased = 2047 ∧ fraction = 0
  | finite negative value =>
    value.IsDouble ∧ sign = negative ∧
      biased = (if value.significand < powerOfTwo 52 then 0 else (value.exponent + 1075).toNat) ∧
        fraction = value.significand % powerOfTwo 52

theorem hasFields_magnitudeOf (number : Float) :
    (magnitudeOf number).HasFields (number.toBits.toNat / powerOfTwo 63 == 1)
      (number.toBits.toNat / powerOfTwo 52 % powerOfTwo 11)
      (number.toBits.toNat % powerOfTwo 52) := by
  have fraction := Nat.mod_lt number.toBits.toNat (powerOfTwo_pos 52)
  have double : powerOfTwo 53 = 2 * powerOfTwo 52 := powerOfTwo_succ 52
  unfold magnitudeOf
  dsimp only
  split
  · next isLast =>
    split
    · next isZero => exact ⟨rfl, isLast, isZero⟩
    · next nonzero => exact ⟨isLast, nonzero⟩
  · split
    · next isLowest =>
      refine ⟨⟨?_, Int.le_refl _, fun different => absurd rfl different⟩, rfl, ?_, ?_⟩
      · dsimp only
        omega
      · rw [if_pos fraction]
        exact isLowest
      · exact (Nat.mod_eq_of_lt fraction).symm
    · refine ⟨⟨?_, ?_, fun _ => Nat.le_add_right ..⟩, rfl, ?_, ?_⟩
      · dsimp only
        omega
      · dsimp only
        omega
      · rw [if_neg (Nat.not_lt.mpr (Nat.le_add_right ..))]
        dsimp only
        omega
      · rw [Nat.add_mod_left, Nat.mod_eq_of_lt fraction]

/-- A finite magnitude is one as doubles have it. -/
theorem isDouble_of_magnitudeOf (isFinite : magnitudeOf number = .finite negative value) :
    value.IsDouble := by
  have fields := hasFields_magnitudeOf number
  rw [isFinite] at fields
  exact fields.1

section

open Float.Model.UnpackedFloat

variable (bits : BitVec Float.Model.Format.binary64.numBits)

theorem toNat_unpackExponent :
    (unpackExponent bits).toNat = bits.toNat / powerOfTwo 52 % powerOfTwo 11 := by
  rw [unpackExponent, BitVec.toNat_cast, BitVec.extractLsb_toNat, Nat.shiftRight_eq_div_pow]
  rfl

theorem toNat_unpackMantissa : (unpackMantissa bits).toNat = bits.toNat % powerOfTwo 52 := by
  rw [unpackMantissa, BitVec.toNat_cast, BitVec.extractLsb_toNat]
  rfl

/-- There is only one double that is not a number. -/
theorem toBits_of_undefined (undefined : magnitudeOf number = .undefined) :
    number.toBits.toBitVec = packedNaN .binary64 := by
  have fields := hasFields_magnitudeOf number
  rw [undefined] at fields
  obtain ⟨exponent, fraction⟩ := fields
  refine number.toModel.valid.eq_packedNaN (BitVec.eq_of_toNat_eq ?_) fun isZero => fraction ?_
  · rw [toNat_unpackExponent]
    exact exponent
  · have mantissa := congrArg BitVec.toNat isZero
    rw [toNat_unpackMantissa] at mantissa
    exact mantissa

end

theorem eq_of_toBits (same : first.toBits = second.toBits) : first = second := by
  obtain ⟨⟨bits, valid⟩⟩ := first
  obtain ⟨⟨otherBits, otherValid⟩⟩ := second
  cases same
  rfl

/-- A double is determined by its three fields. -/
theorem eq_of_fields
    (sameSign : (first.toBits.toNat / powerOfTwo 63 == 1) =
      (second.toBits.toNat / powerOfTwo 63 == 1))
    (sameExponent : first.toBits.toNat / powerOfTwo 52 % powerOfTwo 11 =
      second.toBits.toNat / powerOfTwo 52 % powerOfTwo 11)
    (sameFraction : first.toBits.toNat % powerOfTwo 52 = second.toBits.toNat % powerOfTwo 52) :
    first = second := by
  have bound : first.toBits.toNat < powerOfTwo 64 := first.toBits.toNat_lt
  have otherBound : second.toBits.toNat < powerOfTwo 64 := second.toBits.toNat_lt
  refine eq_of_toBits (UInt64.toNat_inj.mp ?_)
  rw [Bool.eq_iff_iff, beq_iff_eq, beq_iff_eq] at sameSign
  rw [show powerOfTwo 64 = 18446744073709551616 from rfl] at bound otherBound
  rw [show powerOfTwo 63 = 9223372036854775808 from rfl] at sameSign
  rw [show powerOfTwo 52 = 4503599627370496 from rfl] at sameExponent sameFraction
  rw [show powerOfTwo 11 = 2048 from rfl] at sameExponent
  omega

/-- A double is determined by what it stands for. -/
theorem magnitudeOf_inj (same : magnitudeOf first = magnitudeOf second) : first = second := by
  have fields := hasFields_magnitudeOf first
  have otherFields := hasFields_magnitudeOf second
  rw [← same] at otherFields
  cases magnitude : magnitudeOf first with
  | undefined =>
    refine eq_of_toBits (UInt64.toBitVec_inj.mp ?_)
    rw [toBits_of_undefined magnitude, toBits_of_undefined (same.symm.trans magnitude)]
  | infinite negative =>
    rw [magnitude] at fields otherFields
    obtain ⟨sign, exponent, fraction⟩ := fields
    obtain ⟨otherSign, otherExponent, otherFraction⟩ := otherFields
    exact eq_of_fields (sign.trans otherSign.symm) (exponent.trans otherExponent.symm)
      (fraction.trans otherFraction.symm)
  | finite negative value =>
    rw [magnitude] at fields otherFields
    obtain ⟨-, sign, exponent, fraction⟩ := fields
    obtain ⟨-, otherSign, otherExponent, otherFraction⟩ := otherFields
    exact eq_of_fields (sign.trans otherSign.symm) (exponent.trans otherExponent.symm)
      (fraction.trans otherFraction.symm)

end

/-! ### Digits -/

/-- Digits in a row: the front ones count as many times more as there are digits after them. -/
theorem naturalOfDigits_append (front back : List Char) :
    naturalOfDigits (front ++ back) =
      naturalOfDigits front * powerOfTen back.length + naturalOfDigits back := by
  show Nat.ofDigitChars 10 (front ++ back) 0 = _
  rw [Nat.ofDigitChars_append, Nat.ofDigitChars_eq_ofDigitChars_zero, Nat.mul_comm]
  rfl

theorem naturalOfDigits_zeros (count : Nat) : naturalOfDigits (List.replicate count '0') = 0 :=
  Nat.ofDigitChars_replicate_zero

theorem naturalOfDigits_toDigits (natural : Nat) :
    naturalOfDigits (Nat.toDigits 10 natural) = natural :=
  Nat.ofDigitChars_ten_toDigits

theorem isDigit_of_mem_toDigits (natural : Nat) :
    ∀ digit ∈ Nat.toDigits 10 natural, digit.isDigit = true :=
  fun _ member => Nat.isDigit_of_mem_toDigits (Nat.succ_pos 9) (Nat.le_refl 10) member

theorem isDigit_of_mem_zeros (count : Nat) :
    ∀ digit ∈ List.replicate count '0', digit.isDigit = true := by
  intro digit member
  rw [List.eq_of_mem_replicate member]
  rfl

namespace Decimal

variable (decimal : Decimal)

/-- The digits of the coefficient are the digits without the zeros at their end, and these zeros. -/
theorem exists_zeros : ∃ zeros, Nat.toDigits 10 decimal.coefficient =
    decimal.digits ++ List.replicate zeros '0' := by
  let reversed := (Nat.toDigits 10 decimal.coefficient).reverse
  have split : reversed.takeWhile (· == '0') ++ reversed.dropWhile (· == '0') = reversed :=
    List.takeWhile_append_dropWhile
  have zeros : reversed.takeWhile (· == '0') =
      List.replicate (reversed.takeWhile (· == '0')).length '0' := by
    refine List.eq_replicate_iff.mpr ⟨rfl, fun digit member => ?_⟩
    have isZero := of_mem_takeWhile member
    exact beq_iff_eq.mp isZero
  refine ⟨(reversed.takeWhile (· == '0')).length, ?_⟩
  have back := congrArg List.reverse split
  rw [List.reverse_append, zeros, List.reverse_replicate, List.reverse_reverse] at back
  exact back.symm

theorem isDigit_of_mem_digits : ∀ digit ∈ decimal.digits, digit.isDigit = true := by
  obtain ⟨zeros, whole⟩ := decimal.exists_zeros
  intro digit member
  refine isDigit_of_mem_toDigits decimal.coefficient digit ?_
  rw [whole]
  exact List.mem_append_left _ member

/-- Zeros at the end of a coefficient count as a power of ten. -/
theorem exact_shift (coefficient zeros : Nat) (place : ℤ) :
    (Decimal.mk (coefficient * powerOfTen zeros) place).exact =
      (Decimal.mk coefficient (place + zeros)).exact := by
  rw [exact, exact, zpow_add₀ (by norm_num), zpow_natCast, Nat.cast_mul, cast_powerOfTen]
  ring

/-- A decimal is its digits, as an integer, times the power of ten of the last one. -/
theorem exact_eq_digits : decimal.exact = (Decimal.mk (naturalOfDigits decimal.digits)
    (decimal.leadingPlace + 1 - decimal.digits.length)).exact := by
  obtain ⟨zeros, whole⟩ := decimal.exists_zeros
  have coefficient : decimal.coefficient = naturalOfDigits decimal.digits * powerOfTen zeros := by
    rw [← naturalOfDigits_toDigits decimal.coefficient, whole, naturalOfDigits_append,
      naturalOfDigits_zeros, List.length_replicate]
    rfl
  have count : decimal.leadingPlace + 1 - decimal.digits.length = decimal.place + zeros := by
    rw [leadingPlace, digitCount, whole, List.length_append, List.length_replicate]
    omega
  rw [count, ← exact_shift, ← coefficient]

end Decimal

/-! ### The exact value of a text -/

/-- The exact value of a number text without a sign, if it has one. -/
def exactValue? (text : List Char) : Option ℚ :=
  let (numeral, rest) := Numeral.takeFront text
  (exponentOf? rest).map fun exponent =>
    (Decimal.mk (naturalOfDigits numeral.digits)
      (exponent - (numeral.fraction.getD []).length)).exact

section

variable {whole fraction rest digits : List Char} {exponent : ℤ}

theorem exactValue?_whole (areDigits : ∀ digit ∈ whole, digit.isDigit = true)
    (ends : ∀ next, rest.head? = some next → next.isDigit = false ∧ next ≠ '.')
    (isExponent : exponentOf? rest = some exponent) :
    exactValue? (whole ++ rest) = some (Decimal.mk (naturalOfDigits whole) exponent).exact := by
  rw [exactValue?, takeFront_whole areDigits ends]
  dsimp only
  rw [isExponent, Option.map_some, Numeral.digits, Option.getD_none, List.append_nil,
    List.length_nil, Nat.cast_zero, sub_zero]

theorem exactValue?_fraction (wholeDigits : ∀ digit ∈ whole, digit.isDigit = true)
    (fractionDigits : ∀ digit ∈ fraction, digit.isDigit = true)
    (ends : ∀ next, rest.head? = some next → next.isDigit = false)
    (isExponent : exponentOf? rest = some exponent) :
    exactValue? (whole ++ '.' :: fraction ++ rest) =
      some (Decimal.mk (naturalOfDigits (whole ++ fraction))
        (exponent - fraction.length)).exact := by
  rw [exactValue?, takeFront_fraction wholeDigits fractionDigits ends]
  dsimp only
  rw [isExponent, Option.map_some, Numeral.digits, Option.getD_some]

/-- The exponent of a scientific form is read back. -/
theorem exponentOf?_exponentText (exponent : ℤ) :
    exponentOf? ('e' :: exponentText exponent) = some exponent := by
  let digits := (Nat.toDigits 10 exponent.natAbs).leftpad 2 '0'
  have padded : digits = List.replicate (2 - digitCount exponent.natAbs) '0' ++
    Nat.toDigits 10 exponent.natAbs := rfl
  have nonempty : digits ≠ [] := by
    rw [padded]
    exact List.append_ne_nil_of_right_ne_nil _ Nat.toDigits_ne_nil
  have areDigits : digits.all Char.isDigit = true := by
    rw [padded, List.all_append, List.all_eq_true.mpr (isDigit_of_mem_zeros _),
      List.all_eq_true.mpr (isDigit_of_mem_toDigits _)]
    rfl
  have natural : naturalOfDigits digits = exponent.natAbs := by
    rw [padded, naturalOfDigits_append, naturalOfDigits_zeros, naturalOfDigits_toDigits,
      Nat.zero_mul, Nat.zero_add]
  have sign : splitSign (exponentText exponent) = (decide (exponent < 0), digits) := by
    unfold exponentText
    split
    · next negative => rw [splitSign, decide_eq_true negative]
    · next nonnegative => rw [splitSign, decide_eq_false nonnegative]
  rw [exponentOf?, sign]
  dsimp only
  rw [if_pos ⟨rfl, nonempty, areDigits⟩, natural]
  split
  · next negative =>
    have isNegative := of_decide_eq_true negative
    rw [Int.ofNat_natAbs_of_nonpos isNegative.le, neg_neg]
  · next nonnegative =>
    rw [Int.natAbs_of_nonneg (not_lt.mp (mt decide_eq_true nonnegative))]

theorem exactValue?_scientificText (areDigits : ∀ digit ∈ digits, digit.isDigit = true)
    (nonempty : digits ≠ []) (leading : ℤ) :
    exactValue? (scientificText digits leading) =
      some (Decimal.mk (naturalOfDigits digits) (leading + 1 - digits.length)).exact := by
  have ends (next : Char) (front : ('e' :: exponentText leading).head? = some next) :
      next.isDigit = false ∧ next ≠ '.' := by
    cases front
    decide
  have isExponent := exponentOf?_exponentText leading
  match digits with
  | [] => exact absurd rfl nonempty
  | [first] =>
    have place : leading + 1 - [first].length = leading := by
      rw [List.length_singleton]
      omega
    have read := exactValue?_whole areDigits ends isExponent
    rw [place]
    exact read
  | first :: second :: others =>
    have place : leading + 1 - (first :: second :: others).length =
        leading - (second :: others).length := by
      rw [List.length_cons]
      omega
    obtain ⟨firstDigit, otherDigits⟩ := List.forall_mem_cons.mp areDigits
    have read := exactValue?_fraction (List.forall_mem_singleton.mpr firstDigit) otherDigits
      (fun next front => (ends next front).1) isExponent
    rw [place]
    exact read

/-- A numeral with a fraction and nothing after it. -/
theorem exactValue?_point (wholeDigits : ∀ digit ∈ whole, digit.isDigit = true)
    (fractionDigits : ∀ digit ∈ fraction, digit.isDigit = true) :
    exactValue? (whole ++ '.' :: fraction) =
      some (Decimal.mk (naturalOfDigits (whole ++ fraction)) (0 - fraction.length)).exact := by
  rw [← List.append_nil (whole ++ '.' :: fraction)]
  exact exactValue?_fraction wholeDigits fractionDigits nofun rfl

/-- Digits behind the point, with zeros in front of them. -/
theorem exactValue?_zeros (areDigits : ∀ digit ∈ digits, digit.isDigit = true) (zeros : Nat) :
    exactValue? ('0' :: '.' :: List.replicate zeros '0' ++ digits) =
      some (Decimal.mk (naturalOfDigits digits) (-zeros - digits.length)).exact := by
  have place : 0 - ((List.replicate zeros '0' ++ digits).length : ℤ) = -zeros - digits.length := by
    rw [List.length_append, List.length_replicate]
    omega
  have natural : naturalOfDigits (['0'] ++ (List.replicate zeros '0' ++ digits)) =
      naturalOfDigits digits := by
    have isZero : naturalOfDigits ['0'] = 0 := naturalOfDigits_zeros 1
    rw [naturalOfDigits_append, naturalOfDigits_append, isZero, naturalOfDigits_zeros]
    omega
  have read := exactValue?_point (List.forall_mem_singleton.mpr (rfl : '0'.isDigit = true))
    (List.forall_mem_append.mpr ⟨isDigit_of_mem_zeros zeros, areDigits⟩)
  rw [place, natural] at read
  exact read

/-- Digits of which some are in front of the point, with zeros up to the point and behind it where
there are no digits. -/
theorem exactValue?_padded (areDigits : ∀ digit ∈ digits, digit.isDigit = true) (size : Nat) :
    exactValue? ((digits.take size).rightpad size '0' ++ '.' :: (digits.drop size).rightpad 1 '0') =
      some (Decimal.mk (naturalOfDigits digits) (size - digits.length)).exact := by
  have wholeDigits : ∀ digit ∈ (digits.take size).rightpad size '0', digit.isDigit = true :=
    List.forall_mem_append.mpr
      ⟨fun digit member => areDigits digit (List.mem_of_mem_take member), isDigit_of_mem_zeros _⟩
  have fractionDigits : ∀ digit ∈ (digits.drop size).rightpad 1 '0', digit.isDigit = true :=
    List.forall_mem_append.mpr
      ⟨fun digit member => areDigits digit (List.mem_of_mem_drop member), isDigit_of_mem_zeros _⟩
  rw [exactValue?_point wholeDigits fractionDigits, List.rightpad, List.rightpad]
  rcases Nat.lt_or_ge size digits.length with longer | shorter
  · -- There are digits on both sides of the point, and no zeros.
    have noWholeZeros : size - (digits.take size).length = 0 := by
      rw [List.length_take]
      omega
    have noFractionZeros : 1 - (digits.drop size).length = 0 := by
      rw [List.length_drop]
      omega
    have place : 0 - ((digits.drop size).length : ℤ) = size - digits.length := by
      rw [List.length_drop]
      omega
    rw [noWholeZeros, noFractionZeros, List.replicate_zero, List.append_nil, List.append_nil,
      List.take_append_drop, place]
  · -- All digits are in front of the point, and the zeros count as a power of ten.
    have natural :
        naturalOfDigits (digits ++ List.replicate (size - digits.length) '0' ++ ['0']) =
          naturalOfDigits digits * powerOfTen (size - digits.length + 1) := by
      rw [List.append_assoc, ← List.replicate_succ', naturalOfDigits_append,
        naturalOfDigits_zeros, List.length_replicate, Nat.add_zero]
    have place : 0 - ((['0'] : List Char).length : ℤ) + ((size - digits.length + 1 : Nat) : ℤ) =
        size - digits.length := by
      rw [List.length_singleton]
      omega
    rw [List.take_of_length_le shorter, List.drop_eq_nil_of_le shorter, List.nil_append,
      show 1 - ([] : List Char).length = 1 from rfl, List.replicate_one, natural,
      Decimal.exact_shift, place]

theorem exactValue?_positionalText (areDigits : ∀ digit ∈ digits, digit.isDigit = true)
    (leading : ℤ) :
    exactValue? (positionalText digits leading) =
      some (Decimal.mk (naturalOfDigits digits) (leading + 1 - digits.length)).exact := by
  unfold positionalText
  split
  · next negative =>
    have place : -((-leading - 1).toNat : ℤ) - digits.length = leading + 1 - digits.length := by
      omega
    rw [exactValue?_zeros areDigits, place]
  · next nonnegative =>
    have place : ((leading.toNat + 1 : Nat) : ℤ) - digits.length = leading + 1 - digits.length := by
      omega
    dsimp only
    rw [exactValue?_padded areDigits, place]

end

namespace Decimal

variable {decimal : Decimal}

theorem digits_ne_nil (positive : 0 < decimal.coefficient) : decimal.digits ≠ [] := by
  intro isNil
  obtain ⟨zeros, whole⟩ := decimal.exists_zeros
  have natural := naturalOfDigits_toDigits decimal.coefficient
  rw [whole, isNil, List.nil_append, naturalOfDigits_zeros] at natural
  exact positive.ne natural

/-- The text of a positive decimal has the exact value of the decimal. -/
theorem exactValue?_text (positive : 0 < decimal.coefficient) :
    exactValue? decimal.text = some decimal.exact := by
  rw [exact_eq_digits, text]
  split
  · exact exactValue?_positionalText decimal.isDigit_of_mem_digits _
  · exact exactValue?_scientificText decimal.isDigit_of_mem_digits (digits_ne_nil positive) _

/-- The text of a positive decimal begins with a digit. -/
theorem text_begins (positive : 0 < decimal.coefficient) :
    ∃ first rest, decimal.text = first :: rest ∧ first.isDigit = true := by
  have areDigits := decimal.isDigit_of_mem_digits
  unfold text positionalText scientificText
  cases isDigits : decimal.digits with
  | nil => exact absurd isDigits (digits_ne_nil positive)
  | cons first others =>
    have isDigit : first.isDigit = true :=
      areDigits first (isDigits ▸ List.mem_cons_self ..)
    split
    · split
      · exact ⟨'0', _, rfl, rfl⟩
      · exact ⟨first, _, rfl, isDigit⟩
    · cases others with
      | nil => exact ⟨first, _, rfl, isDigit⟩
      | cons second others => exact ⟨first, _, rfl, isDigit⟩

end Decimal

/-! ### The text of a double -/

namespace Magnitude

/-- What the text of a double has after its sign. -/
def body : Magnitude → List Char
  | undefined => ['n', 'a', 'n']
  | infinite _ => ['i', 'n', 'f']
  | finite _ value => if value.significand = 0 then ['0', '.', '0'] else value.shortest.text

/-- Whether the text of a double has a sign. -/
def isNegative : Magnitude → Bool
  | undefined => false
  | infinite negative | finite negative _ => negative

/-- The exact value that the text of a double has after its sign. -/
def textValue? : Magnitude → Option ℚ
  | undefined | infinite _ => none
  | finite _ value => some (if value.significand = 0 then 0 else value.shortest.exact)

end Magnitude

theorem toList_numberText (number : Float) : (numberText number).toList =
    if (magnitudeOf number).isNegative then '-' :: (magnitudeOf number).body
    else (magnitudeOf number).body := by
  unfold numberText textWith
  cases magnitudeOf number with
  | undefined => rfl
  | infinite _ | finite _ _ => exact String.toList_ofList

/-- After its sign the text of a double begins with a digit or with a letter. -/
theorem splitSign_body (number : Float) :
    splitSign (magnitudeOf number).body = (false, (magnitudeOf number).body) := by
  cases isMagnitude : magnitudeOf number with
  | undefined | infinite _ => rfl
  | finite negative value =>
    rw [Magnitude.body]
    split
    · rfl
    · next nonzero =>
      have positive := Nat.pos_of_ne_zero nonzero
      have isDouble := isDouble_of_magnitudeOf isMagnitude
      obtain ⟨first, rest, isText, isDigit⟩ :=
        Decimal.text_begins (Binary.coefficient_shortest_pos isDouble positive)
      rw [isText]
      exact splitSign_of_isDigit isDigit rest

/-- The text of a double is its sign and its body. -/
theorem splitSign_numberText (number : Float) : splitSign (numberText number).toList =
    ((magnitudeOf number).isNegative, (magnitudeOf number).body) := by
  rw [toList_numberText]
  split
  · next negative => rw [negative, splitSign]
  · next nonnegative => rw [splitSign_body, Bool.eq_false_iff.mpr nonnegative]

theorem exactValue?_body (number : Float) :
    exactValue? (magnitudeOf number).body = (magnitudeOf number).textValue? := by
  cases isMagnitude : magnitudeOf number with
  | undefined | infinite _ => rfl
  | finite negative value =>
    rw [Magnitude.body, Magnitude.textValue?]
    split
    · have isDigit : ∀ digit ∈ ['0'], digit.isDigit = true := List.forall_mem_singleton.mpr rfl
      have isZero : exactValue? (['0'] ++ '.' :: ['0'] ++ []) = some (Decimal.mk 0 (0 - 1)).exact :=
        exactValue?_fraction isDigit isDigit nofun rfl
      rw [Decimal.exact, Nat.cast_zero, zero_mul] at isZero
      exact isZero
    · next nonzero =>
      have isDouble := isDouble_of_magnitudeOf isMagnitude
      exact Decimal.exactValue?_text
        (Binary.coefficient_shortest_pos isDouble (Nat.pos_of_ne_zero nonzero))

/-- A finite magnitude is determined by the exact value of its text. -/
theorem eq_of_textValue? {negative otherNegative : Bool} {value other : Binary}
    (isDouble : value.IsDouble) (otherIsDouble : other.IsDouble)
    (same : (Magnitude.finite negative value).textValue? =
      (Magnitude.finite otherNegative other).textValue?) : value = other := by
  rw [Magnitude.textValue?, Magnitude.textValue?, Option.some.injEq] at same
  split at same
  · next isZero =>
    split at same
    · next otherIsZero =>
      cases value
      cases other
      exact congrArg₂ Binary.mk (isZero.trans otherIsZero.symm)
        ((isDouble.exponent_of_zero isZero).trans (otherIsDouble.exponent_of_zero otherIsZero).symm)
    · next otherNonzero =>
      have positive := Nat.pos_of_ne_zero otherNonzero
      exact absurd same ((Binary.reaches_shortest otherIsDouble positive).pos positive).ne
  · next nonzero =>
    have positive := Nat.pos_of_ne_zero nonzero
    split at same
    · exact absurd same ((Binary.reaches_shortest isDouble positive).pos positive).ne'
    · next otherNonzero =>
      exact Binary.eq_of_shortest isDouble otherIsDouble positive (Nat.pos_of_ne_zero otherNonzero)
        same

/-- What doubles stand for is determined by the signs and the bodies of their texts. -/
theorem Magnitude.eq_of_body {first second : Magnitude}
    (isDouble : ∀ negative value, first = finite negative value → value.IsDouble)
    (otherIsDouble : ∀ negative value, second = finite negative value → value.IsDouble)
    (sameSign : first.isNegative = second.isNegative) (sameBody : first.body = second.body)
    (sameValue : first.textValue? = second.textValue?) : first = second := by
  cases first with
  | undefined =>
    cases second with
    | undefined => rfl
    | infinite _ => cases sameBody
    | finite _ _ => cases sameValue
  | infinite negative =>
    cases second with
    | undefined => cases sameBody
    | infinite otherNegative => exact congrArg infinite sameSign
    | finite _ _ => cases sameValue
  | finite negative value =>
    cases second with
    | undefined | infinite _ => cases sameValue
    | finite otherNegative other =>
      exact congrArg₂ finite sameSign
        (eq_of_textValue? (isDouble _ _ rfl) (otherIsDouble _ _ rfl) sameValue)

/-- Doubles with the same text are the same. -/
theorem numberText_injective : Function.Injective numberText := by
  intro first second same
  have sameSplit : splitSign (numberText first).toList = splitSign (numberText second).toList := by
    rw [same]
  rw [splitSign_numberText, splitSign_numberText, Prod.mk.injEq] at sameSplit
  obtain ⟨sameSign, sameBody⟩ := sameSplit
  have sameValue := congrArg exactValue? sameBody
  rw [exactValue?_body, exactValue?_body] at sameValue
  exact magnitudeOf_inj (Magnitude.eq_of_body (fun _ _ => isDouble_of_magnitudeOf)
    (fun _ _ => isDouble_of_magnitudeOf) sameSign sameBody sameValue)

/-! ### The characters of a number text -/

/-- The characters that texts of doubles consist of: digits, points, exponents with their signs, and
the letters of what is no finite number. -/
def isNumberCharacter (character : Char) : Bool :=
  character.isDigit || ['.', 'e', '+', '-', 'n', 'a', 'i', 'f'].contains character

theorem isNumberCharacter_of_isDigit {digits : List Char}
    (areDigits : ∀ digit ∈ digits, digit.isDigit = true) :
    ∀ digit ∈ digits, isNumberCharacter digit = true := by
  intro digit member
  rw [isNumberCharacter, areDigits digit member, Bool.true_or]

theorem isNumberCharacter_exponentText (exponent : ℤ) :
    ∀ character ∈ exponentText exponent, isNumberCharacter character = true := by
  refine List.forall_mem_cons.mpr ⟨?_, List.forall_mem_append.mpr
    ⟨isNumberCharacter_of_isDigit (isDigit_of_mem_zeros _),
      isNumberCharacter_of_isDigit (isDigit_of_mem_toDigits _)⟩⟩
  split <;> rfl

theorem isNumberCharacter_text (decimal : Decimal) :
    ∀ character ∈ decimal.text, isNumberCharacter character = true := by
  have digits := isNumberCharacter_of_isDigit decimal.isDigit_of_mem_digits
  have zeros (count : Nat) := isNumberCharacter_of_isDigit (isDigit_of_mem_zeros count)
  unfold Decimal.text positionalText scientificText
  generalize decimal.digits = run at digits ⊢
  split
  · split
    · exact List.forall_mem_cons.mpr ⟨rfl, List.forall_mem_cons.mpr ⟨rfl,
        List.forall_mem_append.mpr ⟨zeros _, digits⟩⟩⟩
    · refine List.forall_mem_append.mpr ⟨List.forall_mem_append.mpr ⟨?_, zeros _⟩,
        List.forall_mem_cons.mpr ⟨rfl, List.forall_mem_append.mpr ⟨?_, zeros _⟩⟩⟩
      · exact fun digit member => digits digit (List.mem_of_mem_take member)
      · exact fun digit member => digits digit (List.mem_of_mem_drop member)
  · have exponent := isNumberCharacter_exponentText decimal.leadingPlace
    cases run with
    | nil => exact fun _ member => absurd member List.not_mem_nil
    | cons first others =>
      obtain ⟨isFirst, areOthers⟩ := List.forall_mem_cons.mp digits
      cases others with
      | nil => exact List.forall_mem_cons.mpr ⟨isFirst, List.forall_mem_cons.mpr ⟨rfl, exponent⟩⟩
      | cons second others =>
        exact List.forall_mem_cons.mpr ⟨isFirst, List.forall_mem_cons.mpr ⟨rfl,
          List.forall_mem_append.mpr ⟨areOthers, List.forall_mem_cons.mpr ⟨rfl, exponent⟩⟩⟩⟩

theorem isNumberCharacter_numberText (number : Float) :
    ∀ character ∈ (numberText number).toList, isNumberCharacter character = true := by
  have body : ∀ character ∈ (magnitudeOf number).body, isNumberCharacter character = true := by
    cases magnitudeOf number with
    | undefined | infinite _ => exact List.all_eq_true.mp rfl
    | finite negative value =>
      rw [Magnitude.body]
      split
      · exact List.all_eq_true.mp rfl
      · exact isNumberCharacter_text _
  rw [toList_numberText]
  split
  · exact List.forall_mem_cons.mpr ⟨rfl, body⟩
  · exact body

/-- The text of a double has no other characters. -/
theorem not_mem_numberText {character : Char} (isOther : isNumberCharacter character = false)
    (number : Float) : character ∉ (numberText number).toList := by
  intro member
  rw [isNumberCharacter_numberText number character member] at isOther
  cases isOther

end DirectionField
