/-
This file writes doubles. A number is written with the fewest digits that read back, positionally
while its first digit stands between the fourth decimal place and the sixteenth place before the
point, and in scientific form beyond.
-/

import DirectionField.Number.Decimal

namespace DirectionField

/-! ### Layout of digits -/

/-- The digits of a positive decimal without the zeros at their end. -/
def Decimal.digits (decimal : Decimal) : List Char :=
  ((Nat.toDigits 10 decimal.coefficient).reverse.dropWhile (· == '0')).reverse

/-- The place of the first digit of a positive decimal. -/
def Decimal.leadingPlace (decimal : Decimal) : Int :=
  decimal.place + digitCount decimal.coefficient - 1

/-- The exponent of a scientific form: a sign and at least two digits. -/
def exponentText (exponent : Int) : List Char :=
  (if exponent < 0 then '-' else '+') :: (Nat.toDigits 10 exponent.natAbs).leftpad 2 '0'

/-- Digits with a point after the first and an exponent; no point after a lone digit. -/
def scientificText (digits : List Char) (leading : Int) : List Char :=
  match digits with
  | [] => []
  | first :: [] => first :: 'e' :: exponentText leading
  | first :: rest => first :: '.' :: rest ++ 'e' :: exponentText leading

/-- Digits around a point, with at least one digit on each side of it. -/
def positionalText (digits : List Char) (leading : Int) : List Char :=
  if leading < 0 then
    '0' :: '.' :: List.replicate (-leading - 1).toNat '0' ++ digits
  else
    let size := leading.toNat + 1
    (digits.take size).rightpad size '0' ++ '.' :: (digits.drop size).rightpad 1 '0'

/-- The positional form serves numbers from `10 ^ -4` up to `10 ^ 16`, the scientific form all
others. -/
def Decimal.text (decimal : Decimal) : List Char :=
  if -4 ≤ decimal.leadingPlace ∧ decimal.leadingPlace < 16 then
    positionalText decimal.digits decimal.leadingPlace
  else
    scientificText decimal.digits decimal.leadingPlace

/-! ### The text of a double -/

/-- Write a double, given how its positive finite magnitudes are written. What is not a number has
no sign. -/
def textWith (positive : Binary → List Char) (number : Float) : String :=
  let signed (negative : Bool) (text : List Char) :=
    String.ofList (if negative then '-' :: text else text)
  match magnitudeOf number with
  | .undefined => "nan"
  | .infinite negative => signed negative ['i', 'n', 'f']
  | .finite negative value =>
    signed negative (if value.significand = 0 then ['0', '.', '0'] else positive value)

/-- The shortest text that reads back as the same double. -/
def numberText : Float → String :=
  textWith fun value => value.shortest.text

example : numberText (0.1 + 0.2) = "0.30000000000000004" := by decide +kernel

example : numberText 0.0001 = "0.0001" ∧ numberText 0.00001 = "1e-05" := by decide +kernel

example : numberText 1e15 = "1000000000000000.0" ∧ numberText 1e16 = "1e+16" := by decide +kernel

/-- An answer is written as an exact integer if it is one. -/
def answerText (number : Float) : String :=
  match integer? number with
  | some (.ofNat natural) => String.ofList (Nat.toDigits 10 natural)
  | some (.negSucc natural) => String.ofList ('-' :: Nat.toDigits 10 (natural + 1))
  | none => numberText number

example : answerText 1e16 = "10000000000000000" ∧ answerText (-0.0) = "0" := by decide +kernel

end DirectionField
