/-
This file reads numbers. A numeral is a run of digits with at most one period. The number texts
that the user types as settings allow more: blank ends, a sign, an exponent, digits of any script,
a separator between two digits, and the names of infinity and of what is not a number.
-/

import DirectionField.Text.Blank
import DirectionField.Text.Digit

namespace DirectionField

/-! ### Exact values -/

/-- The natural number with the given decimal digits. -/
def naturalOfDigits (digits : List Char) : Nat :=
  digits.foldl (fun natural digit => 10 * natural + (digit.toNat - '0'.toNat)) 0

/-- The double nearest to `coefficient * 10 ^ exponent`. -/
def doubleOfDecimal (coefficient : Nat) (exponent : Int) : Float :=
  if 0 ≤ exponent then
    OfScientific.ofScientific coefficient false exponent.toNat
  else
    OfScientific.ofScientific coefficient true (-exponent).toNat

/-! ### Numerals -/

/-- Digits, perhaps a period, and after a period perhaps more digits. -/
structure Numeral where
  whole : List Char
  fraction : Option (List Char)
deriving DecidableEq, Repr, Inhabited

namespace Numeral

/-- All digits of a numeral. -/
def digits (numeral : Numeral) : List Char :=
  numeral.whole ++ numeral.fraction.getD []

/-- The characters of a numeral. -/
def characters (numeral : Numeral) : List Char :=
  match numeral.fraction with
  | none => numeral.whole
  | some fraction => numeral.whole ++ '.' :: fraction

/-- The double nearest to a numeral times a power of ten. -/
def value (numeral : Numeral) (exponent : Int) : Float :=
  doubleOfDecimal (naturalOfDigits numeral.digits) (exponent - (numeral.fraction.getD []).length)

/-- Take the longest numeral from the front of a text. -/
def takeFront (text : List Char) : Numeral × List Char :=
  let whole := text.takeWhile Char.isDigit
  match text.dropWhile Char.isDigit with
  | '.' :: rest => (⟨whole, some (rest.takeWhile Char.isDigit)⟩, rest.dropWhile Char.isDigit)
  | rest => (⟨whole, none⟩, rest)

/-- The front numeral and the rest make up the text. -/
theorem takeFront_append (text : List Char) :
    (takeFront text).1.characters ++ (takeFront text).2 = text := by
  unfold takeFront
  split
  · next rest found =>
    have together := List.takeWhile_append_dropWhile (p := Char.isDigit) (l := rest)
    have whole := List.takeWhile_append_dropWhile (p := Char.isDigit) (l := text)
    rw [found] at whole
    simp only [characters, List.append_assoc, List.cons_append, together]
    exact whole
  · exact List.takeWhile_append_dropWhile

end Numeral

/-! ### Number texts -/

/-- Remove each separator that stands between two digits. -/
def withoutSeparators : List Char → List Char
  | first :: '_' :: second :: rest =>
    if first.isDigit && second.isDigit then
      first :: withoutSeparators (second :: rest)
    else
      first :: withoutSeparators ('_' :: second :: rest)
  | first :: rest => first :: withoutSeparators rest
  | [] => []

/-- Split a sign off the front of a text; the flag tells whether it is a minus. -/
def splitSign : List Char → Bool × List Char
  | '-' :: rest => (true, rest)
  | '+' :: rest => (false, rest)
  | text => (false, text)

/-- The exponent that a text after a numeral gives: zero if the text is empty, and otherwise the
letter `e`, an optional sign and digits. -/
def exponentOf? : List Char → Option Int
  | [] => some 0
  | letter :: rest =>
    let (negative, digits) := splitSign rest
    if letter.toLower = 'e' ∧ digits ≠ [] ∧ digits.all Char.isDigit then
      let natural := naturalOfDigits digits
      some (if negative then -(natural : Int) else natural)
    else
      none

/-- The value of a number text without sign, separators or blank ends. -/
def unsignedNumber? (text : List Char) : Option Float :=
  let word := String.ofList (text.map Char.toLower)
  if word = "inf" ∨ word = "infinity" then
    some (1.0 / 0.0)
  else if word = "nan" then
    some (0.0 / 0.0)
  else
    let (numeral, rest) := Numeral.takeFront text
    if numeral.digits = [] then
      none
    else
      (exponentOf? rest).map numeral.value

/-- The double that a number text stands for. -/
def number? (text : String) : Option Float :=
  let plain := withoutSeparators (withPlainDigits (stripBlanks text.toList))
  let (negative, rest) := splitSign plain
  (unsignedNumber? rest).map fun number => if negative then -number else number

example : number? " 1_0.5e1 " = some 105.0 ∧ number? "1__0" = none := by decide +kernel

end DirectionField
