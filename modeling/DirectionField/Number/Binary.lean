/-
This file takes a double apart. A finite double is an exact fraction: an integer significand times
a power of two. What the library writes of a number, it computes from that fraction with integers.
-/

namespace DirectionField

/-! ### Powers -/

/-- A power of two. -/
def powerOfTwo (exponent : Nat) : Nat :=
  Nat.pow 2 exponent

/-- A power of ten. -/
def powerOfTen (exponent : Nat) : Nat :=
  Nat.pow 10 exponent

/-! ### The exact value of a double -/

/-- The magnitude `significand * 2 ^ exponent`. -/
structure Binary where
  significand : Nat
  exponent : Int
deriving DecidableEq, Repr, Inhabited

/-- What a double stands for: not a number, an infinity, or a finite value with a sign. -/
inductive Magnitude
  | undefined
  | infinite (negative : Bool)
  | finite (negative : Bool) (value : Binary)
deriving DecidableEq, Repr, Inhabited

/-- Take a double apart by its three fields: one bit of sign, eleven of exponent, and fifty-two
of fraction. The lowest exponent is that of the subnormal values, which have no implicit bit. -/
def magnitudeOf (number : Float) : Magnitude :=
  let bits : Nat := number.toBits.toNat
  let negative := bits / powerOfTwo 63 == 1
  let exponent : Nat := bits / powerOfTwo 52 % powerOfTwo 11
  let fraction : Nat := bits % powerOfTwo 52
  if exponent = 2047 then
    if fraction = 0 then .infinite negative else .undefined
  else if exponent = 0 then
    .finite negative ⟨fraction, -1074⟩
  else
    .finite negative ⟨powerOfTwo 52 + fraction, (exponent : Int) - 1075⟩

/-- The integer that a magnitude equals, if it is one. -/
def Binary.natural? (value : Binary) : Option Nat :=
  let unit := powerOfTwo (-value.exponent).toNat
  if value.significand % unit = 0 then
    some (value.significand / unit * powerOfTwo value.exponent.toNat)
  else
    none

/-- The integer that a double equals, if it is one. Both zeros equal `0`. -/
def integer? (number : Float) : Option Int :=
  match magnitudeOf number with
  | .finite negative value =>
    value.natural?.map fun natural => if negative then -(natural : Int) else natural
  | _ => none

end DirectionField
