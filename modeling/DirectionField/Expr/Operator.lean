/-
This file holds the operators of expressions: the two signs, the five operators between two
operands, their symbols, how strongly they bind, and what they compute.
-/

namespace DirectionField

/-! ### Signs -/

/-- The sign in front of an operand. -/
inductive Sign
  | plus
  | minus
deriving DecidableEq, Repr, Inhabited

namespace Sign

/-- How a sign is written. -/
def symbol : Sign → String
  | plus => "+"
  | minus => "-"

/-- A plus leaves its operand as it is. -/
def apply : Sign → Float → Float
  | plus, operand => operand
  | minus, operand => -operand

end Sign

/-! ### Operators -/

/-- An operator between two operands. -/
inductive Operator
  | add
  | subtract
  | multiply
  | divide
  | power
deriving DecidableEq, Repr, Inhabited

namespace Operator

/-- How an operator is written. -/
def symbol : Operator → String
  | add => "+"
  | subtract => "-"
  | multiply => "*"
  | divide => "/"
  | power => "^"

/-- Operators of greater strength take their operands first. -/
def strength : Operator → Nat
  | add | subtract => 1
  | multiply | divide => 2
  | power => 3

/-- Powers group to the right, all other operators to the left. -/
def groupsRight : Operator → Bool
  | power => true
  | _ => false

/-- Whether an operator that follows the right operand of another one belongs to that operand. -/
def yieldsTo (operator next : Operator) : Bool :=
  operator.strength < next.strength || (next.strength == operator.strength && next.groupsRight)

/-- A power. The exponents of a reciprocal, a square root and a square are left to the division, the
root and the product, each of which is correctly rounded. So half a power of a negative number is
no number, even if the number is infinite. -/
def raise (base exponent : Float) : Float :=
  if exponent == -1.0 then 1.0 / base
  else if exponent == 0.5 then base.sqrt
  else if exponent == 2.0 then base * base
  else base.pow exponent

/-- What an operator computes. -/
def apply : Operator → Float → Float → Float
  | add, left, right => left + right
  | subtract, left, right => left - right
  | multiply, left, right => left * right
  | divide, left, right => left / right
  | power, left, right => raise left right

end Operator

end DirectionField
