/-
This file holds the domain of a field: the rectangle between two values of each coordinate, in
either order.
-/

import DirectionField.Number.Written

namespace DirectionField

/-- The rectangle from `x0` to `x1` and from `y0` to `y1`. -/
structure Domain where
  x0 : Float
  x1 : Float
  y0 : Float
  y1 : Float
deriving DecidableEq, Repr, Inhabited

namespace Domain

/-- A field can be drawn over a domain that is finite and has a width and a height. -/
def isUsable (domain : Domain) : Bool :=
  domain.x0.isFinite && domain.x1.isFinite && domain.y0.isFinite && domain.y1.isFinite &&
    domain.x0 != domain.x1 && domain.y0 != domain.y1

example : isUsable ⟨1.0, -1.0, 0.0, 2.0⟩ = true ∧ isUsable ⟨0.0, -0.0, 0.0, 1.0⟩ = false ∧
    isUsable ⟨0.0, 1.0, -1.0 / 0.0, 0.0⟩ = false := by decide +kernel

/-- The two ends of an interval. -/
def intervalText (first last : Float) : String :=
  "[" ++ numberText first ++ ", " ++ numberText last ++ "]"

/-- The message about a domain that is not usable. -/
def complaint (domain : Domain) : String :=
  "Invalid domain " ++ intervalText domain.x0 domain.x1 ++ " x " ++
    intervalText domain.y0 domain.y1

/-- The value of `x` halfway across. -/
def middleX (domain : Domain) : Float :=
  (domain.x0 + domain.x1) / 2.0

/-- The value of `y` halfway up. -/
def middleY (domain : Domain) : Float :=
  (domain.y0 + domain.y1) / 2.0

end Domain

end DirectionField
