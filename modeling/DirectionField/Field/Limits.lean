/-
This file chooses the limits of the axes of a picture. They are the ends of the domain, except that
an interval too short to be drawn is widened: there is no room for a scale between two doubles that
differ in their last digits only, nor among doubles that are zero for all a scale can tell.
-/

import DirectionField.Field.Domain

namespace DirectionField

/-! ### Intervals too short to be drawn -/

/-- The share of its own magnitude by which each end of a short interval is moved. It is also the
distance from zero of the ends of an interval of vanishing doubles. -/
def wideningShare : Float := 0.05

/-- An interval is short if it is no longer than this share of the greater magnitude of its ends. -/
def shortShare : Float := 1e-15

/-- Below this magnitude a double vanishes: a short interval of this magnitude would have a length
of less than a million times the smallest normal double, which is the last factor. -/
def vanishingMagnitude : Float :=
  1e6 / shortShare * 2.2250738585072014e-308

/-- The limits of an axis from a lower end to an upper one. -/
def widened (lower upper : Float) : Float × Float :=
  let magnitude := if lower.abs < upper.abs then upper.abs else lower.abs
  if magnitude < vanishingMagnitude then
    (-wideningShare, wideningShare)
  else if upper - lower <= magnitude * shortShare then
    (lower - wideningShare * lower.abs, upper + wideningShare * upper.abs)
  else
    (lower, upper)

/-! ### Limits of the axes -/

/-- The limits of an axis from one value to another, which keeps its direction. -/
def axisLimits (first last : Float) : Float × Float :=
  if last < first then (widened last first).swap else widened first last

/-- The rectangle between the limits of both axes. -/
def Domain.limits (domain : Domain) : Domain :=
  let (x0, x1) := axisLimits domain.x0 domain.x1
  let (y0, y1) := axisLimits domain.y0 domain.y1
  ⟨x0, x1, y0, y1⟩

example : Domain.limits ⟨5.0, -5.0, 1.0, 1.0000000000000002⟩ =
    ⟨5.0, -5.0, 0.95, 1.0500000000000003⟩ := by decide +kernel

end DirectionField
