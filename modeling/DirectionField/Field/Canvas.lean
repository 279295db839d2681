/-
This file holds the canvas: its size and the diameter that each vector has on it. They decide how
many grid points there are in a row, and how long the vectors are drawn.
-/

import DirectionField.Number.Nearest

namespace DirectionField

/-- The size of the canvas and the diameter of a vector, in pixels. -/
structure Canvas where
  size : Int := 600
  diameter : Int := 20
deriving DecidableEq, Repr, Inhabited

namespace Canvas

/-- The number of whole diameters in the size of the canvas, rounded down. -/
def steps (canvas : Canvas) : Int :=
  canvas.size.fdiv canvas.diameter

/-- The number of grid points in a row, if it were an allowed number. -/
def points (canvas : Canvas) : Int :=
  canvas.steps + 1

/-- The length of a drawn vector, in pixels: two more than half its diameter. -/
def radius (canvas : Canvas) : Float :=
  halfOf canvas.diameter + 2.0

end Canvas

end DirectionField
