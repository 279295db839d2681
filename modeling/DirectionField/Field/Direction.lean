/-
This file turns a vector into its direction, the vector of length one that points the same way. The
zero vector has no direction and stays as it is.
-/

import DirectionField.Number.Nearest

namespace DirectionField

/-- A pair of components. -/
structure Direction where
  u : Float
  v : Float
deriving DecidableEq, Repr, Inhabited

/-! ### Lengths -/

/-- The length of a vector by the sum of its squares, which is exact: the double nearest to its
root. Lengths are usually promised to within one unit in the last place, so that a neighbour of this
double is another length that may be met. A vector with an infinite component is infinitely long,
whatever the other one is. -/
def lengthBySquares (u v : Float) : Float :=
  match magnitudeOf u, magnitudeOf v with
  | .infinite _, _ | _, .infinite _ => 1.0 / 0.0
  | .finite _ first, .finite _ second => (first.sumOfSquares second).nearestRoot
  | _, _ => 0.0 / 0.0

/-- The length of a vector by the ratio of its components. Each step is rounded, so that the length
may be off by one unit. -/
def lengthByRatio (u v : Float) : Float :=
  let (size, other) := if u.abs < v.abs then (v.abs, u.abs) else (u.abs, v.abs)
  let ratio := other / size
  size * (1.0 + ratio * ratio).sqrt

/-- Whether both components of a vector are closer to zero than a bound. -/
def isWithin (bound u v : Float) : Bool :=
  u.abs < bound && v.abs < bound

/-- The size from which on a vector is not short. -/
def shortSize : Float := 1e-150

/-- The power of two by which a short vector is lengthened before its length is computed, so that
the length is rounded as that of any other vector: `2 ^ 600`. -/
def lengthening : Float := 4.149515568880993e180

/-- The least size, `2 ^ -1024`, at which a length is found by squares. The components of smaller
vectors have lost digits themselves, and their lengths are found by ratios. -/
def leastSquaredSize : Float := 5.562684646268003e-309

/-- The length of a short vector. It is shortened again at the end. -/
def lengthOfShort (u v : Float) : Float :=
  if u == 0.0 && v == 0.0 then
    0.0
  else if isWithin leastSquaredSize u v then
    lengthByRatio u v
  else
    lengthBySquares (u * lengthening) (v * lengthening) / lengthening

/-- The length of a vector. -/
def lengthOf (u v : Float) : Float :=
  if isWithin shortSize u v then lengthOfShort u v else lengthBySquares u v

/-! ### Directions -/

/-- The direction of a vector. -/
def directionOf (u v : Float) : Direction :=
  let length := lengthOf u v
  if length != 0.0 then ⟨u / length, v / length⟩ else ⟨0.0, 0.0⟩

end DirectionField
