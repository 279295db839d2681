/-
This file draws a field: a guide through the middle of the domain in each direction, and for every
grid point a segment with a dot at its tip. A picture is complete or not drawn at all.
-/

import DirectionField.Field.Limits
import DirectionField.Field.Sampled

namespace DirectionField

/-! ### Pictures -/

/-- A segment from a grid point to the tip of its vector. -/
structure Segment where
  start : Position
  tip : Position
deriving DecidableEq, Repr, Inhabited

/-- What is drawn: the limits and labels of the axes, the title, the places of the vertical and the
horizontal guide, the segments, and the dots. -/
structure Picture where
  limits : Domain
  labels : String × String := ("x", "y")
  title : String := ""
  verticalGuide : Float
  horizontalGuide : Float
  segments : List Segment
  dots : List Position
deriving DecidableEq, Repr, Inhabited

/-! ### Drawing -/

/-- The length of one pixel times a component, along an axis from one value to another. -/
def drawnLength (canvas : Canvas) (component first last : Float) : Float :=
  component * canvas.radius * (last - first) / Float.ofInt canvas.size

/-- The segment of one grid point. -/
def segmentOf (canvas : Canvas) (domain : Domain) (start : Position) (direction : Direction) :
    Segment where
  start := start
  tip :=
    { x := start.x + drawnLength canvas direction.u domain.x0 domain.x1
      y := start.y + drawnLength canvas direction.v domain.y0 domain.y1 }

/-- The picture of a sampled field. -/
def pictureOf (canvas : Canvas) (domain : Domain) (field : SampledField) : Picture :=
  let segments := field.samples.map fun (start, direction) =>
    segmentOf canvas domain start direction
  { limits := domain.limits
    verticalGuide := domain.middleX
    horizontalGuide := domain.middleY
    segments := segments
    dots := segments.map (·.tip) }

/-- Check the domain, sample the field and draw it. -/
def draw {State : Type} (table : SymbolTable State) (canvas : Canvas) (components : Components)
    (domain : Domain) : Action State Picture := do
  if !domain.isUsable then
    throw (.unusableDomain domain)
  let field ← sample table canvas components domain
  return pictureOf canvas domain field

end DirectionField
