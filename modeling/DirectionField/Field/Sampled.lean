/-
This file samples a field: both component expressions are evaluated at every grid point, row by
row, and every vector is turned into its direction.
-/

import DirectionField.Console
import DirectionField.Field.Canvas
import DirectionField.Field.Direction
import DirectionField.Field.Grid

namespace DirectionField

/-! ### Sampled fields -/

/-- The two component expressions of a field. -/
structure Components where
  xfunc : Expr
  yfunc : Expr
deriving Repr, Inhabited

/-- A field on a grid: the coordinates of its columns and of its rows, and the directions row by
row. -/
structure SampledField where
  xs : List Float
  ys : List Float
  directions : List (List Direction)
deriving DecidableEq, Repr, Inhabited

/-- A point of the plane. -/
structure Position where
  x : Float
  y : Float
deriving DecidableEq, Repr, Inhabited

/-- All grid points with their directions, row by row. -/
def SampledField.samples (field : SampledField) : List (Position × Direction) :=
  (field.ys.zip field.directions).flatMap fun (y, row) =>
    (field.xs.zip row).map fun (x, direction) => (⟨x, y⟩, direction)

/-! ### Sampling -/

section

variable {State : Type}

/-- The number of grid points in a row. -/
def pointCount (canvas : Canvas) : Except Failure Nat :=
  if canvas.diameter = 0 then
    .error .noDiameter
  else if canvas.points < 0 then
    .error (.negativeCount canvas.points)
  else
    .ok canvas.points.toNat

/-- The direction of a field at a point. The first component is evaluated first. -/
def directionAt (table : SymbolTable State) (components : Components) (point : Position) :
    Action State Direction := do
  let environment := Environment.ofPoint point.x point.y
  let u ← evaluating (evaluate table environment components.xfunc)
  let v ← evaluating (evaluate table environment components.yfunc)
  return directionOf u v

/-- The directions at all points of a grid, row by row. -/
def sampleGrid (table : SymbolTable State) (components : Components) (domain : Domain)
    (count : Nat) : Action State SampledField := do
  let xs := spaced domain.x0 domain.x1 count
  let ys := spaced domain.y0 domain.y1 count
  let directions ← ys.mapM fun y => xs.mapM fun x => directionAt table components ⟨x, y⟩
  return ⟨xs, ys, directions⟩

/-- Sample a field over a domain. -/
def sample (table : SymbolTable State) (canvas : Canvas) (components : Components)
    (domain : Domain) : Action State SampledField := do
  sampleGrid table components domain (← pointCount canvas)

end

end DirectionField
