/-
This file spaces points evenly over an interval. All arithmetic is that of doubles, so the order of
the operations counts.
-/

namespace DirectionField

/-- The given number of points from the first to the last, evenly spaced. The last point is the
given one; all others are steps away from the first. Where a step is too short to be told from
zero, the length of the interval is scaled instead. -/
def spaced (first last : Float) (count : Nat) : List Float :=
  let length := last - first
  let steps := Float.ofNat (count - 1)
  let step := length / steps
  (List.range count).map fun index =>
    let share := Float.ofNat index
    if count = 1 then
      share * length + first
    else if index + 1 = count then
      last
    else if step == 0.0 then
      share / steps * length + first
    else
      share * step + first

@[simp] theorem length_spaced (first last : Float) (count : Nat) :
    (spaced first last count).length = count := by
  simp [spaced]

end DirectionField
