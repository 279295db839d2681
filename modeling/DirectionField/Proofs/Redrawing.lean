/-
This file proves that a line which fails leaves a session as it was, and that no line but a
successful plot changes the picture. What is drawn then depends on the settings alone, and not on
what was on the axes before.
-/

import DirectionField.Proofs.Steps

namespace DirectionField

/-! ### Sessions that are left as they were -/

/-- A session is as it was: the settings, the number of pictures that have been shown, and the axes
with all that is on them, if they are open. -/
structure Undisturbed {State : Type} (session after : Session State) : Prop where
  settings : after.settings = session.settings
  shows : after.shows = session.shows
  axes : ∀ axes, session.axes = some axes → axes.isOpen = true → after.axes = some axes

section

variable {State : Type} {table : SymbolTable State} {session after : Session State} {line : String}

theorem undisturbed_of_console (console : Console State) :
    Undisturbed session { session with console := console } :=
  ⟨rfl, rfl, fun _ present _ => present⟩

/-- A plot that fails has at most made new axes, in place of such as are closed or missing. -/
theorem undisturbed_of_drawable (console : Console State) :
    Undisturbed session { session with axes := some session.drawable, console := console } :=
  ⟨rfl, rfl, fun _ present isOpen => congrArg some (Session.drawable_of_isOpen present isOpen)⟩

theorem undisturbed_of_step {failure : Failure}
    (step : Step table session line (.error failure) after) : Undisturbed session after := by
  cases step with
  | left _ | refused _ _ _ => exact ⟨rfl, rfl, fun _ present _ => present⟩
  | misread _ _ _ | unevaluated _ _ _ => exact undisturbed_of_console _
  | undrawn _ _ _ _ => exact undisturbed_of_drawable _

end

/-! ### Limits -/

/-- An interval, from its lower end to its upper one, is long enough for the scale of an axis: longer
than `1e-15` of the greater magnitude of its ends, which itself does not vanish. -/
def IsLong (lower upper : Float) : Prop :=
  let magnitude := if lower.abs < upper.abs then upper.abs else lower.abs
  ¬magnitude < 1e6 / 1e-15 * 2.2250738585072014e-308 ∧ ¬upper - lower ≤ magnitude * 1e-15

instance (lower upper : Float) : Decidable (IsLong lower upper) :=
  inferInstanceAs (Decidable (¬_ ∧ ¬_))

/-- A domain has long sides, each in either order. -/
structure Domain.HasLongSides (domain : Domain) : Prop where
  x : if domain.x1 < domain.x0 then IsLong domain.x1 domain.x0 else IsLong domain.x0 domain.x1
  y : if domain.y1 < domain.y0 then IsLong domain.y1 domain.y0 else IsLong domain.y0 domain.y1

theorem widened_of_isLong {lower upper : Float} (isLong : IsLong lower upper) :
    widened lower upper = (lower, upper) :=
  (if_neg isLong.1).trans (if_neg isLong.2)

theorem axisLimits_of_isLong {first last : Float}
    (isLong : if last < first then IsLong last first else IsLong first last) :
    axisLimits first last = (first, last) := by
  unfold axisLimits
  split at isLong
  · next descending => rw [if_pos descending, widened_of_isLong isLong, Prod.swap_prod_mk]
  · next ascending => rw [if_neg ascending, widened_of_isLong isLong]

/-- The axes of a domain with long sides end where the domain does. -/
theorem Domain.limits_of_hasLongSides {domain : Domain} (long : domain.HasLongSides) :
    domain.limits = domain := by
  rw [limits, axisLimits_of_isLong long.x, axisLimits_of_isLong long.y]

example : Domain.HasLongSides ⟨5.0, -5.0, 0.0, 1.0⟩ := ⟨by decide +kernel, by decide +kernel⟩

/-! ### Pictures -/

/-- A picture shows a sampled field and nothing else, with the limits, the guides and the title of
the settings. The limits are the bounds, unless a side is too short for the scale of an axis. The
guides go through the middle of the bounds. Each segment leads from a grid point along its direction,
by twelve of the six hundred pixels that a side of the canvas has, and a dot is at its tip. -/
structure Picture.Shows (picture : Picture) (settings : Settings) (field : SampledField) : Prop where
  limits : picture.limits = settings.bounds.limits
  bounds : settings.bounds.HasLongSides → picture.limits = settings.bounds
  labels : picture.labels = ("x", "y")
  title : picture.title = "(" ++ settings.xfunc ++ ", " ++ settings.yfunc ++ ")"
  verticalGuide : picture.verticalGuide = (settings.bounds.x0 + settings.bounds.x1) / 2.0
  horizontalGuide : picture.horizontalGuide = (settings.bounds.y0 + settings.bounds.y1) / 2.0
  segments : picture.segments = field.samples.map fun (start, direction) =>
    { start := start
      tip :=
        { x := start.x + direction.u * 12.0 * (settings.bounds.x1 - settings.bounds.x0) / 600.0
          y := start.y + direction.v * 12.0 * (settings.bounds.y1 - settings.bounds.y0) / 600.0 } }
  dots : picture.dots = picture.segments.map Segment.tip

/-- A vector of length one is drawn twelve pixels long, unless the canvas is given. -/
theorem radius_default : ({} : Canvas).radius = 12.0 := by decide +kernel

theorem drawnLength_default (component first last : Float) :
    drawnLength {} component first last = component * 12.0 * (last - first) / 600.0 := by
  have size : Float.ofInt ({} : Canvas).size = 600.0 := by decide +kernel
  rw [drawnLength, radius_default, size]

theorem shows_titled (settings : Settings) (field : SampledField) :
    ((pictureOf {} settings.bounds field).titled settings).Shows settings field where
  limits := rfl
  bounds := Domain.limits_of_hasLongSides
  labels := rfl
  title := rfl
  verticalGuide := rfl
  horizontalGuide := rfl
  segments := by
    refine List.map_congr_left fun sample _ => ?_
    simp only [segmentOf, drawnLength_default]
  dots := rfl

/-- The field of the settings has been drawn and shown: that of the components and the bounds that
are set, sampled with the state of the functions. The axes are the open ones, if there were such. -/
structure Redrawn {State : Type} (table : SymbolTable State) (session after : Session State) :
    Prop where
  settings : after.settings = session.settings
  shows : after.shows = session.shows + 1
  picture : ∃ xfunc yfunc field axes picture,
    Expr.ofText table session.settings.xfunc = .ok xfunc ∧
    Expr.ofText table session.settings.yfunc = .ok yfunc ∧
    session.settings.bounds.isUsable = true ∧
    (sample table {} ⟨xfunc, yfunc⟩ session.settings.bounds).run session.console =
      (.ok field, after.console) ∧
    after.axes = some axes ∧ axes.isOpen = true ∧ axes.picture = some picture ∧
    picture.Shows session.settings field
  figure : ∀ axes, session.axes = some axes → axes.isOpen = true →
    after.axes.map Axes.figure = some axes.figure

section

variable {State : Type} {table : SymbolTable State} {session after : Session State} {line : String}

theorem Session.isOpen_drawable (session : Session State) : session.drawable.isOpen = true := by
  unfold drawable
  split
  · rfl
  · split
    · next isOpen => exact isOpen
    · rfl

theorem redrawn_of_step (step : Step table session line (.ok ()) after) (isPlot : IsPlot line) :
    Redrawn table session after := by
  have unchanged : changeOf? table line = none := changeOf?_of_isPlot isPlot
  obtain ⟨_, isCommand⟩ := isPlot
  cases step with
  | changed accepted =>
    rw [unchanged] at accepted
    cases accepted
  | listed isListing =>
    rw [isCommand] at isListing
    cases isListing
  | answered isExpression _ _ =>
    rw [isCommand] at isExpression
    cases isExpression
  | drawn _ xread yread ran =>
    obtain ⟨usable, field, sampled, rfl⟩ := run_draw_eq_ok_iff.mp ran
    refine ⟨rfl, rfl, ⟨_, _, field, _, _, xread, yread, usable, sampled, rfl, ?_, rfl, ?_⟩, ?_⟩
    · exact session.isOpen_drawable
    · exact shows_titled session.settings field
    · intro axes present isOpen
      show some session.drawable.figure = _
      rw [Session.drawable_of_isOpen present isOpen]

theorem picture_of_step (step : Step table session line (.ok ()) after) (notPlot : ¬IsPlot line) :
    after.axes = session.axes ∧ after.shows = session.shows := by
  cases step with
  | changed _ | listed _ | answered _ _ _ => exact ⟨rfl, rfl⟩
  | drawn isPlot _ _ _ => exact absurd isPlot notPlot

end

/-- A line that fails leaves a session as it was. A line that succeeds changes the picture only if
it is a plot, and shows one picture then, which is that of the settings. -/
theorem undisturbed_of_failure {State : Type} (table : SymbolTable State) (session : Session State)
    (line : String) :
    (∀ failure after, (obeyLine table line).run session = (.error failure, after) →
      Undisturbed session after) ∧
      ∀ after, (obeyLine table line).run session = (.ok (), after) →
        (IsPlot line → Redrawn table session after) ∧
          (¬IsPlot line → after.axes = session.axes ∧ after.shows = session.shows) := by
  have step := step_obeyLine table session line
  refine ⟨fun failure after ran => ?_, fun after ran => ?_⟩
  · rw [ran] at step
    exact undisturbed_of_step step
  · rw [ran] at step
    exact ⟨redrawn_of_step step, picture_of_step step⟩

end DirectionField
