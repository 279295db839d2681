/-
This file proves that a session never gets into a state in which it cannot draw. Each line checks
what it sets, so that the settings stay sound: the bounds are usable and both components can be
read. That is an invariant of all sequences of lines, whether they fail or not, and closing the
figure does not matter to it.

Sound settings are enough for a picture, because the grid points bind all variables there are.
-/

import DirectionField.Proofs.Dispatch
import DirectionField.Proofs.Redrawing
import DirectionField.Proofs.Sampling

namespace DirectionField

/-! ### Sound settings -/

section

variable {State : Type} (table : SymbolTable State)

/-- A table suits sessions: its variables are the coordinates, no arity is negative, and it has the
names that the components of a new session use. -/
structure IsSuitable : Prop where
  coordinates : ∀ name ∈ table.variableNames, name = "x" ∨ name = "y"
  arities : ∀ name function, table.function? name = some function → 0 ≤ function.arity
  xfunc : ∃ tree, Expr.ofText table ({} : Settings).xfunc = .ok tree
  yfunc : ∃ tree, Expr.ofText table ({} : Settings).yfunc = .ok tree

/-- Settings are sound: the bounds are usable, and both components can be read. -/
structure IsSound (settings : Settings) : Prop where
  bounds : settings.bounds.isUsable = true
  xfunc : ∃ tree, Expr.ofText table settings.xfunc = .ok tree
  yfunc : ∃ tree, Expr.ofText table settings.yfunc = .ok tree

end

section

variable {State : Type} {table : SymbolTable State}

theorem IsSuitable.isSound (suitable : IsSuitable table) : IsSound table {} :=
  ⟨by decide, suitable.xfunc, suitable.yfunc⟩

theorem exists_of_isOk {Value Error : Type} {outcome : Except Error Value}
    (isOk : outcome.isOk = true) : ∃ value, outcome = .ok value := by
  cases outcome with
  | error error => cases isOk
  | ok value => exact ⟨value, rfl⟩

/-- A change that is accepted keeps the settings sound. -/
theorem isSound_of_change {command : Command} {argument : String} {change : Change}
    (accepted : command.change? table argument = some change) {settings : Settings}
    (sound : IsSound table settings) : IsSound table (change.apply settings) := by
  cases command with
  | exit | plot | symbols => cases accepted
  | xfunc =>
    rw [Command.change?] at accepted
    split at accepted
    · next isOk =>
      cases accepted
      exact ⟨sound.bounds, exists_of_isOk isOk, sound.yfunc⟩
    · cases accepted
  | yfunc =>
    rw [Command.change?] at accepted
    split at accepted
    · next isOk =>
      cases accepted
      exact ⟨sound.bounds, sound.xfunc, exists_of_isOk isOk⟩
    · cases accepted
  | bounds =>
    obtain ⟨domain, given, rfl⟩ := Option.map_eq_some_iff.mp accepted
    exact ⟨(domain?_eq_some_iff.mp given).2, sound.xfunc, sound.yfunc⟩
  | point =>
    obtain ⟨position, -, rfl⟩ := Option.map_eq_some_iff.mp accepted
    exact ⟨sound.bounds, sound.xfunc, sound.yfunc⟩

/-- The settings after a line are those before it, with the change that the line makes. -/
theorem settings_of_step {session after : Session State} {line : String}
    {outcome : Except Failure Unit} (step : Step table session line outcome after) :
    after.settings = (changeOf? table line).elim session.settings (Change.apply session.settings) := by
  rcases change_of_step step with ⟨change, accepted, -, rfl⟩ | ⟨unchanged, isSame⟩
  · rw [accepted]
    rfl
  · rw [unchanged]
    exact isSame

theorem isSound_of_step {session after : Session State} {line : String}
    {outcome : Except Failure Unit} (step : Step table session line outcome after)
    (sound : IsSound table session.settings) : IsSound table after.settings := by
  rw [settings_of_step step]
  cases accepted : changeOf? table line with
  | none => exact sound
  | some change =>
    obtain ⟨given, -, asks⟩ := Option.bind_eq_some_iff.mp accepted
    exact isSound_of_change asks sound

end

/-! ### Sequences of lines -/

/-- What can happen to a session: a line is typed, or the figure is closed. -/
inductive Event
  | line (text : String)
  | close
deriving DecidableEq, Repr, Inhabited

section

variable {State : Type} (table : SymbolTable State)

/-- The session after an event, whether a line fails or not. -/
def Session.follow (session : Session State) : Event → Session State
  | .line text => ((obeyLine table text).run session).2
  | .close => session.closeFigure

/-- The session after events, one after another. -/
def Session.followAll (session : Session State) (events : List Event) : Session State :=
  events.foldl (Session.follow table) session

end

section

variable {State : Type} {table : SymbolTable State} {session after : Session State}

theorem isSound_follow (sound : IsSound table session.settings) (event : Event) :
    IsSound table (session.follow table event).settings := by
  cases event with
  | line text => exact isSound_of_step (step_obeyLine table session text) sound
  | close => exact sound

/-- Settings stay sound, whatever happens. -/
theorem isSound_followAll (sound : IsSound table session.settings) (events : List Event) :
    IsSound table (session.followAll table events).settings := by
  induction events generalizing session with
  | nil => exact sound
  | cons event rest inductionHypothesis => exact inductionHypothesis (isSound_follow sound event)

/-! ### What sound settings are enough for -/

theorem draws_of_isSound (suitable : IsSuitable table) (sound : IsSound table session.settings)
    {xfunc yfunc : Expr} (xread : Expr.ofText table session.settings.xfunc = .ok xfunc)
    (yread : Expr.ofText table session.settings.yfunc = .ok yfunc) :
    Ends (draw table {} ⟨xfunc, yfunc⟩ session.settings.bounds) none := by
  have ends : Ends (draw table {} ⟨xfunc, yfunc⟩ session.settings.bounds) _ :=
    ends_draw (failsEverywhere_of_ofText suitable.coordinates suitable.arities xread)
      (failsEverywhere_of_ofText suitable.coordinates suitable.arities yread) _ _
  rw [obstacle?, sound.bounds] at ends
  exact ends

/-- A plot does not fail if the settings are sound. -/
theorem not_failed_of_isPlot (suitable : IsSuitable table) (sound : IsSound table session.settings)
    {line : String} (isPlot : IsPlot line) {failure : Failure} :
    ¬Step table session line (.error failure) after := by
  intro step
  obtain ⟨argument, isCommand⟩ := id isPlot
  cases step with
  | left isExit => cases isCommand.symm.trans isExit
  | refused isOther takesNumbers _ =>
    cases isCommand.symm.trans isOther
    rcases takesNumbers with isBounds | isPoint
    · cases isBounds
    · cases isPoint
  | misread reads failed _ =>
    -- A plot reads nothing but the two components, and these are sound.
    cases reads with
    | xargument isOther | yargument isOther | line isOther => cases isCommand.symm.trans isOther
    | xfunc _ =>
      obtain ⟨tree, read⟩ := sound.xfunc
      cases read.symm.trans failed
    | yfunc _ =>
      obtain ⟨tree, read⟩ := sound.yfunc
      cases read.symm.trans failed
  | unevaluated isExpression _ _ => cases isCommand.symm.trans isExpression
  | undrawn _ xread yread ran => exact (draws_of_isSound suitable sound xread yread).ne_error ran

/-- With sound settings no line fails because something has no value. -/
theorem not_unevaluated (suitable : IsSuitable table) (sound : IsSound table session.settings)
    {line : String} {error : EvaluationError} :
    ¬Step table session line (.error (.fault (.evaluating error))) after := by
  intro step
  cases step with
  | misread _ failed _ => exact ofText_ne_evaluating failed
  | unevaluated isExpression read ran =>
    obtain ⟨_, _, hasValue⟩ := failsEverywhere_of_ofText suitable.coordinates suitable.arities read _ _ _
    cases hasValue.symm.trans ran
  | undrawn _ xread yread ran => exact (draws_of_isSound suitable sound xread yread).ne_error ran

end

/-- After any events the settings of a session are sound. So it can draw: a plot succeeds and shows
one picture. No line ever fails because something has no value. -/
theorem plots_of_isSuitable {State : Type} (table : SymbolTable State) (suitable : IsSuitable table)
    (state : State) (events : List Event) :
    let session := (Session.start state).followAll table events
    IsSound table session.settings ∧
      (∀ line, IsPlot line → ∃ after, (obeyLine table line).run session = (.ok (), after) ∧
        after.shows = session.shows + 1) ∧
      ∀ line error, ((obeyLine table line).run session).1 ≠ .error (.fault (.evaluating error)) := by
  intro session
  have sound : IsSound table session.settings := isSound_followAll suitable.isSound events
  refine ⟨sound, fun line isPlot => ?_, fun line error isError => ?_⟩
  · have step := step_obeyLine table session line
    cases ran : (obeyLine table line).run session with
    | mk outcome after =>
      rw [ran] at step
      cases outcome with
      | ok _ => exact ⟨after, rfl, (redrawn_of_step step isPlot).shows⟩
      | error failure => exact absurd step (not_failed_of_isPlot suitable sound isPlot)
  · have step := step_obeyLine table session line
    rw [isError] at step
    exact not_unevaluated suitable sound step

/-- The standard table suits sessions, whatever `random` draws. -/
theorem isSuitable_standardTable {State : Type} (random : StateM State Float) :
    IsSuitable (standardTable random) where
  coordinates := by
    intro name member
    change name ∈ ["x", "y"] at member
    simpa only [List.mem_cons, List.not_mem_nil, or_false] using member
  arities := fun _ _ => zero_le_arity_of_standard
  xfunc := exists_of_isOk (by with_unfolding_all rfl)
  yfunc := exists_of_isOk (by with_unfolding_all rfl)

/-- A session that reads a component with an unknown name, and whose figure is closed, still plots.
-/
theorem plots_of_isSuitable_standardTable :
    let table : SymbolTable Unit := standardTable (pure 0.5)
    let events : List Event := [.line Command.plot.word, .close, .line "XFUNC z"]
    let session := (Session.start ()).followAll table events
    IsSuitable table ∧ IsSound table session.settings ∧ IsPlot Command.plot.word ∧
      (∃ after, (obeyLine table Command.plot.word).run session = (.ok (), after) ∧
        after.shows = session.shows + 1) ∧
      ∀ line error, ((obeyLine table line).run session).1 ≠ .error (.fault (.evaluating error)) := by
  intro table events session
  have suitable : IsSuitable table := isSuitable_standardTable (pure 0.5)
  obtain ⟨sound, plots, evaluates⟩ := plots_of_isSuitable table suitable () events
  exact ⟨suitable, sound, isPlot_word, plots _ isPlot_word, evaluates⟩

end DirectionField
