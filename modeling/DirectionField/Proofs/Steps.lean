/-
This file says what a line does to a session, once for every way in which it can end. A line that is
refused or misread does nothing but print. A line that sets something changes that setting alone.
Only a picture touches the axes, and it is put on them when it is complete.

Everything that is proved about sessions goes by these cases.
-/

import DirectionField.Proofs.Evaluation
import DirectionField.Session.Obey

namespace DirectionField

/-! ### Actions on a console -/

section

variable {State Result : Type}

theorem run_announce_ok (result : Result) (console : Console State) :
    (announce (.ok result) : Action State Result).run console = (.ok result, console) :=
  rfl

theorem run_announce_error (fault : Fault) (console : Console State) :
    (announce (.error fault) : Action State Result).run console =
      (.error (.fault fault), console.printLine fault.diagnostic.report) :=
  rfl

theorem run_evaluating_of_ok {evaluation : Evaluation State Result} {console : Console State}
    {result : Result} {state : State} (ran : evaluation.run console.state = (.ok result, state)) :
    (evaluating evaluation).run console = (.ok result, { console with state := state }) := by
  show (announce ((evaluation.run console.state).1.mapError Fault.evaluating)).run
    { console with state := (evaluation.run console.state).2 } = _
  rw [ran]
  exact run_announce_ok result _

theorem run_evaluating_of_error {evaluation : Evaluation State Result} {console : Console State}
    {error : EvaluationError} {state : State}
    (ran : evaluation.run console.state = (.error error, state)) :
    (evaluating evaluation).run console =
      (.error (.fault (.evaluating error)),
        { console with state := state }.printLine error.diagnostic.report) := by
  show (announce ((evaluation.run console.state).1.mapError Fault.evaluating)).run
    { console with state := (evaluation.run console.state).2 } = _
  rw [ran]
  exact run_announce_error (.evaluating error) _

/-- Evaluating has a result exactly if the evaluation has it, and prints nothing. -/
theorem run_evaluating_eq_ok_iff {evaluation : Evaluation State Result}
    {console after : Console State} {result : Result} :
    (evaluating evaluation).run console = (.ok result, after) ↔
      evaluation.run console.state = (.ok result, after.state) ∧ after.printed = console.printed := by
  cases ran : evaluation.run console.state with
  | mk outcome state =>
    cases outcome with
    | error error =>
      rw [run_evaluating_of_error ran]
      exact ⟨nofun, nofun⟩
    | ok value =>
      rw [run_evaluating_of_ok ran]
      constructor
      · rintro ⟨⟩
        exact ⟨rfl, rfl⟩
      · obtain ⟨final, printed⟩ := after
        rintro ⟨⟨⟩, rfl⟩
        rfl

/-- An action on the console leaves everything else as it is. -/
theorem run_onConsole (action : Action State Result) (session : Session State) :
    (onConsole action).run session =
      ((action.run session.console).1,
        { session with console := (action.run session.console).2 }) :=
  rfl

end

/-! ### Activities -/

section

variable {State : Type} {table : SymbolTable State} {session : Session State}

theorem run_get : (get : Activity State (Session State)).run session = (.ok session, session) :=
  rfl

theorem run_readAnnounced_of_ok {source : String} {tree : Expr}
    (read : Expr.ofText table source = .ok tree) :
    (readAnnounced table source).run session = (.ok tree, session) := by
  rw [readAnnounced, read, run_onConsole, run_announce_ok]

theorem run_readAnnounced_of_error {source : String} {fault : Fault}
    (failed : Expr.ofText table source = .error fault) :
    (readAnnounced table source).run session =
      (.error (.fault fault), session.printLine fault.diagnostic.report) := by
  rw [readAnnounced, failed, run_onConsole, run_announce_error]
  rfl

/-- The axes that the next picture is drawn on. -/
def Session.drawable (session : Session State) : Axes :=
  match session.axes with
  | none => { figure := 0 }
  | some axes => if axes.isOpen then axes else { figure := axes.figure + 1 }

theorem Session.drawable_of_isOpen {axes : Axes} (present : session.axes = some axes)
    (isOpen : axes.isOpen = true) : session.drawable = axes := by
  rw [drawable, present]
  exact if_pos isOpen

theorem run_openAxes :
    openAxes.run session =
      (.ok session.drawable, { session with axes := some session.drawable }) := by
  obtain ⟨settings, axes, shows, console⟩ := session
  cases axes with
  | none => rfl
  | some axes =>
    obtain ⟨figure, isOpen, picture⟩ := axes
    cases isOpen with
    | false => rfl
    | true => rfl

end

/-! ### Drawing -/

section

variable {State : Type} {table : SymbolTable State} {canvas : Canvas} {components : Components}
  {domain : Domain} {console after : Console State}

theorem run_draw_of_unusable (unusable : domain.isUsable = false) :
    (draw table canvas components domain).run console =
      (.error (.unusableDomain domain), console) := by
  rw [draw, unusable]
  rfl

theorem draw_of_usable (usable : domain.isUsable = true) :
    draw table canvas components domain =
      sample table canvas components domain >>= fun field => pure (pictureOf canvas domain field) := by
  rw [draw, usable]
  rfl

/-- A picture is drawn if the domain is usable and the field is sampled, and not otherwise. -/
theorem run_draw_eq_ok_iff {picture : Picture} :
    (draw table canvas components domain).run console = (.ok picture, after) ↔
      domain.isUsable = true ∧ ∃ field,
        (sample table canvas components domain).run console = (.ok field, after) ∧
          picture = pictureOf canvas domain field := by
  cases usable : domain.isUsable with
  | false =>
    rw [run_draw_of_unusable usable]
    exact ⟨nofun, nofun⟩
  | true =>
    rw [draw_of_usable usable, run_bind_eq_ok_iff]
    constructor
    · rintro ⟨field, final, sampled, ⟨⟩⟩
      exact ⟨rfl, field, sampled, rfl⟩
    · rintro ⟨-, field, sampled, rfl⟩
      exact ⟨field, after, sampled, rfl⟩

theorem run_render_of_ok (session : Session State) {axes : Axes} {picture : Picture}
    (ran : (draw table canvas components domain).run session.console = (.ok picture, after)) :
    (render table canvas components domain axes).run session =
      (.ok (), { session with
        axes := some { axes with picture := some picture }
        console := after }) := by
  have onSession := run_onConsole (draw table canvas components domain) session
  rw [ran] at onSession
  rw [render, run_bind_of_ok onSession]
  rfl

/-- If a field cannot be drawn, what is on the axes stays. -/
theorem run_render_of_error (session : Session State) {axes : Axes} {failure : Failure}
    (ran : (draw table canvas components domain).run session.console = (.error failure, after)) :
    (render table canvas components domain axes).run session =
      (.error failure, { session with console := after }) := by
  have onSession := run_onConsole (draw table canvas components domain) session
  rw [ran] at onSession
  rw [render, run_bind_of_error onSession]

end

/-- The picture of the components that are set, with their texts as its title. -/
def Picture.titled (picture : Picture) (settings : Settings) : Picture :=
  { picture with title := "(" ++ settings.xfunc ++ ", " ++ settings.yfunc ++ ")" }

/-! ### Changes of settings -/

/-- A change of one setting. -/
inductive Change
  | xfunc (text : String)
  | yfunc (text : String)
  | bounds (domain : Domain)
  | point (position : Position)
deriving DecidableEq, Repr, Inhabited

/-- The settings after a change. -/
def Change.apply (settings : Settings) : Change → Settings
  | xfunc text => { settings with xfunc := text }
  | yfunc text => { settings with yfunc := text }
  | bounds domain => { settings with bounds := domain }
  | point position => { settings with point := position }

section

variable {State : Type} (table : SymbolTable State)

/-- The change that a command asks for, if its argument is accepted. -/
def Command.change? (command : Command) (argument : String) : Option Change :=
  match command with
  | xfunc => if (Expr.ofText table argument).isOk then some (.xfunc argument) else none
  | yfunc => if (Expr.ofText table argument).isOk then some (.yfunc argument) else none
  | bounds => (domain? argument).map .bounds
  | point => (point? argument).map .point
  | exit | plot | symbols => none

/-- The change that a line makes. The session has no say in that. -/
def changeOf? (line : String) : Option Change :=
  (Command.ofLine? line).bind fun given => given.1.change? table given.2

/-! ### Steps -/

/-- Whether a line is the command that draws the picture. -/
def IsPlot (line : String) : Prop :=
  ∃ argument, Command.ofLine? line = some (.plot, argument)

theorem isPlot_word : IsPlot Command.plot.word :=
  ⟨"", by decide⟩

/-- The session after functions have changed their state. -/
def Session.withState (session : Session State) (state : State) : Session State :=
  { session with console := { session.console with state := state } }

/-- The texts that a line reads as expressions, given the settings. -/
inductive Reads (settings : Settings) (line : String) : String → Prop
  | xargument {argument : String} (isCommand : Command.ofLine? line = some (.xfunc, argument)) :
      Reads settings line argument
  | yargument {argument : String} (isCommand : Command.ofLine? line = some (.yfunc, argument)) :
      Reads settings line argument
  | xfunc (isPlot : IsPlot line) : Reads settings line settings.xfunc
  | yfunc (isPlot : IsPlot line) : Reads settings line settings.yfunc
  | line (isExpression : Command.ofLine? line = none) : Reads settings line line

/-- What a line does to a session, by the way in which it ends. -/
inductive Step (session : Session State) (line : String) :
    Except Failure Unit → Session State → Prop
  /-- The session is left. -/
  | left {argument : String} (isCommand : Command.ofLine? line = some (.exit, argument)) :
      Step session line (.error .exit) session
  /-- Numbers are missing, or they are no domain. -/
  | refused {command : Command} {argument : String}
      (isCommand : Command.ofLine? line = some (command, argument))
      (takesNumbers : command = .bounds ∨ command = .point)
      (unchanged : changeOf? table line = none) :
      Step session line (.error (.wrongUsage command)) session
  /-- A text is no expression. -/
  | misread {source : String} {fault : Fault} (reads : Reads session.settings line source)
      (failed : Expr.ofText table source = .error fault)
      (unchanged : changeOf? table line = none) :
      Step session line (.error (.fault fault)) (session.printLine fault.diagnostic.report)
  /-- A setting is changed. -/
  | changed {change : Change} (accepted : changeOf? table line = some change) :
      Step session line (.ok ()) { session with settings := change.apply session.settings }
  /-- The symbols are listed. -/
  | listed {argument : String} (isCommand : Command.ofLine? line = some (.symbols, argument)) :
      Step session line (.ok ()) (session.print table.listing)
  /-- The line is an expression that has no value. -/
  | unevaluated {tree : Expr} {error : EvaluationError} {state : State}
      (isExpression : Command.ofLine? line = none) (read : Expr.ofText table line = .ok tree)
      (ran : (evaluate table (.ofPoint session.settings.point.x session.settings.point.y) tree).run
        session.console.state = (.error error, state)) :
      Step session line (.error (.fault (.evaluating error)))
        ((session.withState state).printLine error.diagnostic.report)
  /-- The line is an expression, and its value is printed. -/
  | answered {tree : Expr} {value : Float} {state : State}
      (isExpression : Command.ofLine? line = none) (read : Expr.ofText table line = .ok tree)
      (ran : (evaluate table (.ofPoint session.settings.point.x session.settings.point.y) tree).run
        session.console.state = (.ok value, state)) :
      Step session line (.ok ()) ((session.withState state).printLine (answerText value))
  /-- Both components are read, but the field cannot be drawn. -/
  | undrawn {xfunc yfunc : Expr} {failure : Failure} {console : Console State}
      (isPlot : IsPlot line)
      (xread : Expr.ofText table session.settings.xfunc = .ok xfunc)
      (yread : Expr.ofText table session.settings.yfunc = .ok yfunc)
      (ran : (draw table {} ⟨xfunc, yfunc⟩ session.settings.bounds).run session.console =
        (.error failure, console)) :
      Step session line (.error failure)
        { session with axes := some session.drawable, console := console }
  /-- The field is drawn and shown. -/
  | drawn {xfunc yfunc : Expr} {picture : Picture} {console : Console State}
      (isPlot : IsPlot line)
      (xread : Expr.ofText table session.settings.xfunc = .ok xfunc)
      (yread : Expr.ofText table session.settings.yfunc = .ok yfunc)
      (ran : (draw table {} ⟨xfunc, yfunc⟩ session.settings.bounds).run session.console =
        (.ok picture, console)) :
      Step session line (.ok ())
        { session with
          axes := some { session.drawable with picture := some (picture.titled session.settings) }
          shows := session.shows + 1
          console := console }

end

section

variable {State : Type} {table : SymbolTable State} {session : Session State} {line : String}

theorem changeOf?_of_isCommand {command : Command} {argument : String}
    (isCommand : Command.ofLine? line = some (command, argument)) :
    changeOf? table line = command.change? table argument := by
  rw [changeOf?, isCommand]
  rfl

theorem changeOf?_of_isExpression (isExpression : Command.ofLine? line = none) :
    changeOf? table line = none := by
  rw [changeOf?, isExpression]
  rfl

theorem changeOf?_of_isPlot (isPlot : IsPlot line) : changeOf? table line = none := by
  obtain ⟨argument, isCommand⟩ := isPlot
  rw [changeOf?_of_isCommand isCommand]
  rfl

theorem step_of_isPlot (isPlot : IsPlot line) :
    Step table session line ((plot table).run session).1 ((plot table).run session).2 := by
  have unchanged : changeOf? table line = none := changeOf?_of_isPlot isPlot
  rw [plot, run_bind_of_ok run_get]
  cases xread : Expr.ofText table session.settings.xfunc with
  | error fault =>
    rw [run_bind_of_error (run_readAnnounced_of_error xread)]
    exact .misread (.xfunc isPlot) xread unchanged
  | ok xfunc =>
    rw [run_bind_of_ok (run_readAnnounced_of_ok xread)]
    cases yread : Expr.ofText table session.settings.yfunc with
    | error fault =>
      rw [run_bind_of_error (run_readAnnounced_of_error yread)]
      exact .misread (.yfunc isPlot) yread unchanged
    | ok yfunc =>
      -- The axes are there before the field is sampled. If sampling fails, new ones stay empty.
      rw [run_bind_of_ok (run_readAnnounced_of_ok yread), run_bind_of_ok run_openAxes]
      let opened : Session State := { session with axes := some session.drawable }
      cases ran : (draw table {} ⟨xfunc, yfunc⟩ session.settings.bounds).run session.console with
      | mk outcome console =>
        cases outcome with
        | error failure =>
          rw [run_bind_of_error (run_render_of_error opened ran)]
          exact .undrawn isPlot xread yread ran
        | ok picture =>
          rw [run_bind_of_ok (run_render_of_ok opened ran)]
          exact .drawn isPlot xread yread ran

theorem step_of_isExpression (isExpression : Command.ofLine? line = none) :
    Step table session line ((obeyLine table line).run session).1
      ((obeyLine table line).run session).2 := by
  have unchanged : changeOf? table line = none := changeOf?_of_isExpression isExpression
  rw [obeyLine, isExpression]
  dsimp only
  cases read : Expr.ofText table line with
  | error fault =>
    have failed : (valueOfLine table line).run session = _ :=
      run_bind_of_error (run_readAnnounced_of_error read)
    rw [run_bind_of_error failed]
    exact .misread (.line isExpression) read unchanged
  | ok tree =>
    have reached : (valueOfLine table line).run session = _ :=
      (run_bind_of_ok (run_readAnnounced_of_ok read)).trans (run_bind_of_ok run_get)
    have onSession := run_onConsole (evaluating (evaluate table
      (.ofPoint session.settings.point.x session.settings.point.y) tree)) session
    cases ran : (evaluate table (.ofPoint session.settings.point.x session.settings.point.y) tree).run
        session.console.state with
    | mk outcome state =>
      cases outcome with
      | error error =>
        rw [run_evaluating_of_error ran] at onSession
        rw [run_bind_of_error (reached.trans onSession)]
        exact .unevaluated isExpression read ran
      | ok value =>
        rw [run_evaluating_of_ok ran] at onSession
        rw [run_bind_of_ok (reached.trans onSession)]
        exact .answered isExpression read ran

/-- A command that sets a component reads it first. -/
theorem step_of_component {source : String} {set : Settings → Settings} (change : Change)
    (accepts : changeOf? table line =
      if (Expr.ofText table source).isOk then some change else none)
    (reads : Reads session.settings line source)
    (isChange : ∀ settings, set settings = change.apply settings) :
    let handler := readAnnounced table source >>= fun _ => modifySettings set
    Step table session line (handler.run session).1 (handler.run session).2 := by
  intro handler
  cases read : Expr.ofText table source with
  | error fault =>
    rw [read] at accepts
    rw [run_bind_of_error (run_readAnnounced_of_error read)]
    exact .misread reads read accepts
  | ok tree =>
    rw [read] at accepts
    have step : Step table session line _ _ := .changed accepts
    rw [← isChange] at step
    rw [run_bind_of_ok (run_readAnnounced_of_ok read)]
    exact step

/-- A session does on every line what the cases say. -/
theorem step_obeyLine (table : SymbolTable State) (session : Session State) (line : String) :
    Step table session line ((obeyLine table line).run session).1
      ((obeyLine table line).run session).2 := by
  cases isCommand : Command.ofLine? line with
  | none => exact step_of_isExpression isCommand
  | some given =>
    obtain ⟨command, argument⟩ := given
    have asks : changeOf? table line = command.change? table argument :=
      changeOf?_of_isCommand isCommand
    rw [obeyLine, isCommand]
    dsimp only
    cases command with
    | exit => exact .left isCommand
    | plot => exact step_of_isPlot ⟨argument, isCommand⟩
    | xfunc => exact step_of_component (.xfunc argument) asks (.xargument isCommand) fun _ => rfl
    | yfunc => exact step_of_component (.yfunc argument) asks (.yargument isCommand) fun _ => rfl
    | bounds =>
      rw [obey]
      cases numbers : domain? argument with
      | none =>
        rw [Command.change?, numbers] at asks
        exact .refused isCommand (Or.inl rfl) asks
      | some domain =>
        rw [Command.change?, numbers] at asks
        exact .changed asks
    | point =>
      rw [obey]
      cases numbers : point? argument with
      | none =>
        rw [Command.change?, numbers] at asks
        exact .refused isCommand (Or.inr rfl) asks
      | some position =>
        rw [Command.change?, numbers] at asks
        exact .changed asks
    | symbols => exact .listed isCommand

/-- A line either changes a setting and does nothing else, or has no say in the settings. -/
theorem change_of_step {after : Session State} {outcome : Except Failure Unit}
    (step : Step table session line outcome after) :
    (∃ change, changeOf? table line = some change ∧ outcome = .ok () ∧
      after = { session with settings := change.apply session.settings }) ∨
      (changeOf? table line = none ∧ after.settings = session.settings) := by
  cases step with
  | changed accepted => exact Or.inl ⟨_, accepted, rfl, rfl⟩
  | left isCommand | listed isCommand => exact Or.inr ⟨changeOf?_of_isCommand isCommand, rfl⟩
  | refused _ _ unchanged | misread _ _ unchanged => exact Or.inr ⟨unchanged, rfl⟩
  | unevaluated isExpression _ _ | answered isExpression _ _ =>
    exact Or.inr ⟨changeOf?_of_isExpression isExpression, rfl⟩
  | undrawn isPlot _ _ _ | drawn isPlot _ _ _ => exact Or.inr ⟨changeOf?_of_isPlot isPlot, rfl⟩

end

end DirectionField
