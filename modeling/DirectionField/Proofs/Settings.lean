/-
This file proves that every setting has the value that the last accepted line for it gives. Whether
a line is accepted can be told from the line and the table. So a session goes through the lines once
for each setting, and in each of these passes only the lines of one command matter. Where they stand
among other lines makes no difference, and a line that fails might as well be left out.
-/

import DirectionField.Proofs.Reachable

namespace DirectionField

/-! ### Settings, one by one -/

/-- The four settings. -/
inductive Setting
  | xfunc
  | yfunc
  | bounds
  | point
deriving DecidableEq, Repr, Inhabited

namespace Setting

/-- What a setting holds. -/
def Value : Setting → Type
  | xfunc | yfunc => String
  | bounds => Domain
  | point => Position

/-- The value of a setting. -/
def get : (setting : Setting) → Settings → setting.Value
  | xfunc, settings => settings.xfunc
  | yfunc, settings => settings.yfunc
  | bounds, settings => settings.bounds
  | point, settings => settings.point

/-- The command that changes a setting. -/
def command : Setting → Command
  | xfunc => .xfunc
  | yfunc => .yfunc
  | bounds => .bounds
  | point => .point

/-- The change of a setting to a value. -/
def change : (setting : Setting) → setting.Value → Change
  | xfunc, text => .xfunc text
  | yfunc, text => .yfunc text
  | bounds, domain => .bounds domain
  | point, position => .point position

/-- The value that a setting is changed to, by a change of this setting. -/
def value? : (setting : Setting) → Change → Option setting.Value
  | xfunc, .xfunc text => some text
  | yfunc, .yfunc text => some text
  | bounds, .bounds domain => some domain
  | point, .point position => some position
  | _, _ => none

/-- An argument is accepted for a setting, and gives it a value. -/
def Accepts {State : Type} (table : SymbolTable State) :
    (setting : Setting) → String → setting.Value → Prop
  | xfunc, argument, text => text = argument ∧ ∃ tree, Expr.ofText table argument = .ok tree
  | yfunc, argument, text => text = argument ∧ ∃ tree, Expr.ofText table argument = .ok tree
  | bounds, argument, domain =>
    GivesNumbers argument [domain.x0, domain.x1, domain.y0, domain.y1] ∧ domain.isUsable = true
  | point, argument, position => GivesNumbers argument [position.x, position.y]

/-- A line gives a setting a value: it is a line of its command, and the argument is accepted. -/
def Gives {State : Type} (table : SymbolTable State) (setting : Setting) (line : String)
    (value : setting.Value) : Prop :=
  ∃ argument, setting.command.IsLine line argument ∧ setting.Accepts table argument value

variable {State : Type} {table : SymbolTable State} {setting : Setting}

theorem ext {first second : Settings}
    (same : ∀ setting : Setting, setting.get first = setting.get second) : first = second := by
  obtain ⟨_, _, _, _⟩ := first
  obtain ⟨_, _, _, _⟩ := second
  cases same xfunc
  cases same yfunc
  cases same bounds
  cases same point
  rfl

/-- A change of a setting leaves the other ones as they are. -/
theorem get_apply (setting : Setting) (settings : Settings) (change : Change) :
    setting.get (change.apply settings) = (setting.value? change).getD (setting.get settings) := by
  cases setting <;> cases change <;> rfl

theorem value?_eq_some_iff {change : Change} {value : setting.Value} :
    setting.value? change = some value ↔ change = setting.change value := by
  constructor
  · intro isValue
    cases setting <;> cases change <;> cases isValue <;> rfl
  · rintro rfl
    cases setting <;> rfl

/-! ### Lines that are accepted -/

/-- The command of a setting asks for a change of it. -/
theorem exists_value_of_change? {argument : String} {change : Change}
    (accepted : setting.command.change? table argument = some change) :
    ∃ value, change = setting.change value := by
  cases setting with
  | xfunc | yfunc =>
    obtain ⟨-, isChange⟩ := Option.ite_none_right_eq_some.mp accepted
    exact ⟨argument, (Option.some_inj.mp isChange).symm⟩
  | bounds =>
    obtain ⟨domain, -, isChange⟩ := Option.map_eq_some_iff.mp accepted
    exact ⟨domain, isChange.symm⟩
  | point =>
    obtain ⟨position, -, isChange⟩ := Option.map_eq_some_iff.mp accepted
    exact ⟨position, isChange.symm⟩

theorem isOk_iff {Value Error : Type} {outcome : Except Error Value} :
    outcome.isOk = true ↔ ∃ value, outcome = .ok value := by
  refine ⟨exists_of_isOk, ?_⟩
  rintro ⟨value, rfl⟩
  rfl

theorem change?_eq_some_iff {argument : String} {value : setting.Value} :
    setting.command.change? table argument = some (setting.change value) ↔
      setting.Accepts table argument value := by
  cases setting with
  | xfunc | yfunc =>
    refine Option.ite_none_right_eq_some.trans (and_comm.trans (and_congr ?_ isOk_iff))
    constructor
    · rintro ⟨⟩
      rfl
    · rintro rfl
      rfl
  | bounds =>
    refine Iff.trans ?_ domain?_eq_some_iff
    refine Option.map_eq_some_iff.trans ⟨?_, fun given => ⟨value, given, rfl⟩⟩
    rintro ⟨domain, given, ⟨⟩⟩
    exact given
  | point =>
    refine Iff.trans ?_ point?_eq_some_iff
    refine Option.map_eq_some_iff.trans ⟨?_, fun given => ⟨value, given, rfl⟩⟩
    rintro ⟨position, given, ⟨⟩⟩
    exact given

/-- A change of a setting is asked for by its command alone. -/
theorem command_of_change? {command : Command} {argument : String} {value : setting.Value}
    (accepted : command.change? table argument = some (setting.change value)) :
    command = setting.command := by
  cases command with
  | exit | plot | symbols => cases accepted
  | xfunc | yfunc =>
    obtain ⟨-, isChange⟩ := Option.ite_none_right_eq_some.mp accepted
    cases setting <;> cases Option.some_inj.mp isChange
    rfl
  | bounds | point =>
    obtain ⟨_, -, isChange⟩ := Option.map_eq_some_iff.mp accepted
    cases setting <;> cases isChange
    rfl

/-- The value that a line gives a setting. -/
def given? {State : Type} (table : SymbolTable State) (setting : Setting) (line : String) :
    Option setting.Value :=
  (changeOf? table line).bind setting.value?

theorem changeOf?_eq_some_iff {line : String} {value : setting.Value} :
    changeOf? table line = some (setting.change value) ↔ setting.Gives table line value := by
  rw [changeOf?, Option.bind_eq_some_iff]
  constructor
  · rintro ⟨⟨command, argument⟩, isGiven, accepted⟩
    cases command_of_change? accepted
    exact ⟨argument, Command.isLine_of_ofLine? isGiven, change?_eq_some_iff.mp accepted⟩
  · rintro ⟨argument, isLine, accepts⟩
    exact ⟨_, Command.ofLine?_eq_some_iff.mpr isLine, change?_eq_some_iff.mpr accepts⟩

theorem given?_eq_some_iff {line : String} {value : setting.Value} :
    setting.given? table line = some value ↔ setting.Gives table line value := by
  rw [given?, Option.bind_eq_some_iff, ← changeOf?_eq_some_iff]
  simp only [value?_eq_some_iff, exists_eq_right]

/-- A line that is accepted does not fail. -/
theorem ok_of_step {session after : Session State} {line : String} {outcome : Except Failure Unit}
    {change : Change} (step : Step table session line outcome after)
    (accepted : changeOf? table line = some change) : outcome = .ok () := by
  rcases change_of_step step with ⟨_, -, isOk, -⟩ | ⟨unchanged, -⟩
  · exact isOk
  · cases unchanged.symm.trans accepted

/-- A line of the command of a setting that does not fail changes the setting. -/
theorem exists_change_of_step {session after : Session State} {line argument : String}
    (step : Step table session line (.ok ()) after)
    (isCommand : Command.ofLine? line = some (setting.command, argument)) :
    ∃ value, changeOf? table line = some (setting.change value) := by
  cases step with
  | changed accepted =>
    have asks := (changeOf?_of_isCommand isCommand).symm.trans accepted
    obtain ⟨value, rfl⟩ := exists_value_of_change? asks
    exact ⟨value, accepted⟩
  | listed isListing =>
    cases setting <;> cases isCommand.symm.trans isListing
  | answered isExpression _ _ => cases isCommand.symm.trans isExpression
  | drawn isPlot _ _ _ =>
    obtain ⟨_, isPlot⟩ := isPlot
    cases setting <;> cases isCommand.symm.trans isPlot

/-- The lines that give a setting a value are the lines of its command that do not fail. The session
has no say in that. -/
theorem exists_gives_iff (session : Session State) {line : String} :
    (∃ value, setting.Gives table line value) ↔
      setting.command.starts line = true ∧ ((obeyLine table line).run session).1 = .ok () := by
  have step := step_obeyLine table session line
  rw [Command.starts_iff]
  constructor
  · rintro ⟨value, gives⟩
    have isOk := ok_of_step step (changeOf?_eq_some_iff.mpr gives)
    obtain ⟨argument, isLine, -⟩ := gives
    exact ⟨⟨argument, isLine⟩, isOk⟩
  · rintro ⟨⟨argument, isLine⟩, isOk⟩
    rw [isOk] at step
    obtain ⟨value, accepted⟩ := exists_change_of_step step (Command.ofLine?_eq_some_iff.mpr isLine)
    exact ⟨value, changeOf?_eq_some_iff.mp accepted⟩

end Setting

/-! ### The last value that is given -/

/-- A value is the last one that lines give, or the initial one if they give none. -/
inductive IsLast {Value : Type} (gives : String → Value → Prop) (initial : Value) :
    List String → Value → Prop
  | initial {lines : List String} (silent : ∀ line ∈ lines, ∀ value, ¬gives line value) :
      IsLast gives initial lines initial
  | given (before : List String) {line : String} {value : Value} {after : List String}
      (isGiven : gives line value) (silent : ∀ later ∈ after, ∀ other, ¬gives later other) :
      IsLast gives initial (before ++ line :: after) value

section

variable {Value : Type}

/-- The value after lines have been gone through, each of which may put a new one in its place. -/
def overwritten (give? : String → Option Value) (initial : Value) (lines : List String) : Value :=
  lines.foldl (fun value line => (give? line).getD value) initial

theorem overwritten_cons (give? : String → Option Value) (initial : Value) (line : String)
    (rest : List String) :
    overwritten give? initial (line :: rest) = overwritten give? ((give? line).getD initial) rest :=
  rfl

theorem isLast_overwritten {give? : String → Option Value} {gives : String → Value → Prop}
    (isGiven : ∀ line value, give? line = some value ↔ gives line value) (initial : Value)
    (lines : List String) : IsLast gives initial lines (overwritten give? initial lines) := by
  induction lines generalizing initial with
  | nil => exact .initial fun _ isLine => absurd isLine List.not_mem_nil
  | cons line rest inductionHypothesis =>
    have later := inductionHypothesis ((give? line).getD initial)
    rw [overwritten_cons]
    generalize overwritten give? ((give? line).getD initial) rest = final at later
    cases later with
    | given before isGiven silent => exact .given (line :: before) isGiven silent
    | initial silent =>
      cases here : give? line with
      | some value => exact .given [] ((isGiven line value).mp here) silent
      | none =>
        refine .initial fun other isLine value gives => ?_
        rcases List.mem_cons.mp isLine with rfl | isLater
        · cases here.symm.trans ((isGiven _ value).mpr gives)
        · exact silent other isLater value gives

/-- Lines that give nothing can be left out. -/
theorem overwritten_filter {give? : String → Option Value} {keep : String → Bool}
    {lines : List String} (silent : ∀ line ∈ lines, keep line = false → give? line = none)
    (initial : Value) :
    overwritten give? initial (lines.filter keep) = overwritten give? initial lines := by
  induction lines generalizing initial with
  | nil => rfl
  | cons line rest inductionHypothesis =>
    have later (value : Value) := inductionHypothesis
      (fun other isLater => silent other (List.mem_cons_of_mem _ isLater)) value
    rw [overwritten_cons]
    cases kept : keep line with
    | true => rw [List.filter_cons_of_pos kept, overwritten_cons, later]
    | false =>
      rw [List.filter_cons_of_neg (Bool.eq_false_iff.mp kept), later,
        silent line List.mem_cons_self kept, Option.getD_none]

end

/-! ### Settings after lines -/

/-- The settings of a session that was new before it followed the lines, whether they failed or not.
-/
def settingsAfter {State : Type} (table : SymbolTable State) (state : State) (lines : List String) :
    Settings :=
  ((Session.start state).followAll table (lines.map Event.line)).settings

section

variable {State : Type} {table : SymbolTable State}

theorem get_follow (setting : Setting) (session : Session State) (line : String) :
    setting.get (session.follow table (.line line)).settings =
      (setting.given? table line).getD (setting.get session.settings) := by
  have settings := settings_of_step (step_obeyLine table session line)
  rw [Session.follow, settings, Setting.given?]
  cases changeOf? table line with
  | none => rfl
  | some change => exact setting.get_apply session.settings change

theorem get_followAll (setting : Setting) (session : Session State) (lines : List String) :
    setting.get (session.followAll table (lines.map Event.line)).settings =
      overwritten (setting.given? table) (setting.get session.settings) lines := by
  induction lines generalizing session with
  | nil => rfl
  | cons line rest inductionHypothesis =>
    rw [overwritten_cons, ← get_follow]
    exact inductionHypothesis (session.follow table (.line line))

theorem get_settingsAfter (setting : Setting) (state : State) (lines : List String) :
    setting.get (settingsAfter table state lines) =
      overwritten (setting.given? table) (setting.get {}) lines :=
  get_followAll setting (Session.start state) lines

theorem given?_eq_none_of_not_starts {setting : Setting} {line : String}
    (isOther : setting.command.starts line = false) : setting.given? table line = none := by
  rw [Option.eq_none_iff_forall_ne_some]
  intro value given
  obtain ⟨argument, isLine, -⟩ := Setting.given?_eq_some_iff.mp given
  exact Bool.eq_false_iff.mp isOther (Command.starts_iff.mpr ⟨argument, isLine⟩)

theorem given?_eq_none_of_failed {setting : Setting} {session : Session State} {line : String}
    {failure : Failure} (failed : ((obeyLine table line).run session).1 = .error failure) :
    setting.given? table line = none := by
  rw [Option.eq_none_iff_forall_ne_some]
  intro value given
  have gives := Setting.given?_eq_some_iff.mp given
  cases failed.symm.trans ((Setting.exists_gives_iff session).mp ⟨value, gives⟩).2

/-- A setting does not depend on the lines of other commands. -/
theorem get_settingsAfter_filter (setting : Setting) (state : State) (lines : List String) :
    overwritten (setting.given? table) (setting.get {}) (lines.filter setting.command.starts) =
      setting.get (settingsAfter table state lines) := by
  rw [overwritten_filter fun line _ isOther => given?_eq_none_of_not_starts isOther,
    get_settingsAfter]

end

/-- After any lines, whether they fail or not, every setting of a session has the value that the
last accepted line for it gives, and otherwise that of a new session. A line is accepted for a
setting if it is a line of its command and does not fail, which depends on the table and not on the
session. So only the order among the lines of one command matters, and lines that set nothing can be
left out. -/
theorem settings_last_given {State : Type} (table : SymbolTable State) :
    (∀ state lines (setting : Setting),
      IsLast (setting.Gives table) (setting.get {}) lines
        (setting.get (settingsAfter table state lines))) ∧
      (∀ (setting : Setting) line (session : Session State),
        (∃ value, setting.Gives table line value) ↔
          setting.command.starts line = true ∧ ((obeyLine table line).run session).1 = .ok ()) ∧
      (∀ state other first second,
        (∀ setting : Setting,
          first.filter setting.command.starts = second.filter setting.command.starts) →
        settingsAfter table state first = settingsAfter table other second) ∧
      ∀ state lines keep,
        (∀ line ∈ lines, keep line = false →
          (∀ setting : Setting, setting.command.starts line = false) ∨
            ∃ (session : Session State) (failure : Failure),
              ((obeyLine table line).run session).1 = .error failure) →
        settingsAfter table state (lines.filter keep) = settingsAfter table state lines := by
  refine ⟨fun state lines setting => ?_, fun setting line session => setting.exists_gives_iff session,
    fun state other first second same => ?_, fun state lines keep silent => ?_⟩
  · rw [get_settingsAfter]
    exact isLast_overwritten (fun line value => setting.given?_eq_some_iff) _ lines
  · refine Setting.ext fun setting => ?_
    rw [← get_settingsAfter_filter, ← get_settingsAfter_filter, same setting]
  · refine Setting.ext fun setting => ?_
    rw [get_settingsAfter, get_settingsAfter]
    refine overwritten_filter (fun line isLine isLeftOut => ?_) _
    rcases silent line isLine isLeftOut with isOther | ⟨session, failure, failed⟩
    · exact given?_eq_none_of_not_starts (isOther setting)
    · exact given?_eq_none_of_failed failed

/-- A point that lacks a number and a component that cannot be read change nothing. -/
example :
    settingsAfter (standardTable (pure 0.5) : SymbolTable Unit) ()
      ["POINT 1, 2", "XFUNC x +", "POINT 3"] = { point := ⟨1.0, 2.0⟩ } := by
  decide +kernel

end DirectionField
