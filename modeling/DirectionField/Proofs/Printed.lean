/-
This file says what a line prints. Whatever has been printed before makes no difference to a line:
it takes the same course, and adds its own text at the end. If it fails, that text is the report of
a fault, or nothing at all.

That a line cannot see what has been printed is shown step by step, because the session it works on
has this text in it. What it adds is told by the ways in which a line can end.
-/

import DirectionField.Proofs.Dispatch
import DirectionField.Proofs.Drawing

namespace DirectionField

/-! ### Actions that add to what is printed -/

/-- The session with another text on its console. -/
def Session.withPrinted {State : Type} (session : Session State) (printed : String) :
    Session State :=
  { session with console := { session.console with printed := printed } }

/-- An action takes the same course whatever has been printed before, and adds to it. -/
def Appends {State Result : Type} (action : Action State Result) : Prop :=
  ∀ state, ∃ outcome after text, ∀ printed,
    action.run ⟨state, printed⟩ = (outcome, ⟨after, printed ++ text⟩)

section

variable {State Result : Type}

theorem Ends.appends {action : Action State Result} {failure? : Option Failure}
    (ends : Ends action failure?) : Appends action := by
  intro state
  cases failure? with
  | none =>
    obtain ⟨result, after, ran⟩ := ends state
    refine ⟨.ok result, after, "", fun printed => ?_⟩
    rw [ran, String.append_empty]
  | some failure =>
    obtain ⟨after, ran⟩ := ends state
    exact ⟨.error failure, after, failure.announcement, ran⟩

end

/-! ### Activities that add to what is printed -/

/-- From a session, an activity takes the same course whatever has been printed before, and adds to
it. -/
def Adds {State Result : Type} (activity : Activity State Result) (session : Session State) : Prop :=
  ∃ outcome after text, ∀ printed,
    activity.run (session.withPrinted printed) =
      (outcome, Session.withPrinted after (printed ++ text))

namespace Adds

variable {State Value Result : Type} {session : Session State}

theorem of_quiet {activity : Activity State Result} (outcome : Except Failure Result)
    (after : Session State)
    (ran : ∀ printed,
      activity.run (session.withPrinted printed) = (outcome, after.withPrinted printed)) :
    Adds activity session := by
  refine ⟨outcome, after, "", fun printed => ?_⟩
  rw [ran, String.append_empty]

theorem throw (failure : Failure) (session : Session State) :
    Adds (throw failure : Activity State Result) session :=
  .of_quiet (.error failure) session fun _ => rfl

theorem modify {change : Session State → Session State}
    (blind : ∀ printed, change (session.withPrinted printed) = (change session).withPrinted printed) :
    Adds (modify change) session :=
  .of_quiet (.ok ()) (change session) fun printed => congrArg (Except.ok (), ·) (blind printed)

theorem onConsole {action : Action State Result} (appends : Appends action)
    (session : Session State) : Adds (onConsole action) session := by
  obtain ⟨outcome, after, text, ran⟩ := appends session.console.state
  refine ⟨outcome, session.withState after, text, fun printed => ?_⟩
  have onSession := run_onConsole action (session.withPrinted printed)
  rw [show action.run (session.withPrinted printed).console = _ from ran printed] at onSession
  exact onSession

theorem bind {first : Activity State Value} {next : Value → Activity State Result}
    (adds : Adds first session) (nextAdds : ∀ value session, Adds (next value) session) :
    Adds (first >>= next) session := by
  obtain ⟨outcome, between, text, ran⟩ := adds
  cases outcome with
  | error failure =>
    exact ⟨.error failure, between, text, fun printed => run_bind_of_error (ran printed)⟩
  | ok value =>
    obtain ⟨outcome, after, more, ranNext⟩ := nextAdds value between
    refine ⟨outcome, after, text ++ more, fun printed => ?_⟩
    rw [run_bind_of_ok (ran printed), ranNext, String.append_assoc]

end Adds

section

variable {State : Type} (table : SymbolTable State)

end

/-! ### What a line prints -/

/-- What is printed while a line is obeyed. -/
def said {State : Type} (table : SymbolTable State) (session : Session State) (line : String) :
    String :=
  ((obeyLine table line).run (session.withPrinted "")).2.console.printed

section

variable {State : Type} {table : SymbolTable State} {session after : Session State} {line : String}
  {failure : Failure}

theorem Ends.printed {Result : Type} {action : Action State Result} {failure? : Option Failure}
    {console final : Console State} (ends : Ends action failure?)
    (ran : action.run console = (.error failure, final)) :
    final.printed = console.printed ++ failure.announcement := by
  rw [ends.eq_some ran] at ends
  obtain ⟨state, failed⟩ := ends console.state
  cases (failed console.printed).symm.trans ran
  rfl

end

end DirectionField
