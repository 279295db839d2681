/-
This file holds actions: what computes with the state of the functions, prints, and may fail. A
failure undoes nothing. A fault is printed when it is met.
-/

import DirectionField.Failure

namespace DirectionField

/-- What an action changes: the state of the functions, and the text printed so far. -/
structure Console (State : Type) where
  state : State
  printed : String := ""
deriving DecidableEq, Repr, Inhabited

/-- A computation that works on a console and may fail. -/
abbrev Action (State : Type) : Type → Type :=
  ExceptT Failure (StateM (Console State))

namespace Console

variable {State Result : Type}

/-- The console after a text has been printed. -/
def print (console : Console State) (text : String) : Console State :=
  { console with printed := console.printed ++ text }

/-- The console after a text and the end of its line have been printed. -/
def printLine (console : Console State) (text : String) : Console State :=
  console.print (text ++ "\n")

end Console

section

variable {State Result : Type}

/-- Print a text. -/
def print (text : String) : Action State Unit :=
  modify (·.print text)

/-- Print a text and end the line. -/
def printLine (text : String) : Action State Unit :=
  modify (·.printLine text)

/-- Go on with the result of a step, or print its fault and fail. -/
def announce (outcome : Except Fault Result) : Action State Result :=
  match outcome with
  | .ok result => return result
  | .error fault => do
    printLine fault.diagnostic.report
    throw (.fault fault)

/-- Evaluate with the state of the console. A fault is printed. -/
def evaluating (evaluation : Evaluation State Result) : Action State Result := do
  let console ← get
  let (outcome, state) := evaluation.run console.state
  set { console with state := state }
  announce (outcome.mapError .evaluating)

end

end DirectionField
