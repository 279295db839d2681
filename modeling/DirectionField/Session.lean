/-
This file holds the state of a session: the settings, the axes that the last picture was drawn on,
and the console. Actions on the console are actions on the session.
-/

import DirectionField.Field.Picture

namespace DirectionField

/-! ### The state of a session -/

/-- Axes in a figure of their own. Closed axes keep their picture. -/
structure Axes where
  figure : Nat
  isOpen : Bool := true
  picture : Option Picture := none
deriving DecidableEq, Repr, Inhabited

/-- The axes with a title over their picture. -/
def Axes.entitled (axes : Axes) (title : String) : Axes :=
  { axes with picture := axes.picture.map ({ · with title := title }) }

/-- The settings: the texts of both components, the domain that is drawn, and the point at which
plain expressions are evaluated. -/
structure Settings where
  xfunc : String := "cos(y + (pi / 2))^2"
  yfunc : String := "sin(x)^2"
  bounds : Domain := ⟨-5.0, 5.0, -5.0, 5.0⟩
  point : Position := ⟨0.0, 0.0⟩
deriving DecidableEq, Repr, Inhabited

/-- The state of a session. -/
structure Session (State : Type) where
  settings : Settings := {}
  axes : Option Axes := none
  shows : Nat := 0
  console : Console State

namespace Session

variable {State Result : Type}

/-- A new session, given the state of the functions. -/
def start (state : State) : Session State :=
  { console := { state := state } }

/-- The session after its figure has been closed. -/
def closeFigure (session : Session State) : Session State :=
  { session with axes := session.axes.map ({ · with isOpen := false }) }

/-- The session after a text has been printed. -/
def print (session : Session State) (text : String) : Session State :=
  { session with console := session.console.print text }

/-- The session after a text and the end of its line have been printed. -/
def printLine (session : Session State) (text : String) : Session State :=
  { session with console := session.console.printLine text }

end Session

/-! ### Activities -/

/-- A computation that works on a session and may fail. A failure undoes nothing. -/
abbrev Activity (State : Type) : Type → Type :=
  ExceptT Failure (StateM (Session State))

/-- Run an action on the console of the session. -/
def onConsole {State Result : Type} (action : Action State Result) : Activity State Result := do
  let session ← get
  let (outcome, console) := action.run session.console
  set { session with console := console }
  outcome

/-- Change the settings. -/
def modifySettings {State : Type} (change : Settings → Settings) : Activity State Unit :=
  modify fun session => { session with settings := change session.settings }

end DirectionField
