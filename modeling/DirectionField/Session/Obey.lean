/-
This file says what a session does on a line: it obeys a command, or evaluates an expression and
prints its value. Every command checks first and changes the session last.
-/

import DirectionField.Number.Numeral
import DirectionField.Session
import DirectionField.Text.Separated

namespace DirectionField

/-! ### Arguments -/

/-- The numbers of an argument with commas between them. -/
def numbers? (argument : String) : Option (List Float) :=
  (separatedBy ',' argument.toList).mapM fun part => number? (String.ofList part)

/-- The domain that an argument gives: four numbers, and usable. -/
def domain? (argument : String) : Option Domain :=
  match numbers? argument with
  | some [x0, x1, y0, y1] =>
    let domain : Domain := ⟨x0, x1, y0, y1⟩
    if domain.isUsable then some domain else none
  | _ => none

/-- The point that an argument gives: two numbers. -/
def point? (argument : String) : Option Position :=
  match numbers? argument with
  | some [x, y] => some ⟨x, y⟩
  | _ => none

/-! ### Commands -/

section

variable {State : Type} (table : SymbolTable State)

/-- Read an expression. A fault is printed. -/
def readAnnounced (source : String) : Activity State Expr :=
  onConsole (announce (Expr.ofText table source))

/-- The axes to draw on: the present ones, or new ones if there are none or they are closed. -/
def openAxes : Activity State Axes := do
  let session ← get
  match session.axes with
  | some axes => if axes.isOpen then return axes else renew (axes.figure + 1)
  | none => renew 0
where
  /-- Make new axes. -/
  renew (figure : Nat) : Activity State Axes := do
    let axes : Axes := { figure := figure }
    modify ({ · with axes := some axes })
    return axes

/-- Draw a field on axes. They keep what is on them until the whole picture is complete. -/
def render (canvas : Canvas) (components : Components) (domain : Domain) (axes : Axes) :
    Activity State Unit := do
  let picture ← onConsole (draw table canvas components domain)
  modify ({ · with axes := some { axes with picture := some picture } })

/-- Draw both components over the bounds and show the picture. -/
def plot : Activity State Unit := do
  let settings := (← get).settings
  let xfunc ← readAnnounced table settings.xfunc
  let yfunc ← readAnnounced table settings.yfunc
  let axes ← openAxes
  render table {} ⟨xfunc, yfunc⟩ settings.bounds axes
  let title := "(" ++ settings.xfunc ++ ", " ++ settings.yfunc ++ ")"
  modify fun session =>
    { session with
      axes := session.axes.map (·.entitled title)
      shows := session.shows + 1 }

/-- Obey a command. -/
def obey (command : Command) (argument : String) : Activity State Unit :=
  match command with
  | .exit => throw .exit
  | .plot => plot table
  | .xfunc => do
    let _ ← readAnnounced table argument
    modifySettings ({ · with xfunc := argument })
  | .yfunc => do
    let _ ← readAnnounced table argument
    modifySettings ({ · with yfunc := argument })
  | .bounds =>
    match domain? argument with
    | some domain => modifySettings ({ · with bounds := domain })
    | none => throw (.wrongUsage .bounds)
  | .point =>
    match point? argument with
    | some point => modifySettings ({ · with point := point })
    | none => throw (.wrongUsage .point)
  | .symbols => onConsole (print table.listing)

/-! ### Lines -/

/-- The value of an expression at the point of the session. -/
def valueOfLine (line : String) : Activity State Float := do
  let expr ← readAnnounced table line
  let point := (← get).settings.point
  onConsole (evaluating (evaluate table (.ofPoint point.x point.y) expr))

/-- Obey the command that a line gives, or print the value of the expression that it is. -/
def obeyLine (line : String) : Activity State Unit :=
  match Command.ofLine? line with
  | some (command, argument) => obey table command argument
  | none => do
    let value ← valueOfLine table line
    onConsole (printLine (answerText value))

end

end DirectionField
