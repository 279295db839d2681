/-
This file runs a session over lines of input. Every line is prompted for and stripped; blank lines
are skipped; a failure ends its line, and only leaving and the end of the input end the session.
Faults have been printed when they were met; of any other failure the message is printed here.
-/

import DirectionField.Session.Obey

namespace DirectionField

/-! ### What stops a round -/

/-- How the input ends after its lines: there is no more of it, or it is interrupted. -/
inductive Ending
  | exhausted
  | interrupted
deriving DecidableEq, Repr, Inhabited

/-- What stops a round before its end: its line has failed, or there is no line to read. -/
inductive Stop
  | failed (failure : Failure)
  | ended (ending : Ending)
deriving DecidableEq, Repr, Inhabited

section

variable {State : Type} (table : SymbolTable State)

/-- The session after a round has been stopped, and whether it goes on. Nothing that stops a round
gets past this. -/
def resume (stop : Stop) (session : Session State) : Bool × Session State :=
  match stop with
  | .failed .exit => (false, session)
  | .failed (.fault _) => (true, session)
  | .failed failure => (true, session.printLine failure.message)
  | .ended .exhausted => (false, session)
  | .ended .interrupted => (false, session)

/-! ### Sessions over lines -/

/-- What is printed before a line is read. -/
def prompt : String :=
  "\n>>> "

/-- A new session that has listed its symbols. -/
def opening (state : State) : Session State :=
  (Session.start state).print table.listing

/-- The session after one line of input, and whether it goes on. -/
def respond (line : String) (session : Session State) : Bool × Session State :=
  let line := strip line
  if line = "" then
    (true, session)
  else
    match (obeyLine table line).run session with
    | (.ok (), session) => (true, session)
    | (.error failure, session) => resume (.failed failure) session

/-- Run a session over lines until it is left or the input ends. Returns the session and the lines
that were not read. -/
def runLines (ending : Ending) : List String → Session State → Session State × List String
  | [], session => ((resume (.ended ending) (session.print prompt)).2, [])
  | line :: rest, session =>
    match respond table line (session.print prompt) with
    | (true, session) => runLines ending rest session
    | (false, session) => (session, rest)

/-- Run a new session over lines. -/
def runSession (state : State) (lines : List String) (ending : Ending := .exhausted) :
    Session State × List String :=
  runLines table ending lines (opening table state)

end

end DirectionField
