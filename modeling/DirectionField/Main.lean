/-
This file is the command line: it reads lines from the standard input, runs them in a session over
the standard symbol table, and writes what the session prints.
-/

import DirectionField.Session.Run
import DirectionField.Symbols.Standard

namespace DirectionField

/-- Draw a number between zero and one, in multiples of `2 ^ -53`. -/
def drawRandom : StateM StdGen Float := do
  let generator ← get
  let (natural, generator) := randNat generator 0 (powerOfTwo 53 - 1)
  set generator
  return Float.ofNat natural / Float.ofNat (powerOfTwo 53)

/-- Write what a session has printed, and go on with an empty console. -/
def flushPrinted (output : IO.FS.Stream) (session : Session StdGen) : IO (Session StdGen) := do
  output.putStr session.console.printed
  output.flush
  return { session with console := { session.console with printed := "" } }

/-- Respond to lines until the session is left or the input ends. -/
partial def converse (table : SymbolTable StdGen) (input output : IO.FS.Stream)
    (session : Session StdGen) : IO Unit := do
  let session ← flushPrinted output (session.print prompt)
  let line ← input.getLine
  if line.isEmpty then
    return
  let (goesOn, session) := respond table line session
  let session ← flushPrinted output session
  if goesOn then
    converse table input output session

end DirectionField

open DirectionField in
/-- Run a session on the standard input and output. -/
def main : IO Unit := do
  let table := standardTable drawRandom
  let seed ← IO.rand 0 (powerOfTwo 31 - 1)
  let session ← flushPrinted (← IO.getStdout) (opening table (mkStdGen seed))
  converse table (← IO.getStdin) (← IO.getStdout) session
