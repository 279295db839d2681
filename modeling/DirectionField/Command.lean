/-
This file holds the commands of a session. A line is a command if it starts with the word of one;
what follows the word is the argument, without blanks at its ends.
-/

import DirectionField.Text.Blank

namespace DirectionField

/-- The commands, in the order in which their words are looked for. -/
inductive Command
  | exit
  | plot
  | xfunc
  | yfunc
  | bounds
  | point
  | symbols
deriving DecidableEq, Repr, Inhabited

namespace Command

/-- All commands. -/
def all : List Command :=
  [exit, plot, xfunc, yfunc, bounds, point, symbols]

/-- The word that a line of the command starts with. -/
def word : Command → String
  | exit => "EXIT"
  | plot => "PLOT"
  | xfunc => "XFUNC"
  | yfunc => "YFUNC"
  | bounds => "BOUNDS"
  | point => "POINT"
  | symbols => "SYMBOLS"

/-- The form of a line of the command. -/
def form : Command → String
  | exit => "EXIT"
  | plot => "PLOT"
  | xfunc => "XFUNC <expression>"
  | yfunc => "YFUNC <expression>"
  | bounds => "BOUNDS <x0>, <x1>, <y0>, <y1>"
  | point => "POINT <x>, <y>"
  | symbols => "SYMBOLS"

/-- What a line has to look like, after one that does not. -/
def usage (command : Command) : String :=
  "Syntax error. Correct usage:\n  " ++ command.form

/-- The argument of a line that starts with the word of a command. -/
def argument? (command : Command) (line : String) : Option String :=
  (command.word.toList.isPrefixOf? line.toList).map fun rest => String.ofList (stripBlanks rest)

/-- The command that a line gives, with its argument. -/
def ofLine? (line : String) : Option (Command × String) :=
  all.findSome? fun command => (command.argument? line).map (command, ·)

end Command

end DirectionField
