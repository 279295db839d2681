/-
This file holds the failures of actions, by their causes, and what is said about each.
-/

import DirectionField.Command
import DirectionField.Expr.OfText
import DirectionField.Field.Domain

namespace DirectionField

/-- Why an action failed. Leaving the session counts as a failure, for it ends a line early. -/
inductive Failure
  | fault (cause : Fault)
  | unusableDomain (domain : Domain)
  | noDiameter
  | negativeCount (count : Int)
  | wrongUsage (command : Command)
  | exit
deriving DecidableEq, Repr, Inhabited

/-- What is said about a failure. -/
def Failure.message : Failure → String
  | .fault cause => cause.diagnostic.report
  | .unusableDomain domain => domain.complaint
  | .noDiameter => "integer division or modulo by zero"
  | .negativeCount count =>
    "Number of samples, " ++ toString count ++ ", must be non-negative."
  | .wrongUsage command => command.usage
  | .exit => ""

end DirectionField
