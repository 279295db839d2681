/-
This file lays out the report of an error that has a place in a source text: the source on a line
of its own, carets under the offending characters, and the message.
-/

import DirectionField.Token

namespace DirectionField

/-- A message about some characters of a source text. -/
structure Diagnostic where
  message : String
  source : String
  index : Int
  length : Int
deriving DecidableEq, Repr, Inhabited

namespace Diagnostic

/-- A message about the characters of a token. -/
def ofToken (message : String) (token : Token) : Diagnostic :=
  ⟨message, token.source, token.index, token.length⟩

/-- A text of one character repeated; a negative count gives the empty text. -/
def repeated (character : Char) (count : Int) : String :=
  String.ofList (List.replicate count.toNat character)

/-- The line of carets under the offending characters, indented as far as the source itself. -/
def underline (diagnostic : Diagnostic) : String :=
  repeated ' ' 7 ++ repeated ' ' diagnostic.index ++ repeated '^' diagnostic.length

/-- The report starts on a fresh line. -/
def report (diagnostic : Diagnostic) : String :=
  "\nERROR: " ++ diagnostic.source ++ "\n" ++ diagnostic.underline ++ "\n" ++ diagnostic.message

end Diagnostic

end DirectionField
