/-
This file holds tokens. A token is a lexeme together with its place: the text it was read from, the
index of its first character and the number of its characters. Tokens may also be made by hand,
with any place and with marks of any text.
-/

import DirectionField.Expr.Operator
import DirectionField.Number.Written

namespace DirectionField

/-! ### Lexemes -/

/-- The kinds of marks: brackets, operators and the comma. -/
inductive Mark
  | opening
  | closing
  | plus
  | minus
  | star
  | slash
  | caret
  | comma
deriving DecidableEq, Repr, Inhabited

namespace Mark

/-- The sign that a mark is in front of an operand. -/
def sign? : Mark → Option Sign
  | plus => some .plus
  | minus => some .minus
  | _ => none

/-- The operator that a mark is between two operands. -/
def operator? : Mark → Option Operator
  | plus => some .add
  | minus => some .subtract
  | star => some .multiply
  | slash => some .divide
  | caret => some .power
  | _ => none

end Mark

/-- The smallest units of an expression: numbers, names and marks. -/
inductive Lexeme
  | number (value : Float)
  | name (text : String)
  | mark (kind : Mark) (text : String)
deriving DecidableEq, Repr, Inhabited

/-- The text of a lexeme; that of a number is the text of its value. -/
def Lexeme.text : Lexeme → String
  | number value => numberText value
  | name text => text
  | mark _ text => text

/-! ### Tokens -/

/-- A lexeme with its place. -/
structure Token where
  lexeme : Lexeme
  source : String := ""
  index : Int := 0
  length : Int := lexeme.text.length
deriving DecidableEq, Repr, Inhabited

namespace Token

/-- Whether a token is a mark of the given kind. -/
def isMark (kind : Mark) (token : Token) : Bool :=
  match token.lexeme with
  | .mark found _ => found == kind
  | _ => false

/-- The sign that a token is in front of an operand. -/
def sign? (token : Token) : Option Sign :=
  match token.lexeme with
  | .mark kind _ => kind.sign?
  | _ => none

/-- The operator that a token is between two operands. -/
def operator? (token : Token) : Option Operator :=
  match token.lexeme with
  | .mark kind _ => kind.operator?
  | _ => none

theorem lexeme_of_isMark {token : Token} {kind : Mark} (isMark : token.isMark kind) :
    ∃ text, token.lexeme = .mark kind text := by
  unfold Token.isMark at isMark
  split at isMark
  · next found text isLexeme =>
    exact ⟨text, by rw [isLexeme, beq_iff_eq.mp isMark]⟩
  · cases isMark

theorem lexeme_of_sign? {token : Token} {sign : Sign} (isSign : token.sign? = some sign) :
    ∃ kind text, token.lexeme = .mark kind text ∧ kind.sign? = some sign := by
  unfold Token.sign? at isSign
  split at isSign
  · next kind text isLexeme => exact ⟨kind, text, isLexeme, isSign⟩
  · cases isSign

theorem lexeme_of_operator? {token : Token} {operator : Operator}
    (isOperator : token.operator? = some operator) :
    ∃ kind text, token.lexeme = .mark kind text ∧ kind.operator? = some operator := by
  unfold Token.operator? at isOperator
  split at isOperator
  · next kind text isLexeme => exact ⟨kind, text, isLexeme, isOperator⟩
  · cases isOperator

/-- The index after the last character of a token. -/
def finish (token : Token) : Int :=
  token.index + token.length

end Token

end DirectionField
