/-
This file evaluates expressions. Operands and arguments are evaluated from left to right. A call is
checked before its arguments are evaluated: its function has to be in the table and has to take as
many arguments. Functions may change the state, which an error leaves as it has become by then.
-/

import DirectionField.Diagnostic
import DirectionField.Expr
import DirectionField.Symbols

namespace DirectionField

/-! ### Errors -/

/-- Why an expression has no value. -/
inductive EvaluationCause
  | undefinedVariable (name : String)
  | undefinedConstant (name : String)
  | undefinedFunction (name : String)
  | argumentCount (name : String) (arity : Int) (given : Nat)
  | bareNode
deriving DecidableEq, Repr, Inhabited

/-- The message of a cause. -/
def EvaluationCause.message : EvaluationCause → String
  | undefinedVariable name => "Undefined variable \"" ++ name ++ "\""
  | undefinedConstant name => "Undefined constant \"" ++ name ++ "\""
  | undefinedFunction name => "Undefined function \"" ++ name ++ "\""
  | argumentCount name arity given =>
    "\"" ++ name ++ "\" takes " ++ toString arity ++ " argument(s), got " ++ toString given
  | bareNode => "Invalid expression " ++ Expr.bare.text

/-- Why an expression has no value, and the token of the node at fault. -/
structure EvaluationError where
  cause : EvaluationCause
  token : Option Token
deriving DecidableEq, Repr, Inhabited

/-- What is said about an error of evaluation. Without a token it has no place. -/
def EvaluationError.diagnostic (error : EvaluationError) : Diagnostic :=
  match error.token with
  | some token => .ofToken error.cause.message token
  | none => ⟨error.cause.message, "", 0, 0⟩

/-! ### Evaluation -/

/-- A computation that may fail and that may draw from a state. -/
abbrev Evaluation (State : Type) : Type → Type :=
  ExceptT EvaluationError (StateM State)

/-- The values of the bound variables. -/
abbrev Environment : Type :=
  String → Option Float

/-- The environment that binds exactly the two coordinates. -/
def Environment.ofPoint (x y : Float) : Environment := fun name =>
  if name = "x" then some x else if name = "y" then some y else none

section

variable {State : Type}

/-- The value that is present, or the error at a token. -/
def found (value : Option Float) (cause : EvaluationCause) (token : Option Token) :
    Evaluation State Float :=
  match value with
  | some value => pure value
  | none => throw ⟨cause, token⟩

variable (table : SymbolTable State) (environment : Environment)

mutual

/-- Evaluate an expression. -/
def evaluate : Expr → Evaluation State Float
  | .number value _ => pure value
  | .var name token => found (environment name) (.undefinedVariable name) token
  | .const name token => found (table.constant? name) (.undefinedConstant name) token
  | .unary sign operand _ => do
    let value ← evaluate operand
    return sign.apply value
  | .binary operator left right _ => do
    let leftValue ← evaluate left
    let rightValue ← evaluate right
    return operator.apply leftValue rightValue
  | .call name arguments token =>
    match table.function? name with
    | none => throw ⟨.undefinedFunction name, token⟩
    | some function =>
      if (arguments.length : Int) = function.arity then do
        let values ← evaluateAll arguments
        function.apply values
      else
        throw ⟨.argumentCount name function.arity arguments.length, token⟩
  | .bare => throw ⟨.bareNode, none⟩

/-- Evaluate expressions from left to right. -/
def evaluateAll : List Expr → Evaluation State (List Float)
  | [] => pure []
  | first :: rest => do
    let value ← evaluate first
    let values ← evaluateAll rest
    return value :: values

end

end

end DirectionField
