/-
This file holds expression trees and their string form. Every node may keep the token that it was
read from. The string form tells apart any two trees that differ in more than their tokens.
-/

import DirectionField.Token

namespace DirectionField

/-! ### Trees -/

/-- An expression. A bare node stands for nothing and has no value. -/
inductive Expr
  | number (value : Float) (token : Option Token := none)
  | var (name : String) (token : Option Token := none)
  | const (name : String) (token : Option Token := none)
  | unary (sign : Sign) (operand : Expr) (token : Option Token := none)
  | binary (operator : Operator) (left right : Expr) (token : Option Token := none)
  | call (name : String) (arguments : List Expr) (token : Option Token := none)
  | bare
deriving Inhabited, Repr

namespace Expr

/-- The token that a node was read from. -/
def token? : Expr → Option Token
  | number _ token | var _ token | const _ token => token
  | unary _ _ token | binary _ _ _ token | call _ _ token => token
  | bare => none

/-! ### String form -/

mutual

/-- The string form of an expression. -/
def text : Expr → String
  | number value _ => "Num(" ++ numberText value ++ ")"
  | var name _ => "Var(" ++ name ++ ")"
  | const name _ => "Const(" ++ name ++ ")"
  | unary sign operand _ => "UnaryOp(" ++ sign.symbol ++ operand.text ++ ")"
  | binary operator left right _ =>
    "BinaryOp(" ++ left.text ++ " " ++ operator.symbol ++ " " ++ right.text ++ ")"
  | call name arguments _ => "Call(" ++ name ++ ", [" ++ textOfList arguments ++ "])"
  | bare => "AST"

/-- The string forms of expressions with commas between them. -/
def textOfList : List Expr → String
  | [] => ""
  | first :: rest => first.text ++ textOfRest rest

/-- The string forms of further expressions, each after a comma. -/
def textOfRest : List Expr → String
  | [] => ""
  | next :: rest => ", " ++ next.text ++ textOfRest rest

end

end Expr

end DirectionField
