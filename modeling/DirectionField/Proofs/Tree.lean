/-
This file holds what theorems say about expression trees: a tree without its tokens, and the names
of the variables of a tree, from left to right.
-/

import DirectionField.Expr

namespace DirectionField

namespace Expr

/-! ### Shapes -/

mutual

/-- A tree without its tokens. -/
def shape : Expr → Expr
  | number value _ => number value
  | var name _ => var name
  | const name _ => const name
  | unary sign operand _ => unary sign operand.shape
  | binary operator left right _ => binary operator left.shape right.shape
  | call name arguments _ => call name (shapes arguments)
  | bare => bare

/-- Trees without their tokens. -/
def shapes : List Expr → List Expr
  | [] => []
  | first :: rest => first.shape :: shapes rest

end

theorem shapes_eq_map (trees : List Expr) : shapes trees = trees.map shape := by
  induction trees with
  | nil => rfl
  | cons first rest inductionHypothesis => rw [shapes, inductionHypothesis, List.map_cons]

/-! ### Variables -/

mutual

/-- The names of the variables of a tree, from left to right. -/
def variableNames : Expr → List String
  | var name _ => [name]
  | unary _ operand _ => operand.variableNames
  | binary _ left right _ => left.variableNames ++ right.variableNames
  | call _ arguments _ => variableNamesOfAll arguments
  | number _ _ | const _ _ | bare => []

/-- The names of the variables of trees, from left to right. -/
def variableNamesOfAll : List Expr → List String
  | [] => []
  | first :: rest => first.variableNames ++ variableNamesOfAll rest

end

/-! ### Roots -/

/-- The operator at the root of a tree, if the tree is an operation with two operands. -/
def rootOperator? : Expr → Option Operator
  | binary operator _ _ _ => some operator
  | _ => none

end Expr

end DirectionField
