/-
This file proves that the variables of a tree are those that the tokens of its phrase name, from
left to right. Only a token that is the name of a variable stands for one: marks, numbers and the
names of constants and functions do not, and brackets and commas leave no trace in a tree.
-/

import DirectionField.Proofs.Grammar
import DirectionField.Proofs.Tree

namespace DirectionField

/-! ### Tokens that name a variable -/

section

variable {State : Type}

/-- The variable that a token names. -/
def namedVariable? (table : SymbolTable State) (token : Token) : Option String :=
  match token.lexeme with
  | .name name => if table.isVariable name then some name else none
  | _ => none

variable {table : SymbolTable State}

theorem namedVariable?_of_isMark {kind : Mark} {token : Token} (isMark : token.isMark kind) :
    namedVariable? table token = none := by
  obtain ⟨text, isLexeme⟩ := Token.lexeme_of_isMark isMark
  rw [namedVariable?, isLexeme]

theorem namedVariable?_of_operator? {operator : Operator} {token : Token}
    (isOperator : token.operator? = some operator) : namedVariable? table token = none := by
  obtain ⟨kind, text, isLexeme, -⟩ := Token.lexeme_of_operator? isOperator
  rw [namedVariable?, isLexeme]

theorem namedVariable?_of_sign? {sign : Sign} {token : Token} (isSign : token.sign? = some sign) :
    namedVariable? table token = none := by
  obtain ⟨kind, text, isLexeme, -⟩ := Token.lexeme_of_sign? isSign
  rw [namedVariable?, isLexeme]

theorem namedVariable?_of_isVariable {token : Token} {name : String}
    (isName : token.lexeme = .name name) (isVariable : table.isVariable name = true) :
    namedVariable? table token = some name := by
  rw [namedVariable?, isName]
  exact if_pos isVariable

theorem isVariable_of_namedVariable? {token : Token} {name : String}
    (isNamed : namedVariable? table token = some name) : table.isVariable name = true := by
  unfold namedVariable? at isNamed
  split at isNamed
  · split at isNamed
    · next isVariable =>
      cases isNamed
      exact isVariable
    · cases isNamed
  · cases isNamed

theorem namedVariable?_of_name {token : Token} {name : String} (isName : token.lexeme = .name name)
    (notVariable : table.isVariable name = false) : namedVariable? table token = none := by
  rw [namedVariable?, isName]
  exact if_neg (by rw [notVariable]; exact Bool.false_ne_true)

/-! ### The variables of a tree -/

theorem variableNamesOfAll_eq_flatMap (trees : List Expr) :
    Expr.variableNamesOfAll trees = trees.flatMap Expr.variableNames := by
  induction trees with
  | nil => rfl
  | cons first rest inductionHypothesis =>
    rw [Expr.variableNamesOfAll, inductionHypothesis, List.flatMap_cons]

theorem variableNames_binary {left right : List Token} {token : Token} {operator : Operator}
    {leftTree rightTree : Expr} {kept : Option Token}
    (isOperator : token.operator? = some operator)
    (leftNames : leftTree.variableNames = left.filterMap (namedVariable? table))
    (rightNames : rightTree.variableNames = right.filterMap (namedVariable? table)) :
    (Expr.binary operator leftTree rightTree kept).variableNames =
      (left ++ token :: right).filterMap (namedVariable? table) := by
  rw [Expr.variableNames, leftNames, rightNames, List.filterMap_append,
    List.filterMap_cons_none (namedVariable?_of_operator? isOperator)]

/-- The variables of the tree of a phrase are those that its tokens name, in the same order. -/
theorem variableNames_of_derives {level : Level} {tokens : List Token} {tree : Expr}
    (derived : Derives table level tokens tree) :
    tree.variableNames = tokens.filterMap (namedVariable? table) := by
  induction derived with
  | sum isOperator _ _ _ leftNames rightNames =>
    exact variableNames_binary isOperator leftNames rightNames
  | product isOperator _ _ _ leftNames rightNames =>
    exact variableNames_binary isOperator leftNames rightNames
  | power isOperator _ _ leftNames rightNames =>
    exact variableNames_binary isOperator leftNames rightNames
  | ofProduct _ names | ofPower _ names | ofSigned _ names | ofPrimary _ names => exact names
  | signed isSign _ names =>
    rw [Expr.variableNames, List.filterMap_cons_none (namedVariable?_of_sign? isSign)]
    exact names
  | number isNumber =>
    rw [List.filterMap_cons_none (by rw [namedVariable?, isNumber])]
    rfl
  | var isName isVariable =>
    rw [List.filterMap_cons_some (namedVariable?_of_isVariable isName isVariable)]
    rfl
  | const isName notVariable _ =>
    rw [List.filterMap_cons_none (namedVariable?_of_name isName notVariable)]
    rfl
  | call isName notVariable _ _ isOpening isClosing _ separated _ names =>
    rw [Expr.variableNames, variableNamesOfAll_eq_flatMap,
      flatMap_of_separated (fun _ => namedVariable?_of_isMark) separated names, List.cons_append,
      List.cons_append, List.filterMap_cons_none (namedVariable?_of_name isName notVariable),
      List.filterMap_cons_none (namedVariable?_of_isMark isOpening), List.filterMap_append,
      List.filterMap_cons_none (namedVariable?_of_isMark isClosing), List.filterMap_nil,
      List.append_nil]
  | brackets isOpening isClosing _ names =>
    rw [names, List.cons_append, List.filterMap_cons_none (namedVariable?_of_isMark isOpening),
      List.filterMap_append, List.filterMap_cons_none (namedVariable?_of_isMark isClosing),
      List.filterMap_nil, List.append_nil]

end

end DirectionField
