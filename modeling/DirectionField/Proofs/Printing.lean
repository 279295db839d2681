/-
This file proves that reading undoes printing. A tree is printed by writing its operators between
their operands, with brackets around an operand where the tree would be another one without them.
Any subtree may have further brackets around it. Whatever brackets are chosen, the printed tokens
are read as the tree that was printed.

A subtree with brackets around it is a primary. A subtree without brackets belongs to the layer of
its root, and brackets are needed exactly where that layer is looser than the one that the operator
outside of it asks for.
-/

import DirectionField.Proofs.Completeness
import DirectionField.Proofs.Tree
import DirectionField.Symbols.Standard

namespace DirectionField

/-! ### Trees that can be read -/

/-- The names of a tree refer to what they stand for, and calls have as many arguments as the arity
says. -/
inductive WellFormed {State : Type} (table : SymbolTable State) : Expr → Prop
  | number {value : Float} {kept : Option Token} : WellFormed table (.number value kept)
  | var {name : String} {kept : Option Token} (isVariable : table.isVariable name = true) :
      WellFormed table (.var name kept)
  | const {name : String} {kept : Option Token} (notVariable : table.isVariable name = false)
      (isConstant : (table.constant? name).isSome = true) :
      WellFormed table (.const name kept)
  | unary {sign : Sign} {operand : Expr} {kept : Option Token}
      (operandFormed : WellFormed table operand) :
      WellFormed table (.unary sign operand kept)
  | binary {operator : Operator} {left right : Expr} {kept : Option Token}
      (leftFormed : WellFormed table left) (rightFormed : WellFormed table right) :
      WellFormed table (.binary operator left right kept)
  | call {name : String} {function : Function State} {arguments : List Expr} {kept : Option Token}
      (notVariable : table.isVariable name = false) (notConstant : table.constant? name = none)
      (isFunction : table.function? name = some function)
      (count : (arguments.length : Int) = function.arity)
      (each : ∀ argument ∈ arguments, WellFormed table argument) :
      WellFormed table (.call name arguments kept)

/-! ### Where brackets are needed -/

namespace Operator

/-- Whether a left operand needs brackets, given the operator at its root. -/
def bracketsLeft : Operator → Operator → Bool
  | add, _ | subtract, _ => false
  | multiply, inner | divide, inner => inner == add || inner == subtract
  | power, _ => true

/-- Whether a right operand needs brackets, given the operator at its root. -/
def bracketsRight : Operator → Operator → Bool
  | add, inner | subtract, inner => inner == add || inner == subtract
  | multiply, inner | divide, inner | power, inner => inner != power

end Operator

/-! ### Printed trees -/

/-- A printed subtree: the tree, the number of pairs of brackets around it, and the tokens. -/
structure Printed where
  tree : Expr
  pairs : Nat
  tokens : List Token

/-- A tree may be printed, with a number of pairs of brackets around it, as some tokens. -/
inductive Prints : Expr → Nat → List Token → Prop
  | number {value : Float} {kept : Option Token} {token : Token}
      (isNumber : token.lexeme = .number value) : Prints (.number value kept) 0 [token]
  | var {name : String} {kept : Option Token} {token : Token}
      (isName : token.lexeme = .name name) : Prints (.var name kept) 0 [token]
  | const {name : String} {kept : Option Token} {token : Token}
      (isName : token.lexeme = .name name) : Prints (.const name kept) 0 [token]
  | unary {sign : Sign} {operand : Expr} {kept : Option Token} {token : Token} {pairs : Nat}
      {tokens : List Token} (isSign : token.sign? = some sign)
      (printed : Prints operand pairs tokens)
      (bracketed : ∀ inner, operand.rootOperator? = some inner → 0 < pairs) :
      Prints (.unary sign operand kept) 0 (token :: tokens)
  | binary {operator : Operator} {left right : Expr} {kept : Option Token} {token : Token}
      {leftPairs rightPairs : Nat} {leftTokens rightTokens : List Token}
      (isOperator : token.operator? = some operator)
      (leftPrinted : Prints left leftPairs leftTokens)
      (rightPrinted : Prints right rightPairs rightTokens)
      (leftBracketed : ∀ inner, left.rootOperator? = some inner →
        operator.bracketsLeft inner = true → 0 < leftPairs)
      (rightBracketed : ∀ inner, right.rootOperator? = some inner →
        operator.bracketsRight inner = true → 0 < rightPairs) :
      Prints (.binary operator left right kept) 0 (leftTokens ++ token :: rightTokens)
  | call {name : String} {kept : Option Token} {token opening closing : Token}
      {inside : List Token} {pieces : List Printed} (isName : token.lexeme = .name name)
      (isOpening : opening.isMark .opening) (isClosing : closing.isMark .closing)
      (separated : Separated (pieces.map Printed.tokens) inside)
      (each : ∀ piece ∈ pieces, Prints piece.tree piece.pairs piece.tokens) :
      Prints (.call name (pieces.map Printed.tree) kept) 0 (token :: opening :: inside ++ [closing])
  | brackets {tree : Expr} {opening closing : Token} {pairs : Nat} {tokens : List Token}
      (isOpening : opening.isMark .opening) (isClosing : closing.isMark .closing)
      (printed : Prints tree pairs tokens) :
      Prints tree (pairs + 1) (opening :: tokens ++ [closing])

/-! ### Layers of printed trees -/

/-- The layer of the root of a tree. -/
def Expr.level : Expr → Level
  | .binary operator _ _ _ => operator.level
  | .unary _ _ _ => .signed
  | _ => .primary

/-- The layer of a tree with some pairs of brackets around it. -/
def printedLevel (tree : Expr) (pairs : Nat) : Level :=
  if 0 < pairs then .primary else tree.level

/-- An operand has the layer that is asked for if it has that layer without brackets, or has
brackets. -/
theorem rank_le_printedLevel (level : Level) {tree : Expr} {pairs : Nat}
    (low : level.rank ≤ Level.signed.rank)
    (bracketed : ∀ inner, tree.rootOperator? = some inner → inner.level.rank < level.rank →
      0 < pairs) :
    level.rank ≤ (printedLevel tree pairs).rank := by
  unfold printedLevel
  split
  · exact level.rank_le_primary
  · next bare =>
    cases tree with
    | binary operator left right kept =>
      exact Nat.le_of_not_lt fun looser => bare (bracketed operator rfl looser)
    | unary sign operand kept => exact low
    | number | var | const | call | bare => exact level.rank_le_primary

namespace Operator

theorem bracketsLeft_of_lt {operator inner : Operator}
    (looser : inner.level.rank < operator.leftLevel.rank) :
    operator.bracketsLeft inner = true := by
  revert looser
  cases operator <;> cases inner <;> decide

theorem bracketsRight_of_lt {operator inner : Operator}
    (looser : inner.level.rank < operator.rightLevel.rank) :
    operator.bracketsRight inner = true := by
  revert looser
  cases operator <;> cases inner <;> decide

theorem rank_rightLevel_le_signed (operator : Operator) :
    operator.rightLevel.rank ≤ Level.signed.rank := by
  cases operator <;> decide

end Operator

/-! ### Printed trees are phrases -/

section

variable {State : Type} {table : SymbolTable State}

/-- Some phrase of the layer consists of the tokens, and its tree is the given one up to tokens. -/
def DerivesShape (table : SymbolTable State) (level : Level) (tokens : List Token)
    (tree : Expr) : Prop :=
  ∃ found, Derives table level tokens found ∧ found.shape = tree.shape

theorem DerivesShape.loosen {low high : Level} {tokens : List Token} {tree : Expr}
    (phrase : DerivesShape table high tokens tree) (looser : low.rank ≤ high.rank) :
    DerivesShape table low tokens tree := by
  obtain ⟨found, derived, same⟩ := phrase
  exact ⟨found, derived.loosen looser, same⟩

/-- Pieces that are sums up to tokens are the arguments of a list. -/
theorem exists_arguments {pieces : List Printed}
    (each : ∀ piece ∈ pieces, DerivesShape table .sum piece.tokens piece.tree) :
    ∃ arguments : List (List Token × Expr),
      arguments.map Prod.fst = pieces.map Printed.tokens ∧
      (arguments.map Prod.snd).map Expr.shape = (pieces.map Printed.tree).map Expr.shape ∧
      ∀ argument ∈ arguments, Derives table .sum argument.1 argument.2 := by
  induction pieces with
  | nil => exact ⟨[], rfl, rfl, nofun⟩
  | cons piece rest inductionHypothesis =>
    obtain ⟨⟨found, derived, same⟩, remaining⟩ := List.forall_mem_cons.mp each
    obtain ⟨arguments, sameTokens, sameTrees, eachDerived⟩ := inductionHypothesis remaining
    refine ⟨(piece.tokens, found) :: arguments, ?_, ?_,
      List.forall_mem_cons.mpr ⟨derived, eachDerived⟩⟩
    · rw [List.map_cons, sameTokens, List.map_cons]
    · simp only [List.map_cons, same, sameTrees]

/-- A printed tree is a phrase of the layer that its brackets give it. -/
theorem derivesShape_of_prints {tree : Expr} {pairs : Nat} {tokens : List Token}
    (prints : Prints tree pairs tokens) (formed : WellFormed table tree) :
    DerivesShape table (printedLevel tree pairs) tokens tree := by
  induction prints with
  | number isNumber => exact ⟨_, .number isNumber, rfl⟩
  | var isName =>
    cases formed with
    | var isVariable => exact ⟨_, .var isName isVariable, rfl⟩
  | const isName =>
    cases formed with
    | const notVariable isConstant => exact ⟨_, .const isName notVariable isConstant, rfl⟩
  | unary isSign printed bracketed inductionHypothesis =>
    cases formed with
    | unary operandFormed =>
      obtain ⟨found, derived, same⟩ := (inductionHypothesis operandFormed).loosen
        (rank_le_printedLevel .signed (Nat.le_refl _) fun inner root _ => bracketed inner root)
      exact ⟨_, .signed isSign derived, by rw [Expr.shape, same, Expr.shape]⟩
  | binary isOperator leftPrinted rightPrinted leftBracketed rightBracketed leftHypothesis
      rightHypothesis =>
    cases formed with
    | binary leftFormed rightFormed =>
      obtain ⟨leftFound, leftDerived, leftSame⟩ := (leftHypothesis leftFormed).loosen
        (rank_le_printedLevel _ (Operator.rank_leftLevel_le_signed _) fun inner root looser =>
          leftBracketed inner root (Operator.bracketsLeft_of_lt looser))
      obtain ⟨rightFound, rightDerived, rightSame⟩ := (rightHypothesis rightFormed).loosen
        (rank_le_printedLevel _ (Operator.rank_rightLevel_le_signed _) fun inner root looser =>
          rightBracketed inner root (Operator.bracketsRight_of_lt looser))
      exact ⟨_, .binary isOperator leftDerived rightDerived,
        by rw [Expr.shape, leftSame, rightSame, Expr.shape]⟩
  | call isName isOpening isClosing separated each inductionHypothesis =>
    cases formed with
    | call notVariable notConstant isFunction count eachFormed =>
      obtain ⟨arguments, sameTokens, sameTrees, eachDerived⟩ := exists_arguments
        fun piece member => (inductionHypothesis piece member
          (eachFormed piece.tree (List.mem_map_of_mem member))).loosen (Level.rank_sum_le _)
      have sameCount := congrArg List.length sameTokens
      simp only [List.length_map] at sameCount count
      refine ⟨_, .call isName notVariable notConstant isFunction isOpening isClosing
        (by omega) (sameTokens ▸ separated) eachDerived, ?_⟩
      rw [Expr.shape, Expr.shapes_eq_map, sameTrees, Expr.shape, Expr.shapes_eq_map]
  | brackets isOpening isClosing printed inductionHypothesis =>
    obtain ⟨found, derived, same⟩ := (inductionHypothesis formed).loosen (Level.rank_sum_le _)
    exact ⟨found, .brackets isOpening isClosing derived, same⟩

/-- Reading undoes printing. Whatever brackets a well-formed tree is printed with, at least where
they are needed, the printed tokens are read as that tree. -/
theorem ofTokens_of_prints {tree : Expr} {pairs : Nat} {tokens : List Token}
    (formed : WellFormed table tree) (prints : Prints tree pairs tokens) (source : String) :
    ∃ found, Expr.ofTokens table tokens source = .ok found ∧ found.shape = tree.shape := by
  obtain ⟨found, derived, same⟩ := (derivesShape_of_prints prints formed).loosen (Level.rank_sum_le _)
  exact ⟨found, ofTokens_eq_ok_iff.mpr (readAll_eq_ok_iff.mpr derived), same⟩

end

/-- The printed form `x-(pi-abs((-2^3)))` has a pair of brackets that is needed and one that is
not. -/
theorem ofTokens_of_prints_difference :
    let table : SymbolTable Unit := standardTable (pure 0.5)
    let name (text : String) : Token := ⟨.name text, "", 0, 1⟩
    let mark (kind : Mark) : Token := ⟨.mark kind "", "", 0, 1⟩
    let number (value : Float) : Token := ⟨.number value, "", 0, 1⟩
    let cube : Expr := .binary .power (.unary .minus (.number 2.0)) (.number 3.0)
    let tree : Expr :=
      .binary .subtract (.var "x") (.binary .subtract (.const "pi") (.call "abs" [cube]))
    let tokens : List Token :=
      [name "x", mark .minus, mark .opening, name "pi", mark .minus, name "abs", mark .opening,
        mark .opening, mark .minus, number 2.0, mark .caret, number 3.0, mark .closing,
        mark .closing, mark .closing]
    WellFormed table tree ∧ Prints tree 0 tokens ∧
      ∃ found, Expr.ofTokens table tokens "" = .ok found ∧ found.shape = tree.shape := by
  intro table name mark number cube tree tokens
  have cubeFormed : WellFormed table cube := .binary (.unary .number) .number
  have formed : WellFormed table tree := by
    refine .binary (.var rfl) (.binary (.const rfl rfl) (.call rfl rfl rfl rfl ?_))
    exact List.forall_mem_singleton.mpr cubeFormed
  have cubePrints : Prints cube 0 ([mark .minus, number 2.0] ++ mark .caret :: [number 3.0]) :=
    .binary rfl (.unary rfl (.number rfl) nofun) (.number rfl) nofun nofun
  let argument : Printed :=
    ⟨cube, 1, [mark .opening, mark .minus, number 2.0, mark .caret, number 3.0, mark .closing]⟩
  have separated : Separated ([argument].map Printed.tokens) (argument.tokens ++ []) := .cons .nil
  have each : ∀ piece ∈ [argument], Prints piece.tree piece.pairs piece.tokens :=
    List.forall_mem_singleton.mpr (.brackets rfl rfl cubePrints)
  have callPrints : Prints (.call "abs" [cube]) 0
      (name "abs" :: mark .opening :: (argument.tokens ++ []) ++ [mark .closing]) :=
    .call rfl rfl rfl separated each
  have rightPrints : Prints (.binary .subtract (.const "pi") (.call "abs" [cube])) 0
      ([name "pi"] ++ mark .minus ::
        (name "abs" :: mark .opening :: (argument.tokens ++ []) ++ [mark .closing])) :=
    .binary rfl (.const rfl) callPrints nofun nofun
  have prints :
      Prints tree 0 ([name "x"] ++ mark .minus :: (mark .opening :: _ ++ [mark .closing])) :=
    .binary rfl (.var rfl) (.brackets rfl rfl rightPrints) nofun fun _ _ _ => Nat.one_pos
  exact ⟨formed, prints, ofTokens_of_prints formed prints ""⟩

end DirectionField
