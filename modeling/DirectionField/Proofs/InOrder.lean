/-
This file proves that reading keeps every token in its place. From left to right, the nodes of a
tree keep the tokens of its phrase, each of them once: only brackets and commas leave no trace. And
what a node says is what its token says.

However the operators of a chain are folded, a fold hangs the node of an operator between the tree
of what stands before it and the tree of what stands after it. So the order of the tokens is that of
a walk through the tree in which the token of an operator comes between its operands, and that of a
sign or of a function comes first.
-/

import DirectionField.Proofs.Nodes

namespace DirectionField

/-! ### Tokens that are kept -/

namespace Token

/-- Whether a token is kept by a node. Brackets and commas are not. -/
def isKept (token : Token) : Bool :=
  !(token.isMark .opening || token.isMark .closing || token.isMark .comma)

variable {token : Token}

theorem isKept_number {value : Float} (isNumber : token.lexeme = .number value) :
    token.isKept = true := by
  simp only [isKept, isMark, isNumber, Bool.or_self, Bool.not_false]

theorem isKept_name {name : String} (isName : token.lexeme = .name name) : token.isKept = true := by
  simp only [isKept, isMark, isName, Bool.or_self, Bool.not_false]

theorem isKept_sign {sign : Sign} (isSign : token.sign? = some sign) : token.isKept = true := by
  obtain ⟨kind, text, isLexeme, isSign⟩ := lexeme_of_sign? isSign
  simp only [isKept, isMark, isLexeme]
  cases kind with
  | plus | minus => rfl
  | opening | closing | star | slash | caret | comma => cases isSign

theorem isKept_operator {operator : Operator} (isOperator : token.operator? = some operator) :
    token.isKept = true := by
  obtain ⟨kind, text, isLexeme, isOperator⟩ := lexeme_of_operator? isOperator
  simp only [isKept, isMark, isLexeme]
  cases kind with
  | plus | minus | star | slash | caret => rfl
  | opening | closing | comma => cases isOperator

end Token

/-! ### The tokens of a tree -/

namespace Expr

mutual

/-- The tokens that the nodes of a tree keep, from left to right. -/
def keptTokens : Expr → List (Option Token)
  | number _ token | var _ token | const _ token => [token]
  | unary _ operand token => token :: operand.keptTokens
  | binary _ left right token => left.keptTokens ++ token :: right.keptTokens
  | call _ arguments token => token :: keptTokensOfAll arguments
  | bare => []

/-- The tokens that the nodes of trees keep, from left to right. -/
def keptTokensOfAll : List Expr → List (Option Token)
  | [] => []
  | first :: rest => first.keptTokens ++ keptTokensOfAll rest

end

theorem keptTokensOfAll_eq_flatMap (trees : List Expr) :
    keptTokensOfAll trees = trees.flatMap keptTokens := by
  induction trees with
  | nil => rfl
  | cons first rest inductionHypothesis =>
    rw [keptTokensOfAll, inductionHypothesis, List.flatMap_cons]

end Expr

/-- What a node keeps of a token. -/
def keptOf? (token : Token) : Option (Option Token) :=
  if token.isKept then some (some token) else none

theorem filterMap_keptOf? (tokens : List Token) :
    tokens.filterMap keptOf? = (tokens.filter Token.isKept).map some := by
  rw [← List.filterMap_eq_map, List.filterMap_filter]
  rfl

theorem keptOf?_of_isKept {token : Token} (isKept : token.isKept = true) :
    keptOf? token = some (some token) := if_pos isKept

theorem keptOf?_opening {token : Token} (isOpening : token.isMark .opening) :
    keptOf? token = none := by
  rw [keptOf?, Token.isKept, isOpening]
  rfl

theorem keptOf?_closing {token : Token} (isClosing : token.isMark .closing) :
    keptOf? token = none := by
  rw [keptOf?, Token.isKept, isClosing, Bool.or_true]
  rfl

theorem keptOf?_comma {token : Token} (isComma : token.isMark .comma) :
    keptOf? token = none := by
  rw [keptOf?, Token.isKept, isComma, Bool.or_true]
  rfl

/-! ### Phrases keep their tokens -/

section

variable {State : Type} {table : SymbolTable State}

theorem keptTokens_binary {left right : List Token} {token : Token} {operator : Operator}
    {leftTree rightTree : Expr} (isOperator : token.operator? = some operator)
    (fromLeft : leftTree.keptTokens = left.filterMap keptOf?)
    (fromRight : rightTree.keptTokens = right.filterMap keptOf?) :
    (Expr.binary operator leftTree rightTree token).keptTokens =
      (left ++ token :: right).filterMap keptOf? := by
  rw [Expr.keptTokens, fromLeft, fromRight, List.filterMap_append,
    List.filterMap_cons_some (keptOf?_of_isKept (Token.isKept_operator isOperator))]

/-- The nodes of the tree of a phrase keep the tokens of the phrase, in the same order. -/
theorem keptTokens_of_derives {level : Level} {tokens : List Token} {tree : Expr}
    (derived : Derives table level tokens tree) :
    tree.keptTokens = tokens.filterMap keptOf? := by
  have leaf {token : Token} (isKept : token.isKept = true) :
      [some token] = [token].filterMap keptOf? := by
    rw [List.filterMap_cons_some (keptOf?_of_isKept isKept), List.filterMap_nil]
  induction derived with
  | sum isOperator _ _ _ fromLeft fromRight => exact keptTokens_binary isOperator fromLeft fromRight
  | product isOperator _ _ _ fromLeft fromRight =>
    exact keptTokens_binary isOperator fromLeft fromRight
  | power isOperator _ _ fromLeft fromRight => exact keptTokens_binary isOperator fromLeft fromRight
  | ofProduct _ kept | ofPower _ kept | ofSigned _ kept | ofPrimary _ kept => exact kept
  | signed isSign _ kept =>
    rw [Expr.keptTokens, kept,
      List.filterMap_cons_some (keptOf?_of_isKept (Token.isKept_sign isSign))]
  | number isNumber => exact leaf (Token.isKept_number isNumber)
  | var isName _ => exact leaf (Token.isKept_name isName)
  | const isName _ _ => exact leaf (Token.isKept_name isName)
  | call isName _ _ _ isOpening isClosing _ separated _ kept =>
    rw [Expr.keptTokens, Expr.keptTokensOfAll_eq_flatMap,
      flatMap_of_separated (fun _ => keptOf?_comma) separated kept, List.cons_append,
      List.cons_append, List.filterMap_cons_some (keptOf?_of_isKept (Token.isKept_name isName)),
      List.filterMap_cons_none (keptOf?_opening isOpening), List.filterMap_append,
      List.filterMap_cons_none (keptOf?_closing isClosing), List.filterMap_nil, List.append_nil]
  | brackets isOpening isClosing _ kept =>
    rw [kept, List.cons_append, List.filterMap_cons_none (keptOf?_opening isOpening),
      List.filterMap_append, List.filterMap_cons_none (keptOf?_closing isClosing),
      List.filterMap_nil, List.append_nil]

theorem Agrees.token? {node : Expr} {token : Token} (agrees : Agrees node token) :
    node.token? = some token := by
  cases agrees <;> rfl

/-- No token is lost, duplicated or moved. From left to right, the nodes of a tree that has been
read keep the given tokens without brackets and commas. Every node keeps a token that it agrees
with: a number has its value, a name its text, and an operation the operator or the sign that it is.
-/
theorem keptTokens_of_read {tokens : List Token} {source : String} {tree : Expr}
    (read : Expr.ofTokens table tokens source = .ok tree) :
    tree.keptTokens = (tokens.filter Token.isKept).map some ∧
      ∀ node ∈ tree.nodes, ∃ token, node.token? = some token ∧ Agrees node token := by
  have derived := ofTokens_eq_ok_iff_derives.mp read
  refine ⟨(keptTokens_of_derives derived).trans (filterMap_keptOf? tokens), fun node member => ?_⟩
  obtain ⟨token, -, agrees⟩ := nodesAgree_of_derives derived node member
  exact ⟨token, agrees.token?, agrees⟩

end

/-- In `2*(-x-max(y,3))` the minus between the operands comes after the sign. -/
theorem keptTokens_of_read_product :
    let table : SymbolTable Unit := standardTable (pure 0.5)
    let mark (kind : Mark) (index : Int) : Token := ⟨.mark kind "", "", index, 1⟩
    let name (text : String) (index : Int) : Token := ⟨.name text, "", index, text.length⟩
    let number (value : Float) (index : Int) : Token := ⟨.number value, "", index, 1⟩
    let tokens : List Token :=
      [number 2.0 0, mark .star 1, mark .opening 2, mark .minus 3, name "x" 4, mark .minus 5,
        name "max" 6, mark .opening 9, name "y" 10, mark .comma 11, number 3.0 12, mark .closing 13,
        mark .closing 14]
    let greatest : Expr :=
      .call "max" [.var "y" (name "y" 10), .number 3.0 (number 3.0 12)] (name "max" 6)
    let difference : Expr :=
      .binary .subtract (.unary .minus (.var "x" (name "x" 4)) (mark .minus 3)) greatest (mark .minus 5)
    let tree : Expr := .binary .multiply (.number 2.0 (number 2.0 0)) difference (mark .star 1)
    Expr.ofTokens table tokens "" = .ok tree ∧
      tree.keptTokens = (tokens.filter Token.isKept).map some ∧
      ∀ node ∈ tree.nodes, ∃ token, node.token? = some token ∧ Agrees node token := by
  intro table mark name number tokens greatest difference tree
  have ofPrimary {tokens : List Token} {tree : Expr} (derived : Derives table .primary tokens tree) :
      Derives table .sum tokens tree := .loosen derived (by decide)
  let arguments : List (List Token × Expr) :=
    [([name "y" 10], .var "y" (name "y" 10)), ([number 3.0 12], .number 3.0 (number 3.0 12))]
  have each : ∀ argument ∈ arguments, Derives table .sum argument.1 argument.2 :=
    List.forall_mem_cons.mpr ⟨ofPrimary (.var rfl rfl),
      List.forall_mem_singleton.mpr (ofPrimary (.number rfl))⟩
  have separated : Separated (arguments.map Prod.fst)
      ([name "y" 10] ++ (mark .comma 11 :: [number 3.0 12] ++ [])) := .cons (.cons rfl .nil)
  have call : Derives table .primary
      (name "max" 6 :: mark .opening 9 :: _ ++ [mark .closing 13]) greatest :=
    .call rfl rfl rfl rfl rfl rfl rfl separated each
  have inside : Derives table .sum ([mark .minus 3, name "x" 4] ++ mark .minus 5 :: _) difference :=
    .sum rfl (Or.inr rfl) (.loosen (.signed rfl (.ofPrimary (.var rfl rfl))) (by decide))
      (.loosen call (by decide))
  have brackets : Derives table .primary (mark .opening 2 :: _ ++ [mark .closing 14]) difference :=
    .brackets rfl rfl inside
  have derived : Derives table .product ([number 2.0 0] ++ mark .star 1 :: _) tree :=
    .product rfl (Or.inl rfl) (.loosen (.number rfl) (by decide)) (.loosen brackets (by decide))
  have read : Expr.ofTokens table tokens "" = .ok tree :=
    ofTokens_eq_ok_iff_derives.mpr (.ofProduct derived)
  exact ⟨read, keptTokens_of_read read⟩

end DirectionField
