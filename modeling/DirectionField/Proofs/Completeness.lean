/-
This file proves that every phrase of the grammar is read, with its tree, whatever follows it.

What may follow a phrase without being drawn into it depends on its layer. A signed primary is read
on its own. A phrase of one of the three outer layers is read as the left operand of a chain: the
reader that meets the phrase does what the chain does after it. So a phrase on the left of an
operator needs no other statement than a phrase that ends there.
-/

import DirectionField.Proofs.Soundness

namespace DirectionField

namespace Reader

/-! ### What may follow a phrase -/

/-- No chain goes on in front of a mark that is no operator. -/
theorem halts_of_isMark {kind : Mark} {token : Token} (isMark : token.isMark kind)
    (notOperator : kind.operator? = none) (least : Nat) (rest : List Token) :
    Halts least (token :: rest) := by
  obtain ⟨text, isLexeme⟩ := Token.lexeme_of_isMark isMark
  have none : token.operator? = none := by
    rw [Token.operator?, isLexeme]
    exact notOperator
  exact fun operator front => nomatch none.symm.trans front

theorem halts_nil (least : Nat) : Halts least [] :=
  fun _ front => nomatch front

/-! ### Phrases -/

section

variable {State : Type} (table : SymbolTable State)

/-- A phrase with operators of at least the given rank is read as the left operand of a chain, in
front of tokens that do not start with an operator of the given strength. -/
def PhraseReadBack (rank strength : Nat) (tokens : List Token) (tree : Expr) : Prop :=
  ∀ least, least ≤ rank → ∀ after, Halts strength after →
    phrase table least (tokens ++ after) = chain table least tree after

/-- A signed primary is read as an operand. -/
def OperandReadBack (tokens : List Token) (tree : Expr) : Prop :=
  ∀ after, operand table (tokens ++ after) = .ok (tree, after)

/-- A phrase of a layer is read. -/
def ReadBack : Level → List Token → Expr → Prop
  | .sum => PhraseReadBack table 1 2
  | .product => PhraseReadBack table 2 3
  | .power => PhraseReadBack table 3 3
  | .signed | .primary => OperandReadBack table

end

section

variable {State : Type} {table : SymbolTable State}

theorem PhraseReadBack.weaken {rank lowRank strength lowStrength : Nat} {tokens : List Token}
    {tree : Expr} (readBack : PhraseReadBack table rank strength tokens tree)
    (lowerRank : lowRank ≤ rank) (lowerStrength : lowStrength ≤ strength) :
    PhraseReadBack table lowRank lowStrength tokens tree :=
  fun least below after halts =>
    readBack least (Nat.le_trans below lowerRank) after (halts.mono lowerStrength)

/-- A phrase that a chain cannot go on after is read as a whole. -/
theorem PhraseReadBack.read {rank strength least : Nat} {tokens after : List Token} {tree : Expr}
    (readBack : PhraseReadBack table rank strength tokens tree) (below : least ≤ rank)
    (lower : least ≤ strength) (halts : Halts least after) :
    phrase table least (tokens ++ after) = .ok (tree, after) := by
  rw [readBack least below after (halts.mono lower), chain_of_halts table halts]

theorem OperandReadBack.phrase (rank strength : Nat) {tokens : List Token} {tree : Expr}
    (readBack : OperandReadBack table tokens tree) :
    PhraseReadBack table rank strength tokens tree :=
  fun _ _ after _ => bind_ok (readBack after)

/-- The two operands of an operator and the operator itself are read as one left operand. -/
theorem phraseReadBack_binary {left right : List Token} {token : Token} {operator : Operator}
    {leftTree rightTree : Expr} {leftStrength rightRank higher : Nat}
    (isOperator : token.operator? = some operator) (weaker : operator.strength < leftStrength)
    (leftReadBack : PhraseReadBack table operator.strength leftStrength left leftTree)
    (belowRank : operator.rightStrength ≤ rightRank) (lower : operator.rightStrength ≤ higher)
    (rightReadBack : PhraseReadBack table rightRank higher right rightTree) :
    PhraseReadBack table operator.strength operator.rightStrength (left ++ token :: right)
      (.binary operator leftTree rightTree token) := by
  intro least below after halts
  have front : Halts leftStrength (token :: (right ++ after)) := by
    intro found isFound
    cases isOperator.symm.trans isFound
    exact weaker
  rw [List.append_assoc, List.cons_append, leftReadBack least below _ front,
    chain_cons table isOperator below, bind_ok (rightReadBack.read belowRank lower halts)]

/-! ### Operands -/

/-- A sum in front of tokens that no chain goes on with is read as an expression. -/
theorem expression_of_readBack {tokens after : List Token} {tree : Expr}
    (readBack : ReadBack table .sum tokens tree) (halts : Halts 0 after) :
    expression table (tokens ++ after) = .ok (tree, after) := by
  rw [expression_eq]
  exact readBack.read (Nat.zero_le 1) (Nat.zero_le 2) halts

/-- The rest of an argument list starts with a comma, or it is what follows. -/
theorem halts_of_preceded {parts : List (List Token)} {tokens after : List Token}
    (preceded : Preceded parts tokens) (halts : Halts 0 after) : Halts 0 (tokens ++ after) := by
  cases preceded with
  | nil => exact halts
  | cons isComma others => exact halts_of_isMark isComma rfl 0 _

theorem others_of_readBack {arguments : List (List Token × Expr)} {tokens after : List Token}
    (preceded : Preceded (arguments.map Prod.fst) tokens)
    (each : ∀ argument ∈ arguments, ReadBack table .sum argument.1 argument.2)
    (halts : Halts 0 after) :
    others table arguments.length (tokens ++ after) = .ok (arguments.map Prod.snd, after) := by
  induction arguments generalizing tokens with
  | nil =>
    cases preceded
    rw [List.length_nil, others_zero]
    rfl
  | cons argument rest inductionHypothesis =>
    obtain ⟨first, remaining⟩ := List.forall_mem_cons.mp each
    cases preceded with
    | cons isComma others =>
      rw [List.length_cons, others_succ, List.cons_append, List.cons_append, List.append_assoc,
        bind_ok (mark_of_isMark isComma _ _),
        bind_ok (expression_of_readBack first (halts_of_preceded others halts)),
        bind_ok (inductionHypothesis others remaining)]
      rfl

theorem arguments_of_readBack {arguments : List (List Token × Expr)} {tokens after : List Token}
    (separated : Separated (arguments.map Prod.fst) tokens)
    (each : ∀ argument ∈ arguments, ReadBack table .sum argument.1 argument.2)
    (halts : Halts 0 after) :
    Reader.arguments table arguments.length (tokens ++ after) =
      .ok (arguments.map Prod.snd, after) := by
  cases arguments with
  | nil =>
    cases separated
    rw [List.length_nil, arguments_zero]
    rfl
  | cons argument rest =>
    obtain ⟨first, remaining⟩ := List.forall_mem_cons.mp each
    cases separated with
    | cons others =>
      rw [List.length_cons, arguments_succ, List.append_assoc,
        bind_ok (expression_of_readBack first (halts_of_preceded others halts)),
        bind_ok (others_of_readBack others remaining halts)]
      rfl

/-! ### Every phrase is read -/

/-- Every phrase of the grammar is read. -/
theorem readBack_of_derives {level : Level} {tokens : List Token} {tree : Expr}
    (derived : Derives table level tokens tree) : ReadBack table level tokens tree := by
  induction derived with
  | sum isOperator isSum fromLeft fromRight leftReadBack rightReadBack =>
    rcases isSum with rfl | rfl
    · exact phraseReadBack_binary isOperator (by decide) leftReadBack (by decide) (by decide)
        rightReadBack
    · exact phraseReadBack_binary isOperator (by decide) leftReadBack (by decide) (by decide)
        rightReadBack
  | ofProduct phrase readBack => exact readBack.weaken (by decide) (by decide)
  | product isOperator isProduct fromLeft fromRight leftReadBack rightReadBack =>
    rcases isProduct with rfl | rfl
    · exact phraseReadBack_binary isOperator (by decide) leftReadBack (by decide) (by decide)
        rightReadBack
    · exact phraseReadBack_binary isOperator (by decide) leftReadBack (by decide) (by decide)
        rightReadBack
  | ofPower phrase readBack => exact readBack.weaken (by decide) (by decide)
  | power isOperator fromLeft fromRight leftReadBack rightReadBack =>
    exact phraseReadBack_binary isOperator (Nat.lt_succ_self 3) (leftReadBack.phrase _ _) (by decide)
      (by decide) rightReadBack
  | ofSigned phrase readBack => exact readBack.phrase 3 3
  | signed isSign phrase readBack =>
    intro after
    rw [List.cons_append, operand_sign table isSign, bind_ok (readBack after)]
    rfl
  | ofPrimary phrase readBack => exact readBack
  | number isNumber => exact fun after => operand_number table isNumber after
  | var isName isVariable =>
    exact fun after => operand_var table isName (SymbolTable.resolve?_eq_var_iff.mpr isVariable) after
  | const isName notVariable isConstant =>
    exact fun after => operand_const table isName
      (SymbolTable.resolve?_eq_const_iff.mpr ⟨notVariable, isConstant⟩) after
  | call isName notVariable notConstant isFunction isOpening isClosing count separated each
      eachReadBack =>
    intro after
    have isCall := SymbolTable.resolve?_eq_function_iff.mpr
      ⟨notVariable, notConstant, _, isFunction, rfl⟩
    simp only [List.cons_append, List.append_assoc, List.nil_append]
    rw [operand_call table isName isCall, bind_ok (mark_of_isMark isOpening _ _), ← count,
      bind_ok (arguments_of_readBack separated eachReadBack (halts_of_isMark isClosing rfl 0 _))]
    exact bind_ok (mark_of_isMark isClosing _ _)
  | brackets isOpening isClosing phrase readBack =>
    intro after
    simp only [List.cons_append, List.append_assoc, List.nil_append]
    rw [operand_opening table isOpening,
      bind_ok (expression_of_readBack readBack (halts_of_isMark isClosing rfl 0 _))]
    exact bind_ok (mark_of_isMark isClosing _ _)

end

end Reader

/-! ### Expressions are sums -/

section

variable {State : Type} {table : SymbolTable State} {tokens : List Token} {tree : Expr}

theorem readAll_of_derives (derived : Derives table .sum tokens tree) :
    readAll table tokens = .ok tree := by
  have read := Reader.expression_of_readBack (Reader.readBack_of_derives derived)
    (Reader.halts_nil 0)
  rw [List.append_nil] at read
  exact Reader.readAll_of_read table read

/-- A token list is read as a whole with a tree exactly when it is a sum with that tree. -/
theorem readAll_eq_ok_iff : readAll table tokens = .ok tree ↔ Derives table .sum tokens tree :=
  ⟨derives_of_readAll, readAll_of_derives⟩

theorem ofTokens_eq_ok_iff {source : String} :
    Expr.ofTokens table tokens source = .ok tree ↔ readAll table tokens = .ok tree := by
  unfold Expr.ofTokens
  cases readAll table tokens with
  | error stuck => exact ⟨nofun, nofun⟩
  | ok found =>
    constructor
    · intro read
      cases read
      rfl
    · intro read
      cases read
      rfl

/-- A tree is read from a token list exactly if it is that of a sum. -/
theorem ofTokens_eq_ok_iff_derives {source : String} :
    Expr.ofTokens table tokens source = .ok tree ↔ Derives table .sum tokens tree :=
  ofTokens_eq_ok_iff.trans readAll_eq_ok_iff

variable (table tokens) in
/-- The token lists that stand for expressions are exactly the sums of the grammar, with the same
trees and the same tokens at their nodes. Exactly the other token lists are errors. -/
theorem ofTokens_iff_derives (source : String) :
    (∀ tree, Expr.ofTokens table tokens source = .ok tree ↔ Derives table .sum tokens tree) ∧
      ((∃ error, Expr.ofTokens table tokens source = .error error) ↔
        ∀ tree, ¬Derives table .sum tokens tree) := by
  have read (tree : Expr) :
      Expr.ofTokens table tokens source = .ok tree ↔ Derives table .sum tokens tree :=
    ofTokens_eq_ok_iff.trans readAll_eq_ok_iff
  refine ⟨read, ?_⟩
  cases outcome : Expr.ofTokens table tokens source with
  | error error =>
    refine ⟨fun _ tree derived => ?_, fun _ => ⟨error, rfl⟩⟩
    rw [(read tree).mpr derived] at outcome
    cases outcome
  | ok tree =>
    refine ⟨fun ⟨error, isError⟩ => ?_, fun outside => ?_⟩
    · cases isError
    · exact absurd ((read tree).mp outcome) (outside tree)

end

end DirectionField
