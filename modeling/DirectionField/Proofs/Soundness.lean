/-
This file proves that the tokens that a reader takes are a phrase of the grammar, with the tree that
it finds.

The invariant of a chain is about its left operand: that is a phrase of some layer, and an operator
in front of the chain, if there is one, may have phrases of that layer on its left. It holds after
an operand, which every operator may have on its left, and it holds again after an operator has been
folded, because the operators that bind more strongly have gone to the right operand.
-/

import DirectionField.Proofs.Folding
import DirectionField.Proofs.Grammar

namespace DirectionField

/-! ### Strengths and layers -/

namespace Level

/-- The layer of the phrases whose operators have at least the given strength. -/
def ofStrength : Nat → Level
  | 0 | 1 => sum
  | 2 => product
  | 3 => power
  | _ => signed

theorem rank_ofStrength_le_signed (least : Nat) : (ofStrength least).rank ≤ signed.rank := by
  unfold ofStrength
  split <;> decide

theorem rank_ofStrength_le_level {least : Nat} {operator : Operator}
    (enough : least ≤ operator.strength) : (ofStrength least).rank ≤ operator.level.rank := by
  rw [Operator.rank_level]
  have positive : 1 ≤ operator.strength := by cases operator <;> decide
  have small : operator.strength ≤ 3 := by cases operator <;> decide
  match least with
  | 0 | 1 => exact positive
  | 2 | 3 => exact enough
  | _ + 4 => omega

theorem ofStrength_rightStrength (operator : Operator) :
    ofStrength operator.rightStrength = operator.rightLevel := by
  cases operator <;> rfl

end Level

namespace Operator

theorem rank_leftLevel_le_signed (operator : Operator) :
    operator.leftLevel.rank ≤ Level.signed.rank := by
  cases operator <;> decide

/-- An operator that a right operand has left may have the whole operation on its left. -/
theorem rank_leftLevel_le_of_lt {operator next : Operator}
    (weaker : next.strength < operator.rightStrength) :
    next.leftLevel.rank ≤ operator.level.rank := by
  revert weaker
  cases operator <;> cases next <;> decide

end Operator

/-- An operator at the front of some tokens may have phrases of the given layer on its left. -/
def Takes (level : Level) (tokens : List Token) : Prop :=
  ∀ operator, frontOperator? tokens = some operator → operator.leftLevel.rank ≤ level.rank

theorem takes_signed (tokens : List Token) : Takes .signed tokens :=
  fun operator _ => operator.rank_leftLevel_le_signed

namespace Reader

/-! ### What it means to be sound -/

section

variable {State : Type} (table : SymbolTable State)

/-- An operand that is read is a signed primary. -/
def OperandSound (tokens : List Token) : Prop :=
  ∀ tree unread, operand table tokens = .ok (tree, unread) →
    ∃ read, tokens = read ++ unread ∧ Derives table .signed read tree

/-- A phrase that is read belongs to the layer of its least strength, and no operator of that
strength follows it. -/
def PhraseSound (least : Nat) (tokens : List Token) : Prop :=
  ∀ tree unread, phrase table least tokens = .ok (tree, unread) →
    Halts least unread ∧
      ∃ read, tokens = read ++ unread ∧ Derives table (.ofStrength least) read tree

/-- A chain that is read belongs, together with its left operand, to the layer of its least
strength, and no operator of that strength follows it. -/
def ChainSound (least : Nat) (left : Expr) (tokens : List Token) : Prop :=
  ∀ level before, Derives table level before left →
    (Level.ofStrength least).rank ≤ level.rank → Takes level tokens →
    ∀ tree unread, chain table least left tokens = .ok (tree, unread) →
      Halts least unread ∧
        ∃ read, tokens = read ++ unread ∧ Derives table (.ofStrength least) (before ++ read) tree

/-- Further arguments that are read are expressions with commas in front. -/
def OthersSound (count : Nat) (tokens : List Token) : Prop :=
  ∀ trees unread, others table count tokens = .ok (trees, unread) →
    ∃ read, tokens = read ++ unread ∧ DerivesOthers table count read trees

end

/-! ### Every reader is sound -/

section

variable {State : Type} {table : SymbolTable State}

theorem mark_eq_ok {kind : Mark} {wanted : Wanted} {tokens unread : List Token} {nothing : Unit}
    (read : mark kind wanted tokens = .ok (nothing, unread)) :
    ∃ token, tokens = token :: unread ∧ token.isMark kind := by
  rcases isMark_or_missing kind tokens with ⟨token, rest, rfl, isMark⟩ | missing
  · rw [mark_of_isMark isMark] at read
    cases read
    exact ⟨token, rfl, isMark⟩
  · rw [mark_of_missing missing] at read
    cases read

/-- Expressions are the phrases of the least strength, and so they are sums. -/
theorem expression_sound {tokens unread : List Token} {tree : Expr}
    (sound : PhraseSound table 0 tokens)
    (read : expression table tokens = .ok (tree, unread)) :
    ∃ taken, tokens = taken ++ unread ∧ Derives table .sum taken tree := by
  rw [expression_eq] at read
  exact (sound tree unread read).2

theorem arguments_sound {tokens unread : List Token} {trees : List Expr} {count : Nat}
    (firstSound : PhraseSound table 0 tokens)
    (othersSound : ∀ rest, rest.length ≤ tokens.length → ∀ more, OthersSound table more rest)
    (read : arguments table count tokens = .ok (trees, unread)) :
    ∃ taken, tokens = taken ++ unread ∧ DerivesArguments table count taken trees := by
  cases count with
  | zero =>
    rw [arguments_zero] at read
    cases read
    exact ⟨[], rfl, .zero⟩
  | succ more =>
    rw [arguments_succ] at read
    obtain ⟨first, between, firstRead, read⟩ := bind_eq_ok read
    obtain ⟨rest, last, othersRead, read⟩ := bind_eq_ok read
    cases read
    obtain ⟨part, rfl, partDerived⟩ := expression_sound firstSound firstRead
    obtain ⟨taken, rfl, othersDerived⟩ :=
      othersSound between (by rw [List.length_append]; omega) more rest unread othersRead
    exact ⟨part ++ taken, (List.append_assoc ..).symm, .succ partDerived othersDerived⟩

theorem operandSound_nil : OperandSound table [] := by
  intro tree unread read
  rw [operand_nil] at read
  cases read

theorem operandSound_cons (token : Token) (rest : List Token)
    (shorter : ∀ unread, unread.length ≤ rest.length →
      OperandSound table unread ∧ PhraseSound table 0 unread ∧
        ∀ count, OthersSound table count unread) :
    OperandSound table (token :: rest) := by
  intro tree unread read
  cases beginning table token with
  | number value isNumber =>
    rw [operand_number table isNumber] at read
    cases read
    exact ⟨[token], rfl, .ofPrimary (.number isNumber)⟩
  | unknown name isName isUnknown =>
    rw [operand_unknown table isName isUnknown] at read
    cases read
  | var name isName isVar =>
    rw [operand_var table isName isVar] at read
    cases read
    exact ⟨[token], rfl, .ofPrimary (.var isName (SymbolTable.resolve?_eq_var_iff.mp isVar))⟩
  | const name isName isConst =>
    rw [operand_const table isName isConst] at read
    cases read
    obtain ⟨notVariable, isConstant⟩ := SymbolTable.resolve?_eq_const_iff.mp isConst
    exact ⟨[token], rfl, .ofPrimary (.const isName notVariable isConstant)⟩
  | call name arity isName isFunction =>
    rw [operand_call table isName isFunction] at read
    obtain ⟨_, opened, openingRead, read⟩ := bind_eq_ok read
    obtain ⟨trees, between, argumentsRead, read⟩ := bind_eq_ok read
    obtain ⟨_, last, closingRead, read⟩ := bind_eq_ok read
    cases read
    obtain ⟨opening, rfl, isOpening⟩ := mark_eq_ok openingRead
    obtain ⟨closing, rfl, isClosing⟩ := mark_eq_ok closingRead
    have firstSound := (shorter opened (Nat.le_succ _)).2.1
    obtain ⟨inside, rfl, derived⟩ := arguments_sound firstSound
      (fun tail bound => (shorter tail (Nat.le_succ_of_le bound)).2.2) argumentsRead
    refine ⟨token :: opening :: inside ++ [closing], ?_,
      .ofPrimary (.callOf isName isFunction isOpening isClosing derived)⟩
    simp only [List.cons_append, List.append_assoc, List.nil_append]
  | opening isOpening =>
    rw [operand_opening table isOpening] at read
    obtain ⟨inner, between, innerRead, read⟩ := bind_eq_ok read
    obtain ⟨_, last, closingRead, read⟩ := bind_eq_ok read
    cases read
    obtain ⟨closing, rfl, isClosing⟩ := mark_eq_ok closingRead
    obtain ⟨inside, rfl, derived⟩ := expression_sound (shorter rest (Nat.le_refl _)).2.1 innerRead
    refine ⟨token :: inside ++ [closing], ?_, .ofPrimary (.brackets isOpening isClosing derived)⟩
    simp only [List.cons_append, List.append_assoc, List.nil_append]
  | signed sign isSign =>
    rw [operand_sign table isSign] at read
    obtain ⟨inner, between, innerRead, read⟩ := bind_eq_ok read
    cases read
    obtain ⟨taken, rfl, derived⟩ := (shorter rest (Nat.le_refl _)).1 inner unread innerRead
    exact ⟨token :: taken, rfl, .signed isSign derived⟩
  | other kind text isMark notOpening notSign =>
    rw [operand_other table isMark notOpening notSign] at read
    cases read

theorem phraseSound_of_operandSound (least : Nat) (tokens : List Token)
    (operandSound : OperandSound table tokens)
    (chainSound : ∀ first unread, unread.length < tokens.length →
      ChainSound table least first unread) :
    PhraseSound table least tokens := by
  intro tree unread read
  obtain ⟨first, between, operandRead, chainRead⟩ := bind_eq_ok read
  have shorter := length_lt_of_operand table operandRead
  obtain ⟨before, rfl, derived⟩ := operandSound first between operandRead
  obtain ⟨halts, taken, rfl, wholeDerived⟩ := chainSound first between shorter .signed before derived
    (Level.rank_ofStrength_le_signed least) (takes_signed between) tree unread chainRead
  exact ⟨halts, before ++ taken, (List.append_assoc ..).symm, wholeDerived⟩

theorem chainSound_of_halts (least : Nat) (left : Expr) (tokens : List Token)
    (halts : Halts least tokens) : ChainSound table least left tokens := by
  intro level before derived looser takes tree unread read
  rw [chain_of_halts table halts] at read
  cases read
  refine ⟨halts, [], rfl, ?_⟩
  rw [List.append_nil]
  exact derived.loosen looser

theorem chainSound_cons (least : Nat) (left : Expr) (token : Token) (rest : List Token)
    (operator : Operator) (isOperator : token.operator? = some operator)
    (enough : least ≤ operator.strength)
    (rightSound : PhraseSound table operator.rightStrength rest)
    (chainSound : ∀ whole unread, unread.length ≤ rest.length →
      ChainSound table least (.binary operator left whole token) unread) :
    ChainSound table least left (token :: rest) := by
  intro level before derived looser takes tree unread read
  rw [chain_cons table isOperator enough] at read
  obtain ⟨whole, between, rightRead, chainRead⟩ := bind_eq_ok read
  obtain ⟨stops, right, rfl, rightDerived⟩ := rightSound whole between rightRead
  rw [Level.ofStrength_rightStrength] at rightDerived
  have folded : Derives table operator.level (before ++ token :: right)
      (.binary operator left whole token) :=
    .binary isOperator (derived.loosen (takes operator isOperator)) rightDerived
  obtain ⟨halts, taken, rfl, wholeDerived⟩ :=
    chainSound whole between (by rw [List.length_append]; omega) operator.level
      (before ++ token :: right) folded (Level.rank_ofStrength_le_level enough)
      (fun next front => Operator.rank_leftLevel_le_of_lt (stops next front)) tree unread chainRead
  refine ⟨halts, token :: right ++ taken, ?_, ?_⟩
  · simp only [List.cons_append, List.append_assoc]
  · simpa only [List.cons_append, List.append_assoc] using wholeDerived

theorem othersSound_zero (tokens : List Token) : OthersSound table 0 tokens := by
  intro trees unread read
  rw [others_zero] at read
  cases read
  exact ⟨[], rfl, .zero⟩

theorem othersSound_succ (more : Nat) (tokens : List Token)
    (shorter : ∀ unread, unread.length < tokens.length →
      PhraseSound table 0 unread ∧ OthersSound table more unread) :
    OthersSound table (more + 1) tokens := by
  intro trees unread read
  rw [others_succ] at read
  obtain ⟨_, afterComma, commaRead, read⟩ := bind_eq_ok read
  obtain ⟨next, between, nextRead, read⟩ := bind_eq_ok read
  obtain ⟨rest, last, othersRead, read⟩ := bind_eq_ok read
  cases read
  obtain ⟨comma, rfl, isComma⟩ := mark_eq_ok commaRead
  obtain ⟨part, rfl, partDerived⟩ :=
    expression_sound (shorter afterComma (Nat.lt_succ_self _)).1 nextRead
  obtain ⟨taken, rfl, othersDerived⟩ :=
    (shorter between (by simp only [List.length_cons, List.length_append]; omega)).2 rest unread
      othersRead
  refine ⟨comma :: part ++ taken, ?_, .succ isComma partDerived othersDerived⟩
  simp only [List.cons_append, List.append_assoc]

variable (table) in
/-- Every reader is sound on every token list. -/
theorem sound (tokens : List Token) :
    OperandSound table tokens ∧ (∀ least, PhraseSound table least tokens) ∧
      (∀ least left, ChainSound table least left tokens) ∧
        ∀ count, OthersSound table count tokens :=
  induction_on_tokens operandSound_nil operandSound_cons phraseSound_of_operandSound
    chainSound_of_halts chainSound_cons othersSound_zero othersSound_succ tokens

end

end Reader

/-- A token list that is read as a whole is a sum with the tree that is found. -/
theorem derives_of_readAll {State : Type} {table : SymbolTable State} {tokens : List Token}
    {tree : Expr} (read : readAll table tokens = .ok tree) : Derives table .sum tokens tree := by
  obtain ⟨taken, rfl, derived⟩ := Reader.expression_sound ((Reader.sound table tokens).2.1 0)
    (Reader.expression_of_readAll table read)
  rwa [List.append_nil]

end DirectionField
