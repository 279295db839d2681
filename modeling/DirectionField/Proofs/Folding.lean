/-
This file proves that the loop of a right operand is a chain of its own: it folds exactly the
operators of at least the right strength of the operator on its left, which are one stronger, or as
strong for a power. With that, every reader is a phrase, an operand, a chain or a list of arguments,
and properties of all readers are proved by one induction on the number of unread tokens.
-/

import DirectionField.Proofs.Reader

namespace DirectionField

/-! ### Operators -/

namespace Operator

/-- The least strength of the operators that belong to the right operand. -/
def rightStrength : Operator → Nat
  | power => 3
  | operator => operator.strength + 1

theorem yieldsTo_eq_decide (operator next : Operator) :
    operator.yieldsTo next = decide (operator.rightStrength ≤ next.strength) := by
  cases operator <;> cases next <;> rfl

end Operator

namespace Reader

variable {State : Type} (table : SymbolTable State)

/-! ### Chains -/

/-- Whether a chain of the given least strength ends in front of some tokens. -/
def Halts (least : Nat) (tokens : List Token) : Prop :=
  ∀ operator, frontOperator? tokens = some operator → operator.strength < least

theorem Halts.mono {low high : Nat} {tokens : List Token} (halts : Halts low tokens)
    (below : low ≤ high) : Halts high tokens :=
  fun operator front => Nat.lt_of_lt_of_le (halts operator front) below

theorem halts_cons {least : Nat} {token : Token} {operator : Operator}
    (isOperator : token.operator? = some operator) (weaker : operator.strength < least)
    (rest : List Token) : Halts least (token :: rest) := by
  intro other isFront
  cases isOperator.symm.trans isFront
  exact weaker

/-- Either a chain ends in front of some tokens, or they start with an operator that it folds. -/
theorem halts_or_goesOn (least : Nat) (tokens : List Token) :
    Halts least tokens ∨ ∃ token rest operator, tokens = token :: rest ∧
      token.operator? = some operator ∧ least ≤ operator.strength := by
  cases tokens with
  | nil => exact Or.inl fun _ front => nomatch front
  | cons token rest =>
    cases isOperator : token.operator? with
    | none => exact Or.inl fun _ front => nomatch isOperator.symm.trans front
    | some operator =>
      by_cases enough : least ≤ operator.strength
      · exact Or.inr ⟨token, rest, operator, rfl, isOperator, enough⟩
      · exact Or.inl (halts_cons isOperator (Nat.lt_of_not_le enough) rest)

theorem chain_of_halts {least : Nat} {tokens : List Token} (halts : Halts least tokens)
    (left : Expr) : chain table least left tokens = .ok (left, tokens) := by
  show plain (readChain table least left tokens) = _
  cases tokens with
  | nil => rw [readChain]; rfl
  | cons token rest =>
    rw [readChain]
    split
    · rfl
    · next operator isOperator =>
      rw [dif_neg (Nat.not_le_of_lt (halts operator isOperator))]
      rfl

theorem chain_cons_eq_right {least : Nat} {token : Token} {operator : Operator}
    (isOperator : token.operator? = some operator) (enough : least ≤ operator.strength)
    (left : Expr) (rest : List Token) :
    chain table least left (token :: rest) =
      (do
        let next ← operand table
        let whole ← right table operator next
        chain table least (.binary operator left whole token) : Reader Expr) rest := by
  show plain (readChain table least left (token :: rest)) = _
  rw [readChain]
  split
  · next none => rw [isOperator] at none; cases none
  · next found isFound =>
    cases isOperator.symm.trans isFound
    rw [dif_pos enough]
    refine plain_bind rfl fun _ => ?_
    refine plain_bind rfl fun reading => ?_
    rw [← bind_pure (chain table least (.binary operator left reading.result token))]
    exact plain_bind rfl fun _ => rfl

theorem right_of_not_yieldsTo {operator : Operator} {tokens : List Token}
    (keeps : ∀ next, frontOperator? tokens = some next → operator.yieldsTo next = false)
    (first : Expr) : right table operator first tokens = .ok (first, tokens) := by
  show plain (readRight table operator first tokens) = _
  cases tokens with
  | nil => rw [readRight]; rfl
  | cons token rest =>
    rw [readRight]
    split
    · rfl
    · next next isOperator =>
      rw [if_neg (by rw [keeps next isOperator]; exact Bool.false_ne_true)]
      rfl

theorem right_cons_of_yieldsTo {operator next : Operator} {token : Token}
    (isOperator : token.operator? = some next) (yields : operator.yieldsTo next)
    (first : Expr) (rest : List Token) :
    right table operator first (token :: rest) =
      (do
        let longer ← chain table next.strength first
        right table operator longer : Reader Expr) (token :: rest) := by
  show plain (readRight table operator first (token :: rest)) = _
  rw [readRight]
  split
  · next none => rw [isOperator] at none; cases none
  · next found isFound =>
    cases isOperator.symm.trans isFound
    rw [if_pos yields]
    refine plain_bind rfl fun reading => ?_
    rw [← bind_pure (right table operator reading.result)]
    exact plain_bind rfl fun _ => rfl

/-! ### The loop of a right operand is a chain -/

theorem length_lt_of_operand {tokens unread : List Token} {tree : Expr}
    (read : operand table tokens = .ok (tree, unread)) : unread.length < tokens.length :=
  length_lt_of_plain read

theorem length_le_of_chain {least : Nat} {left tree : Expr} {tokens unread : List Token}
    (read : chain table least left tokens = .ok (tree, unread)) :
    unread.length ≤ tokens.length :=
  Nat.le_of_lt_succ (Nat.lt_of_lt_of_le (length_lt_of_plain read) (chainLimit_le least tokens))

theorem length_lt_of_phrase {least : Nat} {tree : Expr} {tokens unread : List Token}
    (read : phrase table least tokens = .ok (tree, unread)) : unread.length < tokens.length := by
  obtain ⟨first, between, operandRead, chainRead⟩ := bind_eq_ok read
  exact Nat.lt_of_le_of_lt (length_le_of_chain table chainRead)
    (length_lt_of_operand table operandRead)

theorem length_le_of_right {operator : Operator} {first tree : Expr} {tokens unread : List Token}
    (read : right table operator first tokens = .ok (tree, unread)) :
    unread.length ≤ tokens.length :=
  Nat.le_of_lt_succ (length_lt_of_plain read)

/-- A chain may be folded in two passes, the operators of greater strength first. -/
theorem chain_split {least higher : Nat} (below : least ≤ higher) (left : Expr)
    (tokens : List Token) :
    chain table least left tokens =
      (do
        let longer ← chain table higher left
        chain table least longer : Reader Expr) tokens := by
  induction size : tokens.length using Nat.strongRecOn generalizing left tokens with
  | ind size inductionHypothesis =>
    rcases halts_or_goesOn higher tokens with halts | ⟨token, rest, operator, rfl, front, enough⟩
    · rw [bind_ok (chain_of_halts table halts left)]
    · rw [bind_congr_first (chain_cons_eq_right table front enough left rest),
        chain_cons_eq_right table front (Nat.le_trans below enough), bind_assoc]
      refine bind_congr_of_read fun next between operandRead => ?_
      rw [bind_assoc]
      refine bind_congr_of_read fun whole unread rightRead => ?_
      refine inductionHypothesis unread.length ?_ _ unread rfl
      have operandBound := length_lt_of_operand table operandRead
      have rightBound := length_le_of_right table rightRead
      rw [← size, List.length_cons]
      omega

/-- The operators that belong to a right operand are those of at least the right strength. -/
theorem right_eq_chain (operator : Operator) (first : Expr) :
    right table operator first = chain table operator.rightStrength first := by
  funext tokens
  induction size : tokens.length using Nat.strongRecOn generalizing first tokens with
  | ind size inductionHypothesis =>
    rcases halts_or_goesOn operator.rightStrength tokens with
      halts | ⟨token, rest, next, rfl, front, enough⟩
    · rw [chain_of_halts table halts, right_of_not_yieldsTo]
      intro next front
      rw [Operator.yieldsTo_eq_decide]
      exact decide_eq_false (Nat.not_le_of_lt (halts next front))
    · have yields : operator.yieldsTo next := by
        rw [Operator.yieldsTo_eq_decide]
        exact decide_eq_true enough
      rw [right_cons_of_yieldsTo table front yields, chain_split table enough]
      refine bind_congr_of_read fun longer unread read => ?_
      refine inductionHypothesis unread.length ?_ longer unread rfl
      have bound := length_lt_of_plain read
      rw [chainLimit_of_le front (Nat.le_refl _)] at bound
      rw [← size, List.length_cons]
      omega

/-- A chain that goes on reads a phrase of the right strength and folds it. -/
theorem chain_cons {least : Nat} {token : Token} {operator : Operator}
    (isOperator : token.operator? = some operator) (enough : least ≤ operator.strength)
    (left : Expr) (rest : List Token) :
    chain table least left (token :: rest) =
      (do
        let whole ← phrase table operator.rightStrength
        chain table least (.binary operator left whole token) : Reader Expr) rest := by
  rw [chain_cons_eq_right table isOperator enough, phrase, bind_assoc]
  simp only [right_eq_chain]

/-! ### Induction on the unread tokens -/

/-- What holds of all readers, by induction on the number of unread tokens. An operand may use what
holds of all readers on fewer tokens, a phrase what holds of its operand, and a chain what holds of
the right operand of its first operator. -/
theorem induction_on_tokens {ofPhrase : Nat → List Token → Prop} {ofOperand : List Token → Prop}
    {ofChain : Nat → Expr → List Token → Prop} {ofOthers : Nat → List Token → Prop}
    (operandNil : ofOperand [])
    (operandCons : ∀ token rest,
      (∀ unread, unread.length ≤ rest.length →
        ofOperand unread ∧ ofPhrase 0 unread ∧ ∀ count, ofOthers count unread) →
      ofOperand (token :: rest))
    (phraseStep : ∀ least tokens, ofOperand tokens →
      (∀ first unread, unread.length < tokens.length → ofChain least first unread) →
      ofPhrase least tokens)
    (chainHalts : ∀ least left tokens, Halts least tokens → ofChain least left tokens)
    (chainCons : ∀ least left (token : Token) rest operator, token.operator? = some operator →
      least ≤ operator.strength → ofPhrase operator.rightStrength rest →
      (∀ whole unread, unread.length ≤ rest.length →
        ofChain least (.binary operator left whole token) unread) →
      ofChain least left (token :: rest))
    (othersZero : ∀ tokens, ofOthers 0 tokens)
    (othersSucc : ∀ more tokens,
      (∀ unread, unread.length < tokens.length → ofPhrase 0 unread ∧ ofOthers more unread) →
      ofOthers (more + 1) tokens)
    (tokens : List Token) :
    ofOperand tokens ∧ (∀ least, ofPhrase least tokens) ∧
      (∀ least left, ofChain least left tokens) ∧ ∀ count, ofOthers count tokens := by
  induction size : tokens.length using Nat.strongRecOn generalizing tokens with
  | ind size inductionHypothesis =>
    subst size
    have shorter (unread : List Token) (bound : unread.length < tokens.length) :=
      inductionHypothesis unread.length bound unread rfl
    have operandHolds : ofOperand tokens := by
      cases tokens with
      | nil => exact operandNil
      | cons token rest =>
        refine operandCons token rest fun unread bound => ?_
        obtain ⟨operandHolds, phraseHolds, -, othersHold⟩ := shorter unread (Nat.lt_succ_of_le bound)
        exact ⟨operandHolds, phraseHolds 0, othersHold⟩
    refine ⟨operandHolds, fun least => ?_, fun least left => ?_, fun count => ?_⟩
    · exact phraseStep least tokens operandHolds fun first unread bound =>
        (shorter unread bound).2.2.1 least first
    · rcases halts_or_goesOn least tokens with halts | ⟨token, rest, operator, rfl, front, enough⟩
      · exact chainHalts least left tokens halts
      · exact chainCons least left token rest operator front enough
          ((shorter rest (Nat.lt_succ_self _)).2.1 operator.rightStrength)
          fun whole unread bound => (shorter unread (Nat.lt_succ_of_le bound)).2.2.1 least _
    · cases count with
      | zero => exact othersZero tokens
      | succ more =>
        exact othersSucc more tokens fun unread bound =>
          ⟨(shorter unread bound).2.1 0, (shorter unread bound).2.2.2 more⟩

end Reader

end DirectionField
