/-
This file proves what a chain does with the operators that it takes. They are taken in turn, each
with the operand behind it, as long as they are strong enough, and none of them is left over. In the
result they are grouped by their strengths: what stands on the left of an operator is not weaker,
and what stands on its right is stronger. Powers are the exception, which stand on the right of one
another.

The invariant of a chain is about the grouping of its left operand: no operator in there yields to
an operator in front of the unread tokens. So that operator may have the whole left operand on its
left.
-/

import DirectionField.Proofs.Lookahead
import DirectionField.Symbols.Standard

namespace DirectionField

namespace Operator

/-- An operator is not strong enough for the right operand of another one if it is weaker, or as
strong and no power. -/
theorem lt_rightStrength_iff {operator next : Operator} :
    next.strength < operator.rightStrength ↔
      ¬operator.strength < next.strength ∧ ¬(operator = .power ∧ next = .power) := by
  cases operator <;> cases next <;> decide

theorem rightStrength_le_iff {operator next : Operator} :
    operator.rightStrength ≤ next.strength ↔
      operator.strength < next.strength ∨ (operator = .power ∧ next = .power) := by
  rw [← Nat.not_lt, lt_rightStrength_iff, ← not_or, Classical.not_not]

theorem strength_le_rightStrength (operator : Operator) :
    operator.strength ≤ operator.rightStrength := by
  cases operator <;> decide

theorem rightStrength_le_succ (operator : Operator) :
    operator.rightStrength ≤ operator.strength + 1 := by
  cases operator <;> decide

end Operator

/-! ### Links -/

/-- A link of a chain: an operator, with its token, and the operand behind it. -/
structure Link where
  token : Token
  operator : Operator
  operand : Expr

section

variable {State : Type} (table : SymbolTable State)

/-- Some tokens are links and the unread tokens behind them. The operand of each link is what is
read behind its operator. -/
inductive AreLinks (unread : List Token) : List Token → List Link → Prop
  | nil : AreLinks unread unread []
  | cons {token : Token} {operator : Operator} {operand : Expr} {taken rest : List Token}
      {links : List Link} (isOperator : token.operator? = some operator)
      (read : Reader.operand table (taken ++ rest) = .ok (operand, rest))
      (others : AreLinks unread rest links) :
      AreLinks unread (token :: (taken ++ rest)) (⟨token, operator, operand⟩ :: links)

end

/-! ### Groupings -/

/-- A grouping of operands by operators. An operand is not taken apart. -/
inductive Grouping
  | operand (tree : Expr)
  | binary (token : Token) (operator : Operator) (left right : Grouping)

namespace Grouping

/-- The tree of a grouping. -/
def tree : Grouping → Expr
  | operand tree => tree
  | binary token operator left right => .binary operator left.tree right.tree token

/-- The leftmost operand. -/
def first : Grouping → Expr
  | operand tree => tree
  | binary _ _ left _ => left.first

/-- The operators of a grouping with the operands behind them, from left to right. -/
def links : Grouping → List Link
  | operand _ => []
  | binary token operator left right => left.links ++ ⟨token, operator, right.first⟩ :: right.links

/-- Every operator has on its left no weaker operator and no power if it is a power itself, and it
has on its right stronger operators only, or powers if it is a power itself. -/
def IsOrdered : Grouping → Prop
  | operand _ => True
  | binary _ operator left right =>
    (∀ link ∈ left.links, ¬link.operator.strength < operator.strength ∧
      ¬(link.operator = .power ∧ operator = .power)) ∧
    (∀ link ∈ right.links, operator.strength < link.operator.strength ∨
      (operator = .power ∧ link.operator = .power)) ∧
    left.IsOrdered ∧ right.IsOrdered

/-- An operator in front of some tokens may have a grouping on its left: no operator of the grouping
yields to it. -/
def Precedes (grouping : Grouping) (tokens : List Token) : Prop :=
  ∀ link ∈ grouping.links, Reader.Halts link.operator.rightStrength tokens

theorem precedes_operand (tree : Expr) (tokens : List Token) : (operand tree).Precedes tokens :=
  List.forall_mem_nil _

end Grouping

/-! ### What a chain groups -/

section

variable {State : Type} {table : SymbolTable State}

theorem AreLinks.append {unread between tokens : List Token} {links more : List Link}
    (front : AreLinks table between tokens links) (back : AreLinks table unread between more) :
    AreLinks table unread tokens (links ++ more) := by
  induction front with
  | nil => exact back
  | cons isOperator read _ inductionHypothesis =>
    exact .cons isOperator read inductionHypothesis

namespace Reader

variable {least : Nat} {tokens unread : List Token} {result : Expr}

/-- Operators that yield to none in front of some tokens can be grouped on the left of the operator
in front. Its right operand holds the stronger ones, and yields to none behind it. -/
theorem precedes_binary {start whole : Grouping} {token : Token} {operator : Operator}
    {rest between : List Token} (front : token.operator? = some operator)
    (precedes : start.Precedes (token :: rest)) (halts : Halts operator.rightStrength between)
    (enough : ∀ link ∈ whole.links, operator.rightStrength ≤ link.operator.strength) :
    (Grouping.binary token operator start whole).Precedes between := by
  intro link member
  refine halts.mono ?_
  rcases List.mem_append.mp member with isLeft | isRight
  · exact Nat.le_trans operator.rightStrength_le_succ (precedes link isLeft operator front)
  · rcases List.mem_cons.mp isRight with rfl | isInside
    · exact Nat.le_refl _
    · exact Nat.le_trans (enough link isInside) link.operator.strength_le_rightStrength

theorem isOrdered_binary {start whole : Grouping} {token : Token} {operator : Operator}
    {rest : List Token} (front : token.operator? = some operator)
    (precedes : start.Precedes (token :: rest)) (startOrdered : start.IsOrdered)
    (wholeOrdered : whole.IsOrdered)
    (enough : ∀ link ∈ whole.links, operator.rightStrength ≤ link.operator.strength) :
    (Grouping.binary token operator start whole).IsOrdered :=
  ⟨fun link member => Operator.lt_rightStrength_iff.mp (precedes link member operator front),
    fun link member => Operator.rightStrength_le_iff.mp (enough link member),
    startOrdered, wholeOrdered⟩

/-- A chain takes links until it halts, and groups them together with the left operand. -/
theorem exists_grouping (start : Grouping) (ordered : start.IsOrdered)
    (precedes : start.Precedes tokens)
    (read : chain table least start.tree tokens = .ok (result, unread)) :
    Halts least unread ∧ ∃ links, AreLinks table unread tokens links ∧
      (∀ link ∈ links, least ≤ link.operator.strength) ∧
      ∃ grouping : Grouping, grouping.tree = result ∧ grouping.first = start.first ∧
        grouping.links = start.links ++ links ∧ grouping.IsOrdered := by
  induction size : tokens.length using Nat.strongRecOn
    generalizing least start tokens result unread with
  | ind size inductionHypothesis =>
    rcases halts_or_goesOn least tokens with halts | ⟨token, rest, operator, rfl, front, enough⟩
    · rw [chain_of_halts table halts] at read
      cases read
      exact ⟨halts, [], .nil, List.forall_mem_nil _, start, rfl, rfl, (List.append_nil _).symm,
        ordered⟩
    · rw [chain_cons table front enough] at read
      obtain ⟨tree, between, phraseRead, chainRead⟩ := bind_eq_ok read
      obtain ⟨next, behind, operandRead, rightRead⟩ := bind_eq_ok phraseRead
      have operandBound := length_lt_of_operand table operandRead
      have rightBound := length_le_of_chain table rightRead
      rw [List.length_cons] at size
      -- The right operand is a grouping of its own, which starts with the operand that was read.
      obtain ⟨rightHalts, inner, areInner, innerEnough, whole, rfl, wholeFirst, wholeLinks,
          wholeOrdered⟩ :=
        inductionHypothesis behind.length (by omega) (.operand next) trivial
          (Grouping.precedes_operand next behind) rightRead rfl
      have stronger : ∀ link ∈ whole.links, operator.rightStrength ≤ link.operator.strength := by
        rw [wholeLinks]
        exact innerEnough
      -- The operator takes it together with the left operand, and the chain goes on with that.
      obtain ⟨halts, others, areOthers, othersEnough, grouping, isTree, isFirst, isLinks,
          isOrdered⟩ :=
        inductionHypothesis between.length (by omega) (.binary token operator start whole)
          (isOrdered_binary front precedes ordered wholeOrdered stronger)
          (precedes_binary front precedes rightHalts stronger) chainRead rfl
      obtain ⟨taken, rfl, -⟩ := (looksOneAhead table rest).1.ofRead _ _ operandRead
      have innerEnough' : ∀ link ∈ inner, least ≤ link.operator.strength := fun link member =>
        Nat.le_trans enough
          (Nat.le_trans operator.strength_le_rightStrength (innerEnough link member))
      refine ⟨halts, ⟨token, operator, next⟩ :: (inner ++ others),
        .cons front operandRead (areInner.append areOthers), ?_, grouping, isTree, isFirst, ?_,
        isOrdered⟩
      · exact List.forall_mem_cons.mpr
          ⟨enough, List.forall_mem_append.mpr ⟨innerEnough', othersEnough⟩⟩
      · rw [isLinks, Grouping.links, wholeFirst, wholeLinks, Grouping.first, Grouping.links,
          List.nil_append, List.append_assoc, List.cons_append]

/-! ### Chains step by step -/

/-- An operand is a phrase if no operator that is strong enough follows it. -/
theorem phrase_of_halts (read : operand table tokens = .ok (result, unread))
    (halts : Halts least unread) : phrase table least tokens = .ok (result, unread) :=
  (bind_ok read).trans (chain_of_halts table halts result)

/-- A chain goes on behind the right operand of its first operator. -/
theorem chain_of_phrase {left whole : Expr} {token : Token} {operator : Operator}
    {rest between : List Token} (isOperator : token.operator? = some operator)
    (enough : least ≤ operator.strength)
    (read : phrase table operator.rightStrength rest = .ok (whole, between)) :
    chain table least left (token :: rest) =
      chain table least (.binary operator left whole token) between := by
  rw [chain_cons table isOperator enough]
  exact bind_ok read

end Reader

/-- A chain takes links as long as their operators are strong enough: each operand is what is read
behind its operator, and no such operator is left in front. The result groups the left operand, as
the leftmost one, and the operands of the links by the operators, in this order. An operator has no
weaker one on its left, and a power no other power. On its right an operator has stronger ones only,
and a power other powers. -/
theorem groups_of_readChain {least : Nat} {left : Expr} {tokens : List Token}
    {reading : Reading Expr (chainLimit least tokens)}
    (read : readChain table least left tokens = .ok reading) :
    Reader.Halts least reading.unread ∧ ∃ links, AreLinks table reading.unread tokens links ∧
      (∀ link ∈ links, least ≤ link.operator.strength) ∧
      ∃ grouping : Grouping, grouping.tree = reading.result ∧ grouping.first = left ∧
        grouping.links = links ∧ grouping.IsOrdered := by
  have plainRead : Reader.chain table least left tokens = .ok (reading.result, reading.unread) := by
    show Reader.plain (readChain table least left tokens) = _
    rw [read]
    rfl
  exact Reader.exists_grouping (.operand left) trivial (Grouping.precedes_operand left tokens)
    plainRead

end

/-- In `x*2^3^y/5+7` the product is folded before the quotient, and the powers before both. The sum
is not strong enough. -/
theorem groups_of_readChain_rising :
    let table : SymbolTable Unit := standardTable (pure 0.5)
    let mark (kind : Mark) (index : Int) : Token := ⟨.mark kind "", "", index, 1⟩
    let number (value : Float) (index : Int) : Token := ⟨.number value, "", index, 1⟩
    let y : Token := ⟨.name "y", "", 6, 1⟩
    let left : Expr := .var "x"
    let tokens : List Token :=
      [mark .star 1, number 2.0 2, mark .caret 3, number 3.0 4, mark .caret 5, y, mark .slash 7,
        number 5.0 8, mark .plus 9, number 7.0 10]
    let power : Expr := .binary .power (.number 2.0 (number 2.0 2))
      (.binary .power (.number 3.0 (number 3.0 4)) (.var "y" y) (mark .caret 5)) (mark .caret 3)
    let product : Expr := .binary .multiply left power (mark .star 1)
    ∃ reading, readChain table 2 left tokens = .ok reading ∧
      reading.result = .binary .divide product (.number 5.0 (number 5.0 8)) (mark .slash 7) ∧
      reading.unread = [mark .plus 9, number 7.0 10] ∧
      Reader.Halts 2 reading.unread ∧ ∃ links, AreLinks table reading.unread tokens links ∧
        (∀ link ∈ links, 2 ≤ link.operator.strength) ∧
        ∃ grouping : Grouping, grouping.tree = reading.result ∧ grouping.first = left ∧
          grouping.links = links ∧ grouping.IsOrdered := by
  intro table mark number y left tokens power product
  let sum : List Token := [mark .plus 9, number 7.0 10]
  let quotient : List Token := mark .slash 7 :: number 5.0 8 :: sum
  let inner : Expr := .binary .power (.number 3.0 (number 3.0 4)) (.var "y" y) (mark .caret 5)
  have innerRead : Reader.phrase table 3 (number 3.0 4 :: mark .caret 5 :: y :: quotient) =
      .ok (inner, quotient) := by
    refine (Reader.bind_ok (Reader.operand_number table rfl _)).trans ?_
    have yRead : Reader.phrase table 3 (y :: quotient) = .ok (.var "y" y, quotient) :=
      Reader.phrase_of_halts (Reader.operand_var table rfl rfl quotient)
        (Reader.halts_cons rfl (by decide) _)
    refine (Reader.chain_of_phrase rfl (by decide) yRead).trans ?_
    exact Reader.chain_of_halts table (Reader.halts_cons rfl (by decide) _) inner
  have powerRead : Reader.phrase table 3 (number 2.0 2 :: mark .caret 3 :: number 3.0 4 ::
      mark .caret 5 :: y :: quotient) = .ok (power, quotient) := by
    refine (Reader.bind_ok (Reader.operand_number table rfl _)).trans ?_
    refine (Reader.chain_of_phrase rfl (by decide) innerRead).trans ?_
    exact Reader.chain_of_halts table (Reader.halts_cons rfl (by decide) _) power
  have divisorRead : Reader.phrase table 3 (number 5.0 8 :: sum) =
      .ok (.number 5.0 (number 5.0 8), sum) :=
    Reader.phrase_of_halts (Reader.operand_number table rfl sum)
      (Reader.halts_cons rfl (by decide) _)
  have read : Reader.chain table 2 left tokens =
      .ok (.binary .divide product (.number 5.0 (number 5.0 8)) (mark .slash 7), sum) := by
    refine (Reader.chain_of_phrase rfl (by decide) powerRead).trans ?_
    refine (Reader.chain_of_phrase rfl (by decide) divisorRead).trans ?_
    exact Reader.chain_of_halts table (Reader.halts_cons rfl (by decide) _) _
  obtain ⟨reading, isRead, isResult, isUnread⟩ := Reader.exists_of_plain read
  exact ⟨reading, isRead, isResult, isUnread, groups_of_readChain isRead⟩

end DirectionField
