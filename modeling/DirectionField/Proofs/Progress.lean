/-
This file proves that reading always makes progress. Whether a reader succeeds or gets stuck, what
it leaves unread is an end of its tokens. An operand or an expression takes a token at least, and a
round of a chain takes two, an operator and an operand. So the unread tokens are a measure of how
deep readings can be inside each other and how often a loop can go round, for any token list and any
table.
-/

import DirectionField.Proofs.Depth
import DirectionField.Proofs.Lookahead

namespace DirectionField

namespace Reader

/-! ### Readers that advance -/

/-- Some tokens are left of a token list after at least the given number of tokens has been taken
from its front. -/
def IsLeft (least : Nat) (tokens unread : List Token) : Prop :=
  ∃ taken, tokens = taken ++ unread ∧ least ≤ taken.length

section

variable {Result : Type}

/-- On some tokens, a reader only takes tokens from the front, at least the given number of them if
it succeeds. -/
structure Advances (least : Nat) (reader : Reader Result) (tokens : List Token) : Prop where
  ofRead : ∀ result unread, reader tokens = .ok (result, unread) → IsLeft least tokens unread
  ofStuck : ∀ stuck, reader tokens = .error stuck → IsLeft 0 tokens stuck.unread

/-- How many tokens a reader takes is seen from the number of those that it leaves. -/
theorem LooksOneAhead.advances {least : Nat} {reader : Reader Result} {tokens : List Token}
    (looks : LooksOneAhead reader tokens)
    (bound : ∀ result unread, reader tokens = .ok (result, unread) →
      unread.length + least ≤ tokens.length) : Advances least reader tokens where
  ofRead := by
    intro result unread read
    obtain ⟨taken, isTaken, -⟩ := looks.ofRead result unread read
    have enough := bound result unread read
    rw [isTaken, List.length_append] at enough
    exact ⟨taken, isTaken, by omega⟩
  ofStuck := by
    intro stuck failed
    obtain ⟨taken, isTaken, -⟩ := looks.ofStuck stuck failed
    exact ⟨taken, isTaken, Nat.zero_le _⟩

end

section

variable {State : Type} (table : SymbolTable State) (tokens : List Token)

theorem mark_advances (kind : Mark) (wanted : Wanted) : Advances 1 (mark kind wanted) tokens :=
  (LooksOneAhead.mark kind wanted tokens).advances fun _ _ read => length_lt_of_plain read

theorem operand_advances : Advances 1 (operand table) tokens :=
  (looksOneAhead table tokens).1.advances fun _ _ read => length_lt_of_operand table read

theorem expression_advances : Advances 1 (expression table) tokens :=
  (expression_looksOneAhead ((looksOneAhead table tokens).2.1 0)).advances
    fun _ _ read => length_lt_of_plain read

theorem arguments_advances (count : Nat) : Advances 0 (arguments table count) tokens := by
  refine (arguments_looksOneAhead ((looksOneAhead table tokens).2.1 0) fun rest _ =>
    (looksOneAhead table rest).2.2.2).advances fun _ _ read => ?_
  exact Nat.le_of_lt_succ (length_lt_of_plain read)

theorem others_advances (count : Nat) : Advances 0 (others table count) tokens :=
  ((looksOneAhead table tokens).2.2.2 count).advances
    fun _ _ read => Nat.le_of_lt_succ (length_lt_of_plain read)

theorem chain_advances (least : Nat) (left : Expr) : Advances 0 (chain table least left) tokens :=
  ((looksOneAhead table tokens).2.2.1 least left).advances
    fun _ _ read => length_le_of_chain table read

theorem right_advances (operator : Operator) (first : Expr) :
    Advances 0 (right table operator first) tokens := by
  rw [right_eq_chain]
  exact chain_advances table tokens operator.rightStrength first

/-! ### Rounds of loops -/

/-- One round of a chain, behind an operator: its right operand is read, takes over what belongs to
it, and is folded together with the left operand. -/
def round (left : Expr) (token : Token) (operator : Operator) : Reader Expr := do
  let next ← operand table
  let whole ← right table operator next
  return .binary operator left whole token

variable {tokens} {least : Nat} {token : Token} {rest : List Token} {operator : Operator}

theorem chain_cons_eq_round (isOperator : token.operator? = some operator)
    (enough : least ≤ operator.strength) (left : Expr) :
    chain table least left (token :: rest) =
      (do
        let longer ← round table left token operator
        chain table least longer : Reader Expr) rest := by
  rw [chain_cons_eq_right table isOperator enough, round, bind_assoc]
  simp only [bind_assoc, pure_bind]

/-- A round takes an operand, so it takes two tokens with the operator in front. -/
theorem isLeft_of_round {left longer : Expr} {unread : List Token}
    (read : round table left token operator rest = .ok (longer, unread)) :
    IsLeft 2 (token :: rest) unread := by
  obtain ⟨next, between, nextRead, othersRead⟩ := bind_eq_ok read
  obtain ⟨whole, after, wholeRead, isLast⟩ := bind_eq_ok othersRead
  cases isLast
  obtain ⟨first, rfl, firstBound⟩ := (operand_advances table rest).ofRead _ _ nextRead
  obtain ⟨second, rfl, -⟩ := (right_advances table between operator next).ofRead _ _ wholeRead
  refine ⟨token :: (first ++ second), by rw [List.cons_append, List.append_assoc], ?_⟩
  rw [List.length_cons, List.length_append]
  omega

/-- A chain that starts with an operator of its own takes two tokens at least. -/
theorem chain_advances_of_le (isOperator : token.operator? = some operator)
    (enough : least ≤ operator.strength) (left : Expr) :
    Advances 2 (chain table least left) (token :: rest) := by
  refine ((looksOneAhead table (token :: rest)).2.2.1 least left).advances fun tree unread read => ?_
  have bound := length_lt_of_plain read
  rw [chainLimit_of_le isOperator enough] at bound
  rw [List.length_cons]
  omega

end

/-! ### All reading makes progress -/

section

variable {State : Type}

/-- Reading makes progress on some tokens. -/
structure MakesProgress (table : SymbolTable State) (tokens : List Token) : Prop where
  mark : ∀ kind wanted, Advances 1 (mark kind wanted) tokens
  operand : Advances 1 (operand table) tokens
  expression : Advances 1 (expression table) tokens
  arguments : ∀ count, Advances 0 (arguments table count) tokens
  others : ∀ count, Advances 0 (others table count) tokens
  chain : ∀ least left, Advances 0 (chain table least left) tokens
  right : ∀ operator first, Advances 0 (right table operator first) tokens
  /-- A chain goes on with what its first round leaves. The round takes two tokens. -/
  chainRound : ∀ least left token rest operator, tokens = token :: rest →
    token.operator? = some operator → least ≤ operator.strength →
    Reader.chain table least left tokens =
        (round table left token operator >>= Reader.chain table least) rest ∧
      ∀ longer unread, round table left token operator rest = .ok (longer, unread) →
        IsLeft 2 tokens unread
  /-- A right operand goes on with what a chain inside it leaves. The chain takes two tokens. -/
  rightRound : ∀ operator first token rest next, tokens = token :: rest →
    token.operator? = some next → operator.yieldsTo next →
    Reader.right table operator first tokens =
        (Reader.chain table next.strength first >>= Reader.right table operator) tokens ∧
      Advances 2 (Reader.chain table next.strength first) tokens
  /-- Two levels of readings and rounds for each token, and a few more, are enough for every reader. -/
  levels : ∀ depth, LimitedReader.NoneGivesUp table depth tokens
  ends : ∀ depth, 2 * tokens.length + 2 ≤ depth → ∀ source,
    Expr.ofTokensWithin depth table tokens source = some (Expr.ofTokens table tokens source)

/-- Reading makes progress over every table on every token list, whether it is an expression or not.
-/
theorem makesProgress (table : SymbolTable State) (tokens : List Token) :
    MakesProgress table tokens where
  mark := mark_advances tokens
  operand := operand_advances table tokens
  expression := expression_advances table tokens
  arguments := arguments_advances table tokens
  others := others_advances table tokens
  chain := chain_advances table tokens
  right := right_advances table tokens
  chainRound := by
    rintro least left token rest operator rfl isOperator enough
    exact ⟨chain_cons_eq_round table isOperator enough left, fun _ _ => isLeft_of_round table⟩
  rightRound := by
    rintro operator first token rest next rfl isOperator yields
    exact ⟨right_cons_of_yieldsTo table isOperator yields first rest,
      chain_advances_of_le table isOperator (Nat.le_refl _) first⟩
  levels depth := LimitedReader.noneGivesUp table depth tokens
  ends := fun _ deep source => ofTokensWithin_eq_some table deep source

end

end Reader

end DirectionField
