/-
This file reads expressions by readers that give up at a limited depth. Every reading inside another
one costs one level, and so does every further round of a loop. So a loop that goes on for ever, or
a recursion without an end, would come to nothing at any depth.

Readings inside each other cannot go on without taking tokens, and neither can the rounds of a loop.
It takes two levels at most to come to fewer tokens, but for a few levels around the outermost
reading. So twice the number of unread tokens and a little more is deep enough. The result is then
that of the readers without a limit.
-/

import DirectionField.Proofs.Folding

namespace DirectionField

/-! ### Readers of limited depth -/

/-- A computation that takes tokens from the front of the unread ones, or gives up. -/
abbrev LimitedReader : Type → Type :=
  StateT (List Token) (ExceptT Stuck Option)

namespace LimitedReader

/-- Nothing is found, not even that the tokens are wrong. -/
def giveUp {Result : Type} : LimitedReader Result := fun _ =>
  none

/-- A reader that has no need to go deeper. -/
def shallow {Result : Type} (reader : Reader Result) : LimitedReader Result := fun tokens =>
  some (reader tokens)

section

variable {State : Type} (table : SymbolTable State)

mutual

/-- Read an operand and all operators and operands that follow it. -/
def expression : Nat → LimitedReader Expr
  | 0 => giveUp
  | depth + 1 => do
    let first ← operand depth
    chain depth 0 first

/-- Read an operand. -/
def operand : Nat → LimitedReader Expr
  | 0 => giveUp
  | depth + 1 => fun tokens =>
    match tokens with
    | [] => some (.error ⟨.operand, []⟩)
    | token :: rest =>
      match token.lexeme with
      | .number value => some (.ok (.number value token, rest))
      | .name name =>
        match table.resolve? name with
        | none => some (.error ⟨.knownName, token :: rest⟩)
        | some .var => some (.ok (.var name token, rest))
        | some .const => some (.ok (.const name token, rest))
        | some (.function arity) =>
          (do
            shallow (Reader.mark .opening .opening)
            let given ← arguments depth arity.toNat
            shallow (Reader.mark .closing .closing)
            return .call name given token : LimitedReader Expr) rest
      | .mark .opening _ =>
        (do
          let inner ← expression depth
          shallow (Reader.mark .closing .closing)
          return inner : LimitedReader Expr) rest
      | .mark kind _ =>
        match kind.sign? with
        | none => some (.error ⟨.operand, token :: rest⟩)
        | some sign =>
          (do
            let signed ← operand depth
            return .unary sign signed token : LimitedReader Expr) rest

/-- Read the given number of arguments. -/
def arguments : Nat → Nat → LimitedReader (List Expr)
  | 0, _ => giveUp
  | _ + 1, 0 => pure []
  | depth + 1, more + 1 => do
    let first ← expression depth
    let rest ← others depth more
    return first :: rest

/-- Read the given number of further arguments. The next one is another round. -/
def others : Nat → Nat → LimitedReader (List Expr)
  | 0, _ => giveUp
  | _ + 1, 0 => pure []
  | depth + 1, more + 1 => do
    shallow (Reader.mark .comma .comma)
    let next ← expression depth
    let rest ← others depth more
    return next :: rest

/-- Fold the operators of at least the given strength that follow a left operand. The next operator
is another round. -/
def chain : Nat → Nat → Expr → LimitedReader Expr
  | 0, _, _ => giveUp
  | depth + 1, least, left => fun tokens =>
    match tokens with
    | [] => some (.ok (left, []))
    | token :: rest =>
      match token.operator? with
      | none => some (.ok (left, token :: rest))
      | some operator =>
        if least ≤ operator.strength then
          (do
            let next ← operand depth
            let whole ← right depth operator next
            chain depth least (.binary operator left whole token) : LimitedReader Expr) rest
        else
          some (.ok (left, token :: rest))

/-- Fold the operators that belong to the right operand of an operator. Another one that belongs to
it is another round. -/
def right : Nat → Operator → Expr → LimitedReader Expr
  | 0, _, _ => giveUp
  | depth + 1, operator, first => fun tokens =>
    match tokens with
    | [] => some (.ok (first, []))
    | token :: rest =>
      match token.operator? with
      | none => some (.ok (first, token :: rest))
      | some next =>
        if operator.yieldsTo next then
          (do
            let longer ← chain depth next.strength first
            right depth operator longer : LimitedReader Expr) (token :: rest)
        else
          some (.ok (first, token :: rest))

end

end

/-! ### Readers that do not give up -/

section

variable {Result Outcome : Type}

/-- On some tokens, a limited reader does not give up, and it comes to what a reader comes to. -/
def ComesTo (limited : LimitedReader Result) (reader : Reader Result) (tokens : List Token) : Prop :=
  limited tokens = some (reader tokens)

theorem comesTo_shallow (reader : Reader Result) (tokens : List Token) :
    ComesTo (shallow reader) reader tokens :=
  rfl

/-- Two readers in a row do not give up if the second one does not on what the first one leaves. -/
theorem ComesTo.bind {limited : LimitedReader Result} {reader : Reader Result}
    {limitedNext : Result → LimitedReader Outcome} {next : Result → Reader Outcome}
    {tokens : List Token} (first : ComesTo limited reader tokens)
    (second : ∀ result unread, reader tokens = .ok (result, unread) →
      ComesTo (limitedNext result) (next result) unread) :
    ComesTo (limited >>= limitedNext) (reader >>= next) tokens := by
  unfold ComesTo
  cases read : reader tokens with
  | error stuck =>
    rw [Reader.bind_error read]
    show ExceptT.bind (limited tokens) (fun pair => limitedNext pair.1 pair.2) = _
    rw [first, read]
    rfl
  | ok pair =>
    rw [Reader.bind_ok read, ← second pair.1 pair.2 read]
    show ExceptT.bind (limited tokens) (fun pair => limitedNext pair.1 pair.2) = _
    rw [first, read]
    rfl

theorem ComesTo.bind_pure {limited : LimitedReader Result} {reader : Reader Result}
    {tokens : List Token} (first : ComesTo limited reader tokens) (next : Result → Outcome) :
    ComesTo (limited >>= fun result => pure (next result))
      (reader >>= fun result => pure (next result)) tokens :=
  first.bind fun _ _ _ => rfl

end

section

variable {State : Type} (table : SymbolTable State)

/-- At a depth that is great enough for some tokens, no limited reader gives up on them. -/
structure NoneGivesUp (depth : Nat) (tokens : List Token) : Prop where
  expression : 2 * tokens.length + 2 ≤ depth →
    ComesTo (expression table depth) (Reader.expression table) tokens
  operand : 2 * tokens.length + 1 ≤ depth →
    ComesTo (operand table depth) (Reader.operand table) tokens
  arguments : 2 * tokens.length + 3 ≤ depth → ∀ count,
    ComesTo (arguments table depth count) (Reader.arguments table count) tokens
  others : 2 * tokens.length + 1 ≤ depth → ∀ count,
    ComesTo (others table depth count) (Reader.others table count) tokens
  chain : 2 * tokens.length + 1 ≤ depth → ∀ least left,
    ComesTo (chain table depth least left) (Reader.chain table least left) tokens
  right : 2 * tokens.length + 2 ≤ depth → ∀ operator first,
    ComesTo (right table depth operator first) (Reader.right table operator first) tokens

end

section

variable {State : Type} {table : SymbolTable State} {depth : Nat} {tokens : List Token}
  (below : ∀ tokens, NoneGivesUp table depth tokens)

include below

theorem expression_comesTo (deep : 2 * tokens.length + 1 ≤ depth) :
    ComesTo (expression table (depth + 1)) (Reader.expression table) tokens := by
  rw [Reader.expression_eq, expression]
  refine ((below tokens).operand deep).bind fun first unread read => ?_
  have bound := Reader.length_lt_of_operand table read
  exact (below unread).chain (by omega) 0 first

theorem operand_comesTo_cons (token : Token) {rest : List Token}
    (deep : 2 * rest.length + 2 ≤ depth) :
    ComesTo (operand table (depth + 1)) (Reader.operand table) (token :: rest) := by
  unfold ComesTo
  rw [operand]
  cases Reader.beginning table token with
  | number value isNumber =>
    rw [Reader.operand_number table isNumber]
    simp only [isNumber]
  | unknown name isName isUnknown =>
    rw [Reader.operand_unknown table isName isUnknown]
    simp only [isName, isUnknown]
  | var name isName isVar =>
    rw [Reader.operand_var table isName isVar]
    simp only [isName, isVar]
  | const name isName isConst =>
    rw [Reader.operand_const table isName isConst]
    simp only [isName, isConst]
  | call name arity isName isFunction =>
    rw [Reader.operand_call table isName isFunction]
    simp only [isName, isFunction]
    refine (comesTo_shallow _ _).bind fun _ opened openingRead => ?_
    have bound : opened.length < rest.length := Reader.length_lt_of_plain openingRead
    refine ((below opened).arguments (by omega) arity.toNat).bind fun given between _ => ?_
    exact (comesTo_shallow _ _).bind_pure _
  | opening isOpening =>
    rw [Reader.operand_opening table isOpening]
    obtain ⟨text, isMark⟩ := Token.lexeme_of_isMark isOpening
    simp only [isMark]
    refine ((below rest).expression deep).bind fun inner between _ => ?_
    exact (comesTo_shallow _ _).bind_pure _
  | signed sign isSign =>
    rw [Reader.operand_sign table isSign]
    obtain ⟨kind, text, isMark, isSign⟩ := Token.lexeme_of_sign? isSign
    have signed := ((below rest).operand (by omega)).bind_pure (Expr.unary sign · (some token))
    cases kind <;> cases isSign <;> simp only [isMark] <;> exact signed
  | other kind text isMark notOpening notSign =>
    rw [Reader.operand_other table isMark notOpening notSign]
    cases kind with
    | opening => exact absurd rfl notOpening
    | plus | minus => cases notSign
    | closing | star | slash | caret | comma =>
      simp only [isMark]
      rfl

theorem arguments_comesTo (count : Nat) (deep : 2 * tokens.length + 2 ≤ depth) :
    ComesTo (arguments table (depth + 1) count) (Reader.arguments table count) tokens := by
  cases count with
  | zero =>
    rw [Reader.arguments_zero, arguments]
    rfl
  | succ more =>
    rw [Reader.arguments_succ, arguments]
    refine ((below tokens).expression deep).bind fun first unread read => ?_
    have bound : unread.length < tokens.length := Reader.length_lt_of_plain read
    exact ((below unread).others (by omega) more).bind_pure _

theorem others_comesTo (count : Nat) (deep : 2 * tokens.length ≤ depth) :
    ComesTo (others table (depth + 1) count) (Reader.others table count) tokens := by
  cases count with
  | zero =>
    rw [Reader.others_zero, others]
    rfl
  | succ more =>
    rw [Reader.others_succ, others]
    refine (comesTo_shallow _ _).bind fun _ afterComma commaRead => ?_
    have commaBound : afterComma.length < tokens.length := Reader.length_lt_of_plain commaRead
    refine ((below afterComma).expression (by omega)).bind fun next unread read => ?_
    have bound : unread.length < afterComma.length := Reader.length_lt_of_plain read
    exact ((below unread).others (by omega) more).bind_pure _

theorem chain_comesTo (least : Nat) (left : Expr) (deep : 2 * tokens.length ≤ depth) :
    ComesTo (chain table (depth + 1) least left) (Reader.chain table least left) tokens := by
  unfold ComesTo
  rw [chain]
  rcases Reader.halts_or_goesOn least tokens with halts | ⟨token, rest, operator, rfl, front, enough⟩
  · rw [Reader.chain_of_halts table halts]
    cases tokens with
    | nil => rfl
    | cons token rest =>
      dsimp only
      split
      · rfl
      · next operator isOperator => rw [if_neg (Nat.not_le_of_lt (halts operator isOperator))]
  · rw [Reader.chain_cons_eq_right table front enough]
    simp only [front, if_pos enough]
    rw [List.length_cons] at deep
    refine ((below rest).operand (by omega)).bind fun next between nextRead => ?_
    have nextBound := Reader.length_lt_of_operand table nextRead
    refine ((below between).right (by omega) operator next).bind fun whole unread wholeRead => ?_
    have wholeBound := Reader.length_le_of_right table wholeRead
    exact (below unread).chain (by omega) least _

theorem right_comesTo (operator : Operator) (first : Expr)
    (deep : 2 * tokens.length + 1 ≤ depth) :
    ComesTo (right table (depth + 1) operator first) (Reader.right table operator first) tokens := by
  unfold ComesTo
  rw [right]
  cases tokens with
  | nil =>
    rw [Reader.right_of_not_yieldsTo table]
    intro next front
    cases front
  | cons token rest =>
    cases front : token.operator? with
    | none =>
      have keeps : ∀ next, frontOperator? (token :: rest) = some next →
          operator.yieldsTo next = false := by
        intro next isFront
        cases front.symm.trans isFront
      rw [Reader.right_of_not_yieldsTo table keeps]
      simp only [front]
    | some next =>
      by_cases yields : operator.yieldsTo next = true
      · rw [Reader.right_cons_of_yieldsTo table front yields]
        simp only [front, if_pos yields]
        refine ((below (token :: rest)).chain deep next.strength first).bind fun longer unread read => ?_
        have bound := Reader.length_lt_of_plain read
        rw [chainLimit_of_le front (Nat.le_refl _)] at bound
        rw [List.length_cons] at deep
        exact (below unread).right (by omega) operator longer
      · have keeps : ∀ other, frontOperator? (token :: rest) = some other →
            operator.yieldsTo other = false := by
          intro other isFront
          cases front.symm.trans isFront
          exact Bool.eq_false_iff.mpr yields
        rw [Reader.right_of_not_yieldsTo table keeps]
        simp only [front, if_neg yields]

end

section

variable {State : Type} (table : SymbolTable State)

/-- Two levels for each token, and a few more, are always deep enough. -/
theorem noneGivesUp (depth : Nat) (tokens : List Token) : NoneGivesUp table depth tokens := by
  induction depth generalizing tokens with
  | zero => constructor <;> intros <;> omega
  | succ depth below =>
    refine ⟨fun deep => ?_, fun deep => ?_, fun deep count => ?_, fun deep count => ?_,
      fun deep least left => ?_, fun deep operator first => ?_⟩
    · exact expression_comesTo below (by omega)
    · cases tokens with
      | nil =>
        unfold ComesTo
        rw [operand, Reader.operand_nil]
      | cons token rest =>
        rw [List.length_cons] at deep
        exact operand_comesTo_cons below token (by omega)
    · exact arguments_comesTo below count (by omega)
    · exact others_comesTo below count (by omega)
    · exact chain_comesTo below least left (by omega)
    · exact right_comesTo below operator first (by omega)

end

/-! ### Whole token lists -/

section

variable {State : Type} (table : SymbolTable State)

/-- Read a whole token list as one expression, or give up. -/
def readAll (depth : Nat) (tokens : List Token) : Option (Except Stuck Expr) := do
  match ← expression table depth tokens with
  | .error stuck => return .error stuck
  | .ok (whole, []) => return .ok whole
  | .ok (_, token :: rest) => return .error ⟨.finish, token :: rest⟩

theorem readAll_eq_some {depth : Nat} {tokens : List Token} (deep : 2 * tokens.length + 2 ≤ depth) :
    readAll table depth tokens = some (DirectionField.readAll table tokens) := by
  have comesTo : expression table depth tokens = some (Reader.expression table tokens) :=
    (noneGivesUp table depth tokens).expression deep
  rw [readAll, comesTo]
  cases read : Reader.expression table tokens with
  | error stuck =>
    rw [Reader.readAll_of_stuck table read]
    rfl
  | ok pair =>
    obtain ⟨tree, unread⟩ := pair
    rw [Reader.readAll_of_read table read]
    cases unread <;> rfl

end

end LimitedReader

/-- The expression that a token list stands for, read no deeper than the given depth. -/
def Expr.ofTokensWithin {State : Type} (depth : Nat) (table : SymbolTable State)
    (tokens : List Token) (source : String) : Option (Except ReadError Expr) :=
  (LimitedReader.readAll table depth tokens).map (·.mapError (·.error source tokens))

/-- Reading ends: two levels for each token, and two more, are always deep enough. -/
theorem ofTokensWithin_eq_some {State : Type} (table : SymbolTable State) {depth : Nat}
    {tokens : List Token} (deep : 2 * tokens.length + 2 ≤ depth) (source : String) :
    Expr.ofTokensWithin depth table tokens source = some (Expr.ofTokens table tokens source) := by
  rw [Expr.ofTokensWithin, LimitedReader.readAll_eq_some table deep]
  rfl

end DirectionField
