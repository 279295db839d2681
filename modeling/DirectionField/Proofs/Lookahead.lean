/-
This file proves that no reader looks further than to the first token that it leaves unread. The
tokens after that one may be changed, and the reader takes the same tokens, with the same result, or
gets stuck in the same place.

A single reader looks at one token at most, and it leaves that token unread unless it takes it. The
property carries over to readers in a row, because the second one starts where the first one
stopped.
-/

import DirectionField.Proofs.Folding

namespace DirectionField

namespace Reader

/-! ### Readers that look one token ahead -/

section

variable {Result Outcome : Type}

/-- On some tokens, a reader looks no further than to the first token that it leaves unread. Both
its result and its getting stuck depend only on the tokens that it takes and on that one. -/
structure LooksOneAhead (reader : Reader Result) (tokens : List Token) : Prop where
  ofRead : ∀ result unread, reader tokens = .ok (result, unread) →
    ∃ taken, tokens = taken ++ unread ∧
      ∀ other, other.head? = unread.head? → reader (taken ++ other) = .ok (result, other)
  ofStuck : ∀ stuck, reader tokens = .error stuck →
    ∃ taken, tokens = taken ++ stuck.unread ∧
      ∀ other, other.head? = stuck.unread.head? →
        reader (taken ++ other) = .error ⟨stuck.wanted, other⟩

theorem head?_append_congr {left right : List Token} (same : left.head? = right.head?)
    (before : List Token) : (before ++ left).head? = (before ++ right).head? := by
  rw [List.head?_append, List.head?_append, same]

namespace LooksOneAhead

/-- A result without any reading looks at nothing. -/
theorem pure (result : Result) (tokens : List Token) :
    LooksOneAhead (Pure.pure result) tokens where
  ofRead := by
    intro found unread read
    cases read
    exact ⟨[], rfl, fun _ _ => rfl⟩
  ofStuck := nofun

/-- A reader that gets stuck at the front, whatever comes after the first token. -/
theorem of_stuck {reader : Reader Result} {tokens : List Token} (wanted : Wanted)
    (failed : ∀ other, other.head? = tokens.head? → reader other = .error ⟨wanted, other⟩) :
    LooksOneAhead reader tokens where
  ofRead := by
    intro result unread read
    rw [failed tokens rfl] at read
    cases read
  ofStuck := by
    intro stuck isStuck
    rw [failed tokens rfl] at isStuck
    cases isStuck
    exact ⟨[], rfl, failed⟩

/-- A reader may take a token first and do what another reader does after it. -/
theorem cons {reader remaining : Reader Result} {token : Token} {rest : List Token}
    (takes : ∀ rest, reader (token :: rest) = remaining rest)
    (looks : LooksOneAhead remaining rest) : LooksOneAhead reader (token :: rest) where
  ofRead := by
    intro result unread read
    rw [takes] at read
    obtain ⟨taken, rfl, same⟩ := looks.ofRead result unread read
    refine ⟨token :: taken, rfl, fun other front => ?_⟩
    rw [List.cons_append, takes, same other front]
  ofStuck := by
    intro stuck failed
    rw [takes] at failed
    obtain ⟨taken, isTaken, same⟩ := looks.ofStuck stuck failed
    refine ⟨token :: taken, by rw [isTaken, List.cons_append], fun other front => ?_⟩
    rw [List.cons_append, takes, same other front]

/-- Two readers in a row look one token ahead if each of them does. -/
theorem bind {first : Reader Result} {next : Result → Reader Outcome} {tokens : List Token}
    (firstLooks : LooksOneAhead first tokens)
    (nextLooks : ∀ result unread, first tokens = .ok (result, unread) →
      LooksOneAhead (next result) unread) :
    LooksOneAhead (first >>= next) tokens where
  ofRead := by
    intro outcome unread read
    obtain ⟨result, between, firstRead, nextRead⟩ := bind_eq_ok read
    obtain ⟨taken, rfl, firstSame⟩ := firstLooks.ofRead result between firstRead
    obtain ⟨further, rfl, nextSame⟩ :=
      (nextLooks result between firstRead).ofRead outcome unread nextRead
    refine ⟨taken ++ further, (List.append_assoc ..).symm, fun other front => ?_⟩
    rw [List.append_assoc, bind_ok (firstSame _ (head?_append_congr front further)),
      nextSame other front]
  ofStuck := by
    intro stuck failed
    rcases bind_eq_error failed with firstFailed | ⟨result, between, firstRead, nextFailed⟩
    · obtain ⟨taken, isTaken, firstSame⟩ := firstLooks.ofStuck stuck firstFailed
      exact ⟨taken, isTaken, fun other front => bind_error (firstSame other front)⟩
    · obtain ⟨taken, rfl, firstSame⟩ := firstLooks.ofRead result between firstRead
      obtain ⟨further, isFurther, nextSame⟩ :=
        (nextLooks result between firstRead).ofStuck stuck nextFailed
      refine ⟨taken ++ further, by rw [List.append_assoc, ← isFurther], fun other front => ?_⟩
      have firstFront : (further ++ other).head? = between.head? := by
        rw [isFurther]
        exact head?_append_congr front further
      rw [List.append_assoc, bind_ok (firstSame _ firstFront), nextSame other front]

/-- The result of a reader may be turned into another one. -/
theorem bind_pure {first : Reader Result} {tokens : List Token}
    (firstLooks : LooksOneAhead first tokens) (next : Result → Outcome) :
    LooksOneAhead (first >>= fun result => Pure.pure (next result)) tokens :=
  firstLooks.bind fun result unread _ => .pure (next result) unread

theorem mark (kind : Mark) (wanted : Wanted) (tokens : List Token) :
    LooksOneAhead (mark kind wanted) tokens := by
  rcases isMark_or_missing kind tokens with ⟨token, rest, rfl, isMark⟩ | missing
  · exact .cons (mark_of_isMark isMark wanted) (.pure () rest)
  · exact .of_stuck wanted fun other front =>
      mark_of_missing (fun token isFront => missing token (front ▸ isFront)) wanted

end LooksOneAhead

end

/-! ### All readers look one token ahead -/

section

variable {State : Type} {table : SymbolTable State}

theorem expression_looksOneAhead {tokens : List Token}
    (phraseLooks : LooksOneAhead (phrase table 0) tokens) :
    LooksOneAhead (expression table) tokens := by
  rw [expression_eq]
  exact phraseLooks

theorem arguments_looksOneAhead {tokens : List Token} {count : Nat}
    (firstLooks : LooksOneAhead (phrase table 0) tokens)
    (othersLook : ∀ rest, rest.length ≤ tokens.length → ∀ more,
      LooksOneAhead (others table more) rest) :
    LooksOneAhead (arguments table count) tokens := by
  cases count with
  | zero =>
    rw [arguments_zero]
    exact .pure [] tokens
  | succ more =>
    rw [arguments_succ]
    refine (expression_looksOneAhead firstLooks).bind fun first unread read => ?_
    have shorter : unread.length ≤ tokens.length := Nat.le_of_lt (length_lt_of_plain read)
    exact (othersLook unread shorter more).bind_pure _

theorem operand_looksOneAhead_cons (token : Token) (rest : List Token)
    (shorter : ∀ unread, unread.length ≤ rest.length →
      LooksOneAhead (operand table) unread ∧ LooksOneAhead (phrase table 0) unread ∧
        ∀ count, LooksOneAhead (others table count) unread) :
    LooksOneAhead (operand table) (token :: rest) := by
  obtain ⟨operandLooks, phraseLooks, -⟩ := shorter rest (Nat.le_refl _)
  have stuck (wanted : Wanted)
      (failed : ∀ rest, operand table (token :: rest) = .error ⟨wanted, token :: rest⟩) :
      LooksOneAhead (operand table) (token :: rest) := by
    refine .of_stuck wanted fun other front => ?_
    obtain ⟨tail, rfl⟩ := List.head?_eq_some_iff.mp front
    exact failed tail
  cases beginning table token with
  | number value isNumber => exact .cons (operand_number table isNumber) (.pure _ rest)
  | unknown name isName isUnknown => exact stuck .knownName (operand_unknown table isName isUnknown)
  | var name isName isVar => exact .cons (operand_var table isName isVar) (.pure _ rest)
  | const name isName isConst => exact .cons (operand_const table isName isConst) (.pure _ rest)
  | call name arity isName isFunction =>
    refine .cons (operand_call table isName isFunction) ?_
    refine (LooksOneAhead.mark .opening .opening rest).bind fun _ opened openingRead => ?_
    have bound : opened.length ≤ rest.length := Nat.le_of_lt (length_lt_of_plain openingRead)
    have argumentsLook : LooksOneAhead (arguments table arity.toNat) opened :=
      arguments_looksOneAhead (shorter opened bound).2.1 fun tail tailBound =>
        (shorter tail (Nat.le_trans tailBound bound)).2.2
    refine argumentsLook.bind fun given between _ => ?_
    exact (LooksOneAhead.mark .closing .closing between).bind_pure _
  | opening isOpening =>
    refine .cons (operand_opening table isOpening) ?_
    refine (expression_looksOneAhead phraseLooks).bind fun inner between _ => ?_
    exact (LooksOneAhead.mark .closing .closing between).bind_pure _
  | signed sign isSign =>
    exact .cons (operand_sign table isSign) (operandLooks.bind_pure _)
  | other kind text isMark notOpening notSign =>
    exact stuck .operand (operand_other table isMark notOpening notSign)

theorem chain_looksOneAhead_of_halts (least : Nat) (left : Expr) (tokens : List Token)
    (halts : Halts least tokens) : LooksOneAhead (chain table least left) tokens where
  ofRead := by
    intro tree unread read
    rw [chain_of_halts table halts] at read
    cases read
    refine ⟨[], rfl, fun other front => chain_of_halts table ?_ left⟩
    intro operator isFront
    rw [List.nil_append, frontOperator?, front] at isFront
    exact halts operator isFront
  ofStuck := by
    intro stuck failed
    rw [chain_of_halts table halts] at failed
    cases failed

variable (table) in
/-- Every reader looks one token ahead on every token list. -/
theorem looksOneAhead (tokens : List Token) :
    LooksOneAhead (operand table) tokens ∧ (∀ least, LooksOneAhead (phrase table least) tokens) ∧
      (∀ least left, LooksOneAhead (chain table least left) tokens) ∧
        ∀ count, LooksOneAhead (others table count) tokens := by
  refine induction_on_tokens ?_ operand_looksOneAhead_cons ?_ chain_looksOneAhead_of_halts ?_ ?_ ?_
    tokens
  · refine .of_stuck .operand fun other front => ?_
    rw [List.head?_eq_none_iff.mp front]
    exact operand_nil table
  · intro least tokens operandLooks chainLooks
    exact operandLooks.bind fun first unread read =>
      chainLooks first unread (length_lt_of_operand table read)
  · intro least left token rest operator isOperator enough phraseLooks chainLooks
    refine .cons (chain_cons table isOperator enough left) ?_
    exact phraseLooks.bind fun whole unread read =>
      chainLooks whole unread (Nat.le_of_lt (length_lt_of_phrase table read))
  · intro tokens
    rw [others_zero]
    exact .pure [] tokens
  · intro more tokens shorter
    rw [others_succ]
    refine (LooksOneAhead.mark .comma .comma tokens).bind fun _ afterComma commaRead => ?_
    have commaBound := length_lt_of_plain commaRead
    refine (expression_looksOneAhead (shorter afterComma commaBound).1).bind
      fun next between nextRead => ?_
    have nextBound := length_lt_of_plain nextRead
    exact (shorter between (Nat.lt_trans nextBound commaBound)).2.bind_pure _

end

end Reader

end DirectionField
