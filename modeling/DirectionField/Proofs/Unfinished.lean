/-
This file proves that a reader that gets stuck has taken the beginning of a phrase. To complete it,
a zero is put where an operand is wanted, and then the brackets and the arguments that are still
missing are put after it.

Readers in a row each have their own completion. What the ones before have taken is a phrase of the
grammar already, and what the ones after would take can be made up.
-/

import DirectionField.Proofs.Soundness

namespace DirectionField

/-! ### Tokens that complete a phrase -/

namespace Completion

/-- A number, which may stand wherever an operand is wanted. -/
def zero : Token := ⟨.number 0, "0", 0, 1⟩

/-- An opening bracket. -/
def opening : Token := ⟨.mark .opening "(", "(", 0, 1⟩

/-- A closing bracket. -/
def closing : Token := ⟨.mark .closing ")", ")", 0, 1⟩

/-- A comma. -/
def comma : Token := ⟨.mark .comma ",", ",", 0, 1⟩

end Completion

section

variable {State : Type} (table : SymbolTable State)

/-- A token list is a phrase of a layer. -/
def IsPhrase (level : Level) (tokens : List Token) : Prop :=
  ∃ tree, Derives table level tokens tree

/-- A token list consists of the given number of expressions, with a comma in front of each. -/
def AreOthers (count : Nat) (tokens : List Token) : Prop :=
  ∃ trees, DerivesOthers table count tokens trees

/-- A token list consists of the given number of expressions, with commas between them. -/
def AreArguments (count : Nat) (tokens : List Token) : Prop :=
  ∃ trees, DerivesArguments table count tokens trees

end

section

variable {State : Type} {table : SymbolTable State}

theorem IsPhrase.loosen {low high : Level} {tokens : List Token}
    (phrase : IsPhrase table high tokens) (looser : low.rank ≤ high.rank) :
    IsPhrase table low tokens := by
  obtain ⟨tree, derived⟩ := phrase
  exact ⟨tree, derived.loosen looser⟩

variable (table)

theorem isPhrase_zero (level : Level) : IsPhrase table level [Completion.zero] :=
  ⟨_, (Derives.number rfl).loosen level.rank_le_primary⟩

/-- Any number of further arguments can be made up. -/
theorem exists_areOthers (count : Nat) : ∃ tokens, AreOthers table count tokens := by
  induction count with
  | zero => exact ⟨[], [], .zero⟩
  | succ more inductionHypothesis =>
    obtain ⟨tokens, trees, others⟩ := inductionHypothesis
    obtain ⟨tree, derived⟩ := isPhrase_zero table .sum
    have isComma : Completion.comma.isMark .comma := rfl
    exact ⟨_, _, .succ isComma derived others⟩

/-- Any number of arguments can be made up. -/
theorem exists_areArguments (count : Nat) : ∃ tokens, AreArguments table count tokens := by
  cases count with
  | zero => exact ⟨[], [], .zero⟩
  | succ more =>
    obtain ⟨tokens, trees, others⟩ := exists_areOthers table more
    obtain ⟨tree, derived⟩ := isPhrase_zero table .sum
    exact ⟨_, _, .succ derived others⟩

end

/-! ### Completing what a reader has taken -/

namespace Reader

section

variable {Result Outcome : Type}

/-- If a reader gets stuck on some tokens, those that it has taken can be completed. -/
def Completes (reader : Reader Result) (tokens : List Token) (isWhole : List Token → Prop) : Prop :=
  ∀ stuck, reader tokens = .error stuck →
    ∃ taken more, tokens = taken ++ stuck.unread ∧ more ≠ [] ∧ isWhole (taken ++ more)

namespace Completes

variable {reader remaining : Reader Result} {tokens rest : List Token}
  {isPart isWhole : List Token → Prop}

theorem of_ok {result : Result} {unread : List Token}
    (read : reader tokens = .ok (result, unread)) : Completes reader tokens isWhole := by
  intro stuck failed
  rw [read] at failed
  cases failed

/-- A reader that has taken nothing when it gets stuck leaves the whole completion open. -/
theorem of_stuck {more : List Token} {wanted : Wanted}
    (failed : reader tokens = .error ⟨wanted, tokens⟩) (nonempty : more ≠ []) (whole : isWhole more) :
    Completes reader tokens isWhole := by
  intro stuck isStuck
  rw [failed] at isStuck
  cases isStuck
  exact ⟨[], more, rfl, nonempty, whole⟩

/-- More may have to be put after what completes a part. -/
theorem extend (completes : Completes reader tokens isPart)
    (extension : ∀ part, isPart part → ∃ more, isWhole (part ++ more)) :
    Completes reader tokens isWhole := by
  intro stuck failed
  obtain ⟨taken, more, isTaken, nonempty, part⟩ := completes stuck failed
  obtain ⟨further, whole⟩ := extension (taken ++ more) part
  refine ⟨taken, more ++ further, isTaken, List.append_ne_nil_of_left_ne_nil nonempty further, ?_⟩
  rwa [← List.append_assoc]

theorem imp (completes : Completes reader tokens isPart)
    (implies : ∀ part, isPart part → isWhole part) : Completes reader tokens isWhole := by
  refine completes.extend fun part isPart => ⟨[], ?_⟩
  rw [List.append_nil]
  exact implies part isPart

/-- A reader may take a token first and do what another reader does after it. -/
theorem cons {token : Token} (takes : reader (token :: rest) = remaining rest)
    (completes : Completes remaining rest fun tail => isWhole (token :: tail)) :
    Completes reader (token :: rest) isWhole := by
  intro stuck failed
  rw [takes] at failed
  obtain ⟨taken, more, rfl, nonempty, whole⟩ := completes stuck failed
  exact ⟨token :: taken, more, rfl, nonempty, whole⟩

/-- Two readers in a row can be completed if the first one can, and if the second one can after what
the first one has taken. -/
theorem bind {first : Reader Result} {next : Result → Reader Outcome}
    (firstCompletes : Completes first tokens isWhole)
    (nextCompletes : ∀ result unread, first tokens = .ok (result, unread) →
      ∃ taken, tokens = taken ++ unread ∧
        Completes (next result) unread fun tail => isWhole (taken ++ tail)) :
    Completes (first >>= next) tokens isWhole := by
  intro stuck failed
  rcases bind_eq_error failed with firstFailed | ⟨result, between, firstRead, nextFailed⟩
  · exact firstCompletes stuck firstFailed
  · obtain ⟨taken, rfl, completes⟩ := nextCompletes result between firstRead
    obtain ⟨further, more, rfl, nonempty, whole⟩ := completes stuck nextFailed
    refine ⟨taken ++ further, more, (List.append_assoc ..).symm, nonempty, ?_⟩
    rwa [List.append_assoc]

/-- The result of a reader may be turned into another one. -/
theorem bind_pure {first : Reader Result} (completes : Completes first tokens isWhole)
    (next : Result → Outcome) :
    Completes (first >>= fun result => Pure.pure (next result)) tokens isWhole := by
  intro stuck failed
  rcases bind_eq_error failed with firstFailed | ⟨result, between, firstRead, nextFailed⟩
  · exact completes stuck firstFailed
  · cases nextFailed

/-- A mark that is missing can be put in. -/
theorem mark {kind : Mark} {wanted : Wanted} {more : List Token} (nonempty : more ≠ [])
    (whole : isWhole more) : Completes (mark kind wanted) tokens isWhole := by
  rcases isMark_or_missing kind tokens with ⟨token, rest, rfl, isMark⟩ | missing
  · exact .of_ok (mark_of_isMark isMark wanted rest)
  · exact .of_stuck (mark_of_missing missing wanted) nonempty whole

end Completes

end

/-! ### What every reader has taken can be completed -/

section

variable {State : Type} {table : SymbolTable State}

variable (table) in
/-- An operand is completed to a signed primary. -/
def OperandCompletes (tokens : List Token) : Prop :=
  Completes (operand table) tokens (IsPhrase table .signed)

variable (table) in
/-- A phrase is completed to one of the layer of its least strength. -/
def PhraseCompletes (least : Nat) (tokens : List Token) : Prop :=
  Completes (phrase table least) tokens (IsPhrase table (.ofStrength least))

variable (table) in
/-- A chain is completed, together with its left operand, to a phrase of the layer of its least
strength. The left operand is as in `ChainSound`. -/
def ChainCompletes (least : Nat) (left : Expr) (tokens : List Token) : Prop :=
  ∀ level before, Derives table level before left →
    (Level.ofStrength least).rank ≤ level.rank → Takes level tokens →
    Completes (chain table least left) tokens fun tail =>
      IsPhrase table (.ofStrength least) (before ++ tail)

variable (table) in
/-- Further arguments are completed to as many as are wanted. -/
def OthersComplete (count : Nat) (tokens : List Token) : Prop :=
  Completes (others table count) tokens (AreOthers table count)

theorem expression_completes {tokens : List Token} (completes : PhraseCompletes table 0 tokens) :
    Completes (expression table) tokens (IsPhrase table .sum) := by
  rw [expression_eq]
  exact completes

/-- An expression that has been read is a phrase, and what comes after it can be completed. -/
theorem expression_taken {tokens unread : List Token} {tree : Expr}
    (read : expression table tokens = .ok (tree, unread)) :
    ∃ taken, tokens = taken ++ unread ∧ Derives table .sum taken tree :=
  expression_sound ((sound table tokens).2.1 0) read

theorem arguments_taken {tokens unread : List Token} {trees : List Expr} {count : Nat}
    (read : arguments table count tokens = .ok (trees, unread)) :
    ∃ taken, tokens = taken ++ unread ∧ DerivesArguments table count taken trees :=
  arguments_sound ((sound table tokens).2.1 0) (fun rest _ => (sound table rest).2.2.2) read

theorem arguments_complete {tokens : List Token} {count : Nat}
    (firstCompletes : PhraseCompletes table 0 tokens)
    (othersComplete : ∀ rest, rest.length ≤ tokens.length → ∀ more, OthersComplete table more rest) :
    Completes (arguments table count) tokens (AreArguments table count) := by
  cases count with
  | zero =>
    rw [arguments_zero]
    exact .of_ok rfl
  | succ more =>
    rw [arguments_succ]
    refine .bind ?_ fun first unread read => ?_
    · refine (expression_completes firstCompletes).extend fun part ⟨tree, derived⟩ => ?_
      obtain ⟨tokens, trees, others⟩ := exists_areOthers table more
      exact ⟨tokens, tree :: trees, .succ derived others⟩
    · obtain ⟨taken, rfl, derived⟩ := expression_taken read
      refine ⟨taken, rfl, ?_⟩
      refine ((othersComplete unread ?_ more).imp fun tail ⟨trees, others⟩ => ?_).bind_pure _
      · rw [List.length_append]
        exact Nat.le_add_left ..
      · exact ⟨first :: trees, .succ derived others⟩

theorem operandCompletes_nil : OperandCompletes table [] :=
  .of_stuck (operand_nil table) (List.cons_ne_nil _ _) (isPhrase_zero table .signed)

theorem operandCompletes_cons (token : Token) (rest : List Token)
    (shorter : ∀ unread, unread.length ≤ rest.length →
      OperandCompletes table unread ∧ PhraseCompletes table 0 unread ∧
        ∀ count, OthersComplete table count unread) :
    OperandCompletes table (token :: rest) := by
  obtain ⟨operandCompletes, phraseCompletes, -⟩ := shorter rest (Nat.le_refl _)
  cases beginning table token with
  | number value isNumber => exact .of_ok (operand_number table isNumber rest)
  | unknown name isName isUnknown =>
    exact .of_stuck (operand_unknown table isName isUnknown rest) (List.cons_ne_nil _ _)
      (isPhrase_zero table .signed)
  | var name isName isVar => exact .of_ok (operand_var table isName isVar rest)
  | const name isName isConst => exact .of_ok (operand_const table isName isConst rest)
  | call name arity isName isFunction =>
    have isOpening : Completion.opening.isMark .opening := rfl
    have isClosing : Completion.closing.isMark .closing := rfl
    obtain ⟨inside, trees, madeUp⟩ := exists_areArguments table arity.toNat
    refine .cons (operand_call table isName isFunction rest) ?_
    refine .bind (.mark (List.cons_ne_nil Completion.opening (inside ++ [Completion.closing])) ?_)
      fun _ opened openingRead => ?_
    · exact ⟨_, .ofPrimary (.callOf isName isFunction isOpening isClosing madeUp)⟩
    · obtain ⟨opening, rfl, isOpening⟩ := mark_eq_ok openingRead
      refine ⟨[opening], rfl, ?_⟩
      have bound : opened.length ≤ (opening :: opened).length := Nat.le_succ _
      have argumentsComplete :
          Completes (arguments table arity.toNat) opened (AreArguments table arity.toNat) :=
        arguments_complete (shorter opened bound).2.1 fun tail tailBound =>
          (shorter tail (Nat.le_trans tailBound bound)).2.2
      refine .bind (argumentsComplete.extend fun part ⟨trees, derived⟩ => ?_)
        fun given between argumentsRead => ?_
      · exact ⟨[Completion.closing], _,
          .ofPrimary (.callOf isName isFunction isOpening isClosing derived)⟩
      · obtain ⟨taken, rfl, derived⟩ := arguments_taken argumentsRead
        refine ⟨taken, rfl, ?_⟩
        refine Completes.bind_pure (.mark (List.cons_ne_nil Completion.closing []) ?_) _
        exact ⟨_, .ofPrimary (.callOf isName isFunction isOpening isClosing derived)⟩
  | opening isOpening =>
    have isClosing : Completion.closing.isMark .closing := rfl
    refine .cons (operand_opening table isOpening rest) ?_
    refine .bind ((expression_completes phraseCompletes).extend fun part ⟨tree, derived⟩ => ?_)
      fun inner between innerRead => ?_
    · exact ⟨[Completion.closing], _, .ofPrimary (.brackets isOpening isClosing derived)⟩
    · obtain ⟨taken, rfl, derived⟩ := expression_taken innerRead
      refine ⟨taken, rfl, ?_⟩
      refine Completes.bind_pure (.mark (List.cons_ne_nil Completion.closing []) ?_) _
      exact ⟨_, .ofPrimary (.brackets isOpening isClosing derived)⟩
  | signed sign isSign =>
    refine .cons (operand_sign table isSign rest) ?_
    refine (operandCompletes.imp fun part ⟨tree, derived⟩ => ?_).bind_pure _
    exact ⟨_, .signed isSign derived⟩
  | other kind text isMark notOpening notSign =>
    exact .of_stuck (operand_other table isMark notOpening notSign rest) (List.cons_ne_nil _ _)
      (isPhrase_zero table .signed)

theorem phraseCompletes_of_operandCompletes (least : Nat) (tokens : List Token)
    (operandCompletes : OperandCompletes table tokens)
    (chainCompletes : ∀ first unread, unread.length < tokens.length →
      ChainCompletes table least first unread) :
    PhraseCompletes table least tokens := by
  have looser := Level.rank_ofStrength_le_signed least
  refine .bind (operandCompletes.imp fun part phrase => phrase.loosen looser)
    fun first unread read => ?_
  have shorter := length_lt_of_operand table read
  obtain ⟨taken, rfl, derived⟩ := (sound table tokens).1 first unread read
  exact ⟨taken, rfl, chainCompletes first unread shorter .signed taken derived looser
    (takes_signed unread)⟩

theorem chainCompletes_of_halts (least : Nat) (left : Expr) (tokens : List Token)
    (halts : Halts least tokens) : ChainCompletes table least left tokens :=
  fun _ _ _ _ _ => .of_ok (chain_of_halts table halts left)

theorem chainCompletes_cons (least : Nat) (left : Expr) (token : Token) (rest : List Token)
    (operator : Operator) (isOperator : token.operator? = some operator)
    (enough : least ≤ operator.strength)
    (rightCompletes : PhraseCompletes table operator.rightStrength rest)
    (chainCompletes : ∀ whole unread, unread.length ≤ rest.length →
      ChainCompletes table least (.binary operator left whole token) unread) :
    ChainCompletes table least left (token :: rest) := by
  intro level before derived looser takes
  have folded (right : List Token) (whole : Expr)
      (rightDerived : Derives table (.ofStrength operator.rightStrength) right whole) :
      Derives table operator.level (before ++ token :: right)
        (.binary operator left whole token) := by
    rw [Level.ofStrength_rightStrength] at rightDerived
    exact .binary isOperator (derived.loosen (takes operator isOperator)) rightDerived
  have levelLooser := Level.rank_ofStrength_le_level enough
  refine .cons (chain_cons table isOperator enough left rest) ?_
  refine .bind (rightCompletes.imp fun part ⟨whole, rightDerived⟩ => ?_)
    fun whole between rightRead => ?_
  · exact ⟨_, (folded part whole rightDerived).loosen levelLooser⟩
  · have bound := length_lt_of_phrase table rightRead
    obtain ⟨stops, right, rfl, rightDerived⟩ :=
      (sound table rest).2.1 operator.rightStrength whole between rightRead
    refine ⟨right, rfl, ?_⟩
    refine (chainCompletes whole between (Nat.le_of_lt bound) operator.level _
      (folded right whole rightDerived) levelLooser fun next front =>
        Operator.rank_leftLevel_le_of_lt (stops next front)).imp fun tail phrase => ?_
    rwa [List.append_assoc] at phrase

theorem othersComplete_zero (tokens : List Token) : OthersComplete table 0 tokens := by
  unfold OthersComplete
  rw [others_zero]
  exact .of_ok rfl

theorem othersComplete_succ (more : Nat) (tokens : List Token)
    (shorter : ∀ unread, unread.length < tokens.length →
      PhraseCompletes table 0 unread ∧ OthersComplete table more unread) :
    OthersComplete table (more + 1) tokens := by
  unfold OthersComplete
  rw [others_succ]
  obtain ⟨madeUp, trees, others⟩ := exists_areOthers table more
  obtain ⟨tree, derived⟩ := isPhrase_zero table .sum
  have isComma : Completion.comma.isMark .comma := rfl
  refine .bind (.mark (List.cons_ne_nil Completion.comma (Completion.zero :: madeUp))
    ⟨tree :: trees, .succ isComma derived others⟩) fun _ afterComma commaRead => ?_
  obtain ⟨comma, rfl, isComma⟩ := mark_eq_ok commaRead
  refine ⟨[comma], rfl, ?_⟩
  obtain ⟨nextCompletes, -⟩ := shorter afterComma (Nat.lt_succ_self _)
  refine .bind ((expression_completes nextCompletes).extend fun part ⟨tree, derived⟩ => ?_)
    fun next between nextRead => ?_
  · have whole := DerivesOthers.succ isComma derived others
    exact ⟨madeUp, tree :: trees, whole⟩
  · have bound : between.length < afterComma.length := length_lt_of_plain nextRead
    obtain ⟨taken, rfl, derived⟩ := expression_taken nextRead
    refine ⟨taken, rfl, ?_⟩
    obtain ⟨-, othersComplete⟩ := shorter between (Nat.lt_succ_of_lt bound)
    refine (othersComplete.imp fun tail ⟨trees, others⟩ => ?_).bind_pure _
    have whole := DerivesOthers.succ isComma derived others
    exact ⟨next :: trees, whole⟩

variable (table) in
/-- What any reader has taken when it gets stuck can be completed. -/
theorem completes (tokens : List Token) :
    OperandCompletes table tokens ∧ (∀ least, PhraseCompletes table least tokens) ∧
      (∀ least left, ChainCompletes table least left tokens) ∧
        ∀ count, OthersComplete table count tokens :=
  induction_on_tokens operandCompletes_nil operandCompletes_cons phraseCompletes_of_operandCompletes
    chainCompletes_of_halts chainCompletes_cons othersComplete_zero othersComplete_succ tokens

end

end Reader

end DirectionField
