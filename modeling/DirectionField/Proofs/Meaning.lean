/-
This file proves that the places of tokens have no influence on what the tokens mean. Token lists
with the same lexemes are read with trees of the same shape, or they get stuck in front of the same
token for the same reason. Trees of the same shape have the same values, or they fail with the same
message.

The readers are followed on both lists after all tokens have lost their places, where the lists are
the same. The evaluation of a tree is followed on its shape, where no node has a token to report.
-/

import DirectionField.Proofs.Evaluation
import DirectionField.Proofs.Relocation

namespace DirectionField

/-! ### Evaluation of shapes -/

/-- An error of evaluation that is about no token. -/
def EvaluationError.displaced (error : EvaluationError) : EvaluationError :=
  ⟨error.cause, none⟩

theorem EvaluationError.message_displaced (error : EvaluationError) :
    error.displaced.diagnostic.message = error.diagnostic.message := by
  unfold diagnostic displaced
  cases error.token <;> rfl

section

variable {State Value Result : Type}

/-- An evaluation whose errors are about no token. -/
def displacedErrors (evaluation : Evaluation State Value) : Evaluation State Value :=
  ExceptT.adapt EvaluationError.displaced evaluation

theorem run_displacedErrors (evaluation : Evaluation State Value) (state : State) :
    (displacedErrors evaluation).run state =
      ((evaluation.run state).1.mapError EvaluationError.displaced, (evaluation.run state).2) :=
  rfl

theorem displacedErrors_bind (first : Evaluation State Value)
    (next : Value → Evaluation State Result) :
    displacedErrors (first >>= next) =
      displacedErrors first >>= fun value => displacedErrors (next value) := by
  refine ExceptT.ext (StateT.ext fun state => ?_)
  show (displacedErrors (first >>= next)).run state = (displacedErrors first >>= _).run state
  have displaced := run_displacedErrors first state
  rw [run_displacedErrors]
  cases ran : first.run state with
  | mk outcome between =>
    rw [ran] at displaced
    cases outcome with
    | ok value => rw [run_bind_of_ok ran, run_bind_of_ok displaced, run_displacedErrors]
    | error error =>
      rw [run_bind_of_error ran, run_bind_of_error displaced]
      rfl

variable (table : SymbolTable State) (environment : Environment)

theorem found_displaced (value : Option Float) (cause : EvaluationCause) (token : Option Token) :
    (found value cause none : Evaluation State Float) =
      displacedErrors (found value cause token) := by
  cases value <;> rfl

mutual

/-- The evaluation of the shape of a tree is that of the tree, but no error has a token. -/
theorem evaluate_shape (tree : Expr) :
    evaluate table environment tree.shape = displacedErrors (evaluate table environment tree) := by
  cases tree with
  | number _ _ | bare => rfl
  | var _ _ | const _ _ =>
    rw [Expr.shape, evaluate, evaluate]
    exact found_displaced ..
  | unary sign operand token =>
    rw [Expr.shape, evaluate, evaluate, displacedErrors_bind, evaluate_shape operand]
    rfl
  | binary operator left right token =>
    rw [Expr.shape, evaluate, evaluate, displacedErrors_bind, evaluate_shape left]
    refine bind_congr fun leftValue => ?_
    rw [displacedErrors_bind, evaluate_shape right]
    rfl
  | call name arguments token =>
    have sameCount : (Expr.shapes arguments).length = arguments.length := by
      rw [Expr.shapes_eq_map, List.length_map]
    rw [Expr.shape, evaluate, evaluate, sameCount]
    cases table.function? name with
    | none => rfl
    | some function =>
      dsimp only
      split
      · rw [displacedErrors_bind, evaluateAll_shapes arguments]
        rfl
      · rfl

theorem evaluateAll_shapes (trees : List Expr) :
    evaluateAll table environment (Expr.shapes trees) =
      displacedErrors (evaluateAll table environment trees) := by
  cases trees with
  | nil => rfl
  | cons first rest =>
    rw [Expr.shapes, evaluateAll, evaluateAll, displacedErrors_bind, evaluate_shape first]
    refine bind_congr fun value => ?_
    rw [displacedErrors_bind, evaluateAll_shapes rest]
    rfl

end

/-- Two runs have the same value, or they fail with the same message. They leave the same state. -/
def EndsAlike : Except EvaluationError Value × State → Except EvaluationError Value × State → Prop
  | (.ok value, after), (.ok other, final) => value = other ∧ after = final
  | (.error error, after), (.error other, final) =>
    error.diagnostic.message = other.diagnostic.message ∧ after = final
  | _, _ => False

theorem endsAlike_of_mapError {run other : Except EvaluationError Value × State}
    (outcomes :
      run.1.mapError EvaluationError.displaced = other.1.mapError EvaluationError.displaced)
    (states : run.2 = other.2) : EndsAlike run other := by
  obtain ⟨outcome, after⟩ := run
  obtain ⟨otherOutcome, final⟩ := other
  cases outcome with
  | ok value =>
    cases otherOutcome with
    | ok found => exact ⟨Except.ok.inj outcomes, states⟩
    | error error => cases outcomes
  | error error =>
    cases otherOutcome with
    | ok found => cases outcomes
    | error failed =>
      refine ⟨?_, states⟩
      rw [← error.message_displaced, ← failed.message_displaced, Except.error.inj outcomes]

theorem endsAlike_of_displaced {first second : Evaluation State Value}
    (same : displacedErrors first = displacedErrors second) (state : State) :
    EndsAlike (first.run state) (second.run state) := by
  have runs : (displacedErrors first).run state = (displacedErrors second).run state := by
    rw [same]
  rw [run_displacedErrors, run_displacedErrors, Prod.mk.injEq] at runs
  exact endsAlike_of_mapError runs.1 runs.2

end

/-- Two trees mean the same: over any table and in any environment they are evaluated alike. -/
def Expr.MeansSame (first second : Expr) : Prop :=
  ∀ (State : Type) (table : SymbolTable State) (environment : Environment) (state : State),
    EndsAlike ((evaluate table environment first).run state)
      ((evaluate table environment second).run state)

theorem Expr.meansSame_of_shape {first second : Expr} (same : first.shape = second.shape) :
    first.MeansSame second := by
  intro State table environment state
  refine endsAlike_of_displaced ?_ state
  rw [← evaluate_shape table environment first, ← evaluate_shape table environment second, same]

/-! ### Token lists with the same lexemes -/

section

variable {State : Type} {table : SymbolTable State} {first second : List Token}

/-- The reading of tokens gets stuck at a position, in front of the token there, or at the end of
the tokens. The error is about that token, or about none at the end. -/
structure ReadError.IsAt (table : SymbolTable State) (tokens : List Token) (error : ReadError)
    (position : Nat) : Prop where
  within : position ≤ tokens.length
  stuck : ∃ wanted, readAll table tokens = .error ⟨wanted, tokens.drop position⟩
  token : error.token? = tokens[position]?

theorem Stuck.isAt {taken : List Token} {stuck : Stuck}
    (failed : readAll table (taken ++ stuck.unread) = .error stuck) (source : String) :
    (stuck.error source (taken ++ stuck.unread)).IsAt table (taken ++ stuck.unread)
      taken.length where
  within := by
    rw [List.length_append]
    exact Nat.le_add_right ..
  stuck := by
    refine ⟨stuck.wanted, ?_⟩
    rw [List.drop_left]
    exact failed
  token := by
    rw [List.getElem?_append_right (Nat.le_refl _), Nat.sub_self, Stuck.error]
    cases stuck.unread <;> rfl

/-- The message about a stuck reading depends on the lexemes of the unread tokens only. -/
theorem Stuck.message_error_congr {stuck other : Stuck} (sameWanted : stuck.wanted = other.wanted)
    (sameLexemes : stuck.unread.map Token.lexeme = other.unread.map Token.lexeme)
    (source otherSource : String) (tokens otherTokens : List Token) :
    (stuck.error source tokens).diagnostic.message =
      (other.error otherSource otherTokens).diagnostic.message := by
  rw [Stuck.error, Stuck.error, sameWanted]
  cases isUnread : stuck.unread with
  | nil =>
    rw [isUnread, eq_comm, List.map_nil, List.map_eq_nil_iff] at sameLexemes
    rw [sameLexemes]
    rfl
  | cons token rest =>
    rw [isUnread, eq_comm, List.map_cons, List.map_eq_cons_iff] at sameLexemes
    obtain ⟨otherToken, otherRest, isOther, sameLexeme, -⟩ := sameLexemes
    rw [isOther]
    show _ = other.wanted.messageAt otherToken.lexeme.text
    rw [sameLexeme]
    rfl

/-- What a token list means does not depend on the places of its tokens. Two lists with the same
lexemes are read with trees of the same shape, which mean the same; or reading them gets stuck at
the same position, with the same message. -/
theorem means_of_lexemes (table : SymbolTable State)
    (same : first.map Token.lexeme = second.map Token.lexeme) (source otherSource : String) :
    (∃ tree other, Expr.ofTokens table first source = .ok tree ∧
      Expr.ofTokens table second otherSource = .ok other ∧
        tree.shape = other.shape ∧ tree.MeansSame other) ∨
      ∃ error other position, Expr.ofTokens table first source = .error error ∧
        Expr.ofTokens table second otherSource = .error other ∧
          error.IsAt table first position ∧ other.IsAt table second position ∧
            error.diagnostic.message = other.diagnostic.message := by
  -- Without their places the two lists are one list, which is read in one way.
  have displacedAlike := Relocation.map_displace_eq_iff.mpr same
  have firstDisplaced := readAll_map_move .displace (.refl table first)
  have secondDisplaced := readAll_map_move .displace (.refl table second)
  rw [displacedAlike, secondDisplaced] at firstDisplaced
  cases firstRead : readAll table first with
  | ok tree =>
    cases secondRead : readAll table second with
    | error stuck =>
      rw [firstRead, secondRead] at firstDisplaced
      cases firstDisplaced
    | ok other =>
      rw [firstRead, secondRead] at firstDisplaced
      have sameShape : tree.shape = other.shape := by
        rw [← Expr.shape_relocate .displace tree, ← Expr.shape_relocate .displace other,
          Except.ok.inj firstDisplaced]
      exact Or.inl ⟨tree, other, ofTokens_eq_ok_iff.mpr firstRead,
        ofTokens_eq_ok_iff.mpr secondRead, sameShape, Expr.meansSame_of_shape sameShape⟩
  | error stuck =>
    cases secondRead : readAll table second with
    | ok other =>
      rw [firstRead, secondRead] at firstDisplaced
      cases firstDisplaced
    | error otherStuck =>
      rw [firstRead, secondRead, Except.error.injEq, Stuck.mk.injEq] at firstDisplaced
      obtain ⟨sameWanted, sameUnread⟩ := firstDisplaced
      have sameLexemes := Relocation.map_displace_eq_iff.mp sameUnread
      obtain ⟨taken, isTaken, -⟩ := readAll_congr firstRead
      obtain ⟨otherTaken, isOtherTaken, -⟩ := readAll_congr secondRead
      have samePosition : taken.length = otherTaken.length := by
        have lengths := congrArg List.length same
        have unreadLengths := congrArg List.length sameLexemes
        rw [isTaken, isOtherTaken] at lengths
        simp only [List.length_map, List.length_append] at lengths unreadLengths
        omega
      have isAt := Stuck.isAt (isTaken ▸ firstRead) source
      have otherIsAt := Stuck.isAt (isOtherTaken ▸ secondRead) otherSource
      rw [← isTaken] at isAt
      rw [← isOtherTaken, ← samePosition] at otherIsAt
      exact Or.inr ⟨_, _, taken.length, ofTokens_eq_error_iff.mpr ⟨stuck, firstRead, rfl⟩,
        ofTokens_eq_error_iff.mpr ⟨otherStuck, secondRead, rfl⟩, isAt, otherIsAt,
        Stuck.message_error_congr sameWanted.symm sameLexemes.symm ..⟩

end

/-- The difference of the coordinates means the same with spaces between its tokens. -/
theorem means_of_lexemes_difference :
    let table : SymbolTable Unit := standardTable (pure 0.5)
    let left : Token := ⟨.name "x", "x-y", 0, 1⟩
    let minus : Token := ⟨.mark .minus "-", "x-y", 1, 1⟩
    let right : Token := ⟨.name "y", "x-y", 2, 1⟩
    let spaced : List Token :=
      [⟨.name "x", " x - y", 1, 1⟩, ⟨.mark .minus "-", " x - y", 3, 1⟩, ⟨.name "y", " x - y", 5, 1⟩]
    let tree : Expr := .binary .subtract (.var "x" left) (.var "y" right) minus
    [left, minus, right].map Token.lexeme = spaced.map Token.lexeme ∧
      ∃ other, Expr.ofTokens table spaced = .ok other ∧
        tree.shape = other.shape ∧ tree.MeansSame other := by
  intro table left minus right spaced tree
  have same : [left, minus, right].map Token.lexeme = spaced.map Token.lexeme := rfl
  have derived : Derives table .sum ([left] ++ minus :: [right]) tree :=
    .sum rfl (Or.inr rfl)
      (.ofProduct (.ofPower (.ofSigned (.ofPrimary (.var rfl rfl)))))
      (.ofPower (.ofSigned (.ofPrimary (.var rfl rfl))))
  have read : Expr.ofTokens table [left, minus, right] = .ok tree :=
    ofTokens_eq_ok_iff_derives.mpr derived
  refine ⟨same, ?_⟩
  rcases means_of_lexemes table same (sourceOf [left, minus, right]) (sourceOf spaced) with
    ⟨found, other, isFound, isOther, sameShape, meansSame⟩ | ⟨error, -, -, failed, -⟩
  · cases read.symm.trans isFound
    exact ⟨other, isOther, sameShape, meansSame⟩
  · cases read.symm.trans failed

end DirectionField
