/-
This file proves that an error of reading is about the first token that cannot be right. The tokens
in front of it are the beginning of an expression, but no expression begins with them and with that
token. Whatever follows, the error is the same. If the tokens end too early, they are the beginning
of an expression themselves.

That the tokens in front can be completed is known from what a reader has taken when it gets stuck.
That nothing later matters is known from how far it looks ahead.
-/

import DirectionField.Proofs.Completeness
import DirectionField.Proofs.Lookahead
import DirectionField.Proofs.Unfinished
import DirectionField.Symbols.Standard

namespace DirectionField

/-! ### Errors are about the earliest token -/

section

variable {State : Type} {table : SymbolTable State} {tokens : List Token} {stuck : Stuck}

/-- A whole list is not read if no expression is read from it, or if one is read that leaves tokens
unread. -/
theorem stuck_of_readAll (failed : readAll table tokens = .error stuck) :
    Reader.expression table tokens = .error stuck ∨
      ∃ tree token rest, Reader.expression table tokens = .ok (tree, token :: rest) ∧
        stuck = ⟨.finish, token :: rest⟩ := by
  cases whole : Reader.expression table tokens with
  | error other =>
    rw [Reader.readAll_of_stuck table whole] at failed
    cases failed
    exact Or.inl rfl
  | ok pair =>
    obtain ⟨tree, unread⟩ := pair
    rw [Reader.readAll_of_read table whole] at failed
    cases unread with
    | nil => cases failed
    | cons token rest =>
      cases failed
      exact Or.inr ⟨tree, token, rest, rfl, rfl⟩

/-- The tokens before the first impossible one can be completed to an expression. If there is no
impossible one, something is missing. -/
theorem exists_completion (failed : readAll table tokens = .error stuck) :
    ∃ taken more tree, tokens = taken ++ stuck.unread ∧ (stuck.unread = [] → more ≠ []) ∧
      readAll table (taken ++ more) = .ok tree := by
  rcases stuck_of_readAll failed with whole | ⟨tree, token, rest, whole, rfl⟩
  · have completes := Reader.expression_completes ((Reader.completes table tokens).2.1 0)
    obtain ⟨taken, more, isTaken, nonempty, tree, derived⟩ := completes stuck whole
    exact ⟨taken, more, tree, isTaken, fun _ => nonempty, readAll_of_derives derived⟩
  · obtain ⟨taken, isTaken, derived⟩ := Reader.expression_taken whole
    refine ⟨taken, [], tree, isTaken, nofun, ?_⟩
    rw [List.append_nil]
    exact readAll_of_derives derived

/-- Getting stuck depends only on the tokens up to the first impossible one. -/
theorem readAll_congr (failed : readAll table tokens = .error stuck) :
    ∃ taken, tokens = taken ++ stuck.unread ∧ ∀ other, other.head? = stuck.unread.head? →
      readAll table (taken ++ other) = .error ⟨stuck.wanted, other⟩ := by
  have looks := Reader.expression_looksOneAhead ((Reader.looksOneAhead table tokens).2.1 0)
  rcases stuck_of_readAll failed with whole | ⟨tree, token, rest, whole, rfl⟩
  · obtain ⟨taken, isTaken, same⟩ := looks.ofStuck stuck whole
    exact ⟨taken, isTaken, fun other front => Reader.readAll_of_stuck table (same other front)⟩
  · obtain ⟨taken, isTaken, same⟩ := looks.ofRead tree (token :: rest) whole
    refine ⟨taken, isTaken, fun other front => ?_⟩
    rw [Reader.readAll_of_read table (same other front)]
    obtain ⟨tail, rfl⟩ := List.head?_eq_some_iff.mp front
    rfl

theorem ofTokens_eq_error_iff {source : String} {error : ReadError} :
    Expr.ofTokens table tokens source = .error error ↔
      ∃ stuck, readAll table tokens = .error stuck ∧ stuck.error source tokens = error := by
  unfold Expr.ofTokens
  cases readAll table tokens with
  | ok tree => exact ⟨nofun, nofun⟩
  | error stuck =>
    constructor
    · intro isError
      cases isError
      exact ⟨stuck, rfl, rfl⟩
    · rintro ⟨found, isFound, rfl⟩
      cases isFound
      rfl

variable (table tokens) in
/-- An error is about the earliest impossible token. The tokens before it are the beginning of an
expression. No token list that begins with them and with it is an expression, and all of them are
the same error. -/
def IsEarliest (error : ReadError) (token : Token) : Prop :=
  ∃ position, tokens[position]? = some token ∧
    (∃ more tree, ∀ source,
      Expr.ofTokens table (tokens.take position ++ more) source = .ok tree) ∧
    (∀ more source tree,
      Expr.ofTokens table (tokens.take (position + 1) ++ more) source ≠ .ok tree) ∧
    ∀ more source,
      Expr.ofTokens table (tokens.take (position + 1) ++ more) source = .error error

variable (table tokens) in
/-- Tokens are no expression, but the beginning of one. -/
def EndsEarly : Prop :=
  (∀ source tree, Expr.ofTokens table tokens source ≠ .ok tree) ∧
    ∃ more tree, more ≠ [] ∧ ∀ source, Expr.ofTokens table (tokens ++ more) source = .ok tree

theorem isEarliest_of_stuck {token : Token} {rest : List Token}
    (failed : readAll table tokens = .error stuck) (unread : stuck.unread = token :: rest) :
    IsEarliest table tokens (.atToken stuck.wanted token) token := by
  obtain ⟨taken, more, tree, rfl, -, completed⟩ := exists_completion failed
  obtain ⟨found, isFound, same⟩ := readAll_congr failed
  obtain rfl := List.append_cancel_right isFound
  rw [unread]
  have upTo : (taken ++ token :: rest).take (taken.length + 1) = taken ++ [token] := by
    rw [List.take_length_add_append]
    rfl
  have fails (further : List Token) (source : String) :
      Expr.ofTokens table ((taken ++ token :: rest).take (taken.length + 1) ++ further) source =
        .error (.atToken stuck.wanted token) := by
    rw [upTo, List.append_assoc]
    exact ofTokens_eq_error_iff.mpr ⟨_, same (token :: further) (by rw [unread]; rfl), rfl⟩
  refine ⟨taken.length, ?_, ⟨more, tree, fun source => ?_⟩, fun further source whole isWhole => ?_,
    fails⟩
  · rw [List.getElem?_append_right (Nat.le_refl _), Nat.sub_self]
    rfl
  · rw [List.take_left']
    · exact ofTokens_eq_ok_iff.mpr completed
    · rfl
  · rw [fails] at isWhole
    cases isWhole

theorem endsEarly_of_stuck (failed : readAll table tokens = .error stuck)
    (unread : stuck.unread = []) : EndsEarly table tokens := by
  obtain ⟨taken, more, tree, isTaken, nonempty, completed⟩ := exists_completion failed
  rw [unread, List.append_nil] at isTaken
  subst isTaken
  refine ⟨fun source whole isWhole => ?_, more, tree, nonempty unread, fun source => ?_⟩
  · rw [ofTokens_eq_ok_iff, failed] at isWhole
    cases isWhole
  · exact ofTokens_eq_ok_iff.mpr completed

/-- An error that has a token is about the earliest impossible one. An error that has none is about
tokens that end too early. -/
theorem isEarliest_of_error {source : String} {error : ReadError}
    (failed : Expr.ofTokens table tokens source = .error error) :
    (∀ token, error.token? = some token → IsEarliest table tokens error token) ∧
      (error.token? = none → EndsEarly table tokens) := by
  obtain ⟨stuck, isStuck, rfl⟩ := ofTokens_eq_error_iff.mp failed
  unfold Stuck.error
  cases unread : stuck.unread with
  | nil => exact ⟨nofun, fun _ => endsEarly_of_stuck isStuck unread⟩
  | cons token rest =>
    refine ⟨fun other isToken => ?_, nofun⟩
    cases isToken
    exact isEarliest_of_stuck isStuck unread

end

/-- In `x-)` the bracket is impossible, and `x-` ends early. -/
theorem isEarliest_of_error_difference :
    let table : SymbolTable Unit := standardTable (pure 0.5)
    let left : Token := ⟨.name "x", "x-)", 0, 1⟩
    let minus : Token := ⟨.mark .minus "-", "x-)", 1, 1⟩
    let closing : Token := ⟨.mark .closing ")", "x-)", 2, 1⟩
    let impossible : ReadError := .atToken .operand closing
    let early : ReadError := .atEnd .operand "x-)" 2
    Expr.ofTokens table [left, minus, closing] "x-)" = .error impossible ∧
      IsEarliest table [left, minus, closing] impossible closing ∧
      Expr.ofTokens table [left, minus] "x-)" = .error early ∧
      EndsEarly table [left, minus] := by
  intro table left minus closing impossible early
  have stuck (rest : List Token)
      (failed : Reader.operand table rest = .error ⟨.operand, rest⟩) :
      readAll table (left :: minus :: rest) = .error ⟨.operand, rest⟩ := by
    have read : Reader.operand table (left :: minus :: rest) = _ :=
      Reader.operand_var table rfl (by rfl) (minus :: rest)
    refine Reader.readAll_of_stuck table ?_
    rw [Reader.expression_eq, Reader.phrase, Reader.bind_ok read,
      Reader.chain_cons table rfl (Nat.zero_le _)]
    exact Reader.bind_error (Reader.bind_error failed)
  have isMark : closing.lexeme = .mark .closing ")" := rfl
  have closingFails : Expr.ofTokens table [left, minus, closing] "x-)" = .error impossible :=
    ofTokens_eq_error_iff.mpr
      ⟨_, stuck [closing] (Reader.operand_other table isMark (by decide) rfl []), rfl⟩
  have endFails : Expr.ofTokens table [left, minus] "x-)" = .error early :=
    ofTokens_eq_error_iff.mpr ⟨_, stuck [] (Reader.operand_nil table), rfl⟩
  exact ⟨closingFails, (isEarliest_of_error closingFails).1 closing rfl, endFails,
    (isEarliest_of_error endFails).2 rfl⟩

end DirectionField
