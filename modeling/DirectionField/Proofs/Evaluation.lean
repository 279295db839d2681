/-
This file proves that an expression that has been read fails only at a variable that is not bound.
The table decided what every name refers to when the expression was read, and it counted the
arguments of every call, so that evaluation over the same table finds all constants and functions.

Evaluation meets the variables in the order in which the tokens name them. So the error, if there is
one, is about the first token that names an unbound variable. That is proved along the grammar: each
phrase fails at the first such token of its own, and putting phrases together in a row puts their
tokens together in a row.
-/

import DirectionField.Expr.OfText
import DirectionField.Proofs.Completeness
import DirectionField.Proofs.Variables
import DirectionField.Symbols.Standard

namespace DirectionField

/-! ### Unbound names -/

section

variable {State : Type}

/-- Whether a token names a variable that is not bound. -/
def isUnbound (table : SymbolTable State) (environment : Environment) (token : Token) : Bool :=
  match namedVariable? table token with
  | some name => (environment name).isNone
  | none => false

theorem isUnbound_of_none {table : SymbolTable State} {environment : Environment} {token : Token}
    (quiet : namedVariable? table token = none) : isUnbound table environment token = false := by
  rw [isUnbound, quiet]

end

/-! ### Running computations in a row -/

section

variable {State Error Value Result : Type} {first : ExceptT Error (StateM State) Value}
  {next : Value → ExceptT Error (StateM State) Result} {state after : State}

theorem run_bind_of_ok {value : Value} (ran : first.run state = (.ok value, after)) :
    (first >>= next).run state = (next value).run after := by
  show (first.run >>= ExceptT.bindCont next) state = _
  show (ExceptT.bindCont next (first.run state).1) (first.run state).2 = _
  rw [ran]
  rfl

theorem run_bind_of_error {error : Error}
    (ran : first.run state = (.error error, after)) :
    (first >>= next).run state = (.error error, after) := by
  show (ExceptT.bindCont next (first.run state).1) (first.run state).2 = _
  rw [ran]
  rfl

/-- Two computations in a row succeed exactly if both succeed. -/
theorem run_bind_eq_ok_iff {result : Result} :
    (first >>= next).run state = (.ok result, after) ↔
      ∃ value between, first.run state = (.ok value, between) ∧
        (next value).run between = (.ok result, after) := by
  constructor
  · intro ran
    cases firstRan : first.run state with
    | mk outcome between =>
      cases outcome with
      | error error =>
        rw [run_bind_of_error firstRan] at ran
        cases ran
      | ok value =>
        rw [run_bind_of_ok firstRan] at ran
        exact ⟨value, between, rfl, ran⟩
  · rintro ⟨value, between, firstRan, nextRan⟩
    exact (run_bind_of_ok firstRan).trans nextRan

end

/-! ### Failing at the first unbound name -/

section

variable {State Value Result : Type}

/-- A computation fails at the first of some tokens that names an unbound variable, and has a value
if there is no such token. -/
def FailsAtFirst (table : SymbolTable State) (environment : Environment) (tokens : List Token)
    (evaluation : Evaluation State Value) : Prop :=
  ∀ state,
    match tokens.find? (isUnbound table environment) with
    | none => ∃ value after, evaluation.run state = (.ok value, after)
    | some token => ∃ name after, token.lexeme = .name name ∧
        evaluation.run state = (.error ⟨.undefinedVariable name, token⟩, after)

variable {table : SymbolTable State} {environment : Environment}

namespace FailsAtFirst

/-- A computation that always has a value fails at no token. -/
theorem of_ok {evaluation : Evaluation State Value}
    (succeeds : ∀ state, ∃ value after, evaluation.run state = (.ok value, after)) :
    FailsAtFirst table environment [] evaluation :=
  succeeds

theorem bind {left right : List Token} {first : Evaluation State Value}
    {next : Value → Evaluation State Result}
    (firstFails : FailsAtFirst table environment left first)
    (nextFails : ∀ value, FailsAtFirst table environment right (next value)) :
    FailsAtFirst table environment (left ++ right) (first >>= next) := by
  intro state
  have firstRuns := firstFails state
  rw [List.find?_append]
  cases found : left.find? (isUnbound table environment) with
  | none =>
    rw [found] at firstRuns
    obtain ⟨value, after, ran⟩ := firstRuns
    rw [run_bind_of_ok ran]
    exact nextFails value after
  | some token =>
    rw [found] at firstRuns
    obtain ⟨name, after, isName, ran⟩ := firstRuns
    exact ⟨name, after, isName, run_bind_of_error ran⟩

/-- Something that cannot fail may be computed at the end. -/
theorem bind_pure {tokens : List Token} {first : Evaluation State Value} {next : Value → Result}
    (firstFails : FailsAtFirst table environment tokens first) :
    FailsAtFirst table environment tokens (first >>= fun value => pure (next value)) := by
  rw [← List.append_nil tokens]
  exact firstFails.bind fun value => of_ok fun state => ⟨next value, state, rfl⟩

/-- Tokens that name no unbound variable do not matter. -/
theorem cons {token : Token} {tokens : List Token} {evaluation : Evaluation State Value}
    (quiet : isUnbound table environment token = false)
    (fails : FailsAtFirst table environment tokens evaluation) :
    FailsAtFirst table environment (token :: tokens) evaluation := by
  intro state
  rw [List.find?_cons, quiet]
  exact fails state

theorem concat {token : Token} {tokens : List Token} {evaluation : Evaluation State Value}
    (quiet : isUnbound table environment token = false)
    (fails : FailsAtFirst table environment tokens evaluation) :
    FailsAtFirst table environment (tokens ++ [token]) evaluation := by
  intro state
  rw [List.find?_append, List.find?_cons, quiet, List.find?_nil, Option.or_none]
  exact fails state

end FailsAtFirst

/-! ### Phrases fail at their first unbound name -/

theorem failsAtFirst_preceded {arguments : List (List Token × Expr)} {tokens : List Token}
    (preceded : Preceded (arguments.map Prod.fst) tokens)
    (each : ∀ argument ∈ arguments,
      FailsAtFirst table environment argument.1 (evaluate table environment argument.2)) :
    FailsAtFirst table environment tokens
      (evaluateAll table environment (arguments.map Prod.snd)) := by
  induction arguments generalizing tokens with
  | nil =>
    cases preceded
    exact .of_ok fun state => ⟨[], state, rfl⟩
  | cons argument rest inductionHypothesis =>
    obtain ⟨first, remaining⟩ := List.forall_mem_cons.mp each
    cases preceded with
    | cons isComma others =>
      rw [List.map_cons, evaluateAll]
      exact .cons (isUnbound_of_none (namedVariable?_of_isMark isComma))
        (first.bind fun _ => (inductionHypothesis others remaining).bind_pure)

theorem failsAtFirst_separated {arguments : List (List Token × Expr)} {tokens : List Token}
    (separated : Separated (arguments.map Prod.fst) tokens)
    (each : ∀ argument ∈ arguments,
      FailsAtFirst table environment argument.1 (evaluate table environment argument.2)) :
    FailsAtFirst table environment tokens
      (evaluateAll table environment (arguments.map Prod.snd)) := by
  cases arguments with
  | nil =>
    cases separated
    exact .of_ok fun state => ⟨[], state, rfl⟩
  | cons argument rest =>
    obtain ⟨first, remaining⟩ := List.forall_mem_cons.mp each
    cases separated with
    | cons others =>
      rw [List.map_cons, evaluateAll]
      exact first.bind fun _ => (failsAtFirst_preceded others remaining).bind_pure

/-- An operation fails at the first unbound name of its left operand, or else of its right one. -/
theorem failsAtFirst_binary {left right : List Token} {token : Token} {operator : Operator}
    {leftTree rightTree : Expr} {kept : Option Token}
    (isOperator : token.operator? = some operator)
    (leftFails : FailsAtFirst table environment left (evaluate table environment leftTree))
    (rightFails : FailsAtFirst table environment right (evaluate table environment rightTree)) :
    FailsAtFirst table environment (left ++ token :: right)
      (evaluate table environment (.binary operator leftTree rightTree kept)) := by
  rw [evaluate]
  exact leftFails.bind fun _ =>
    .cons (isUnbound_of_none (namedVariable?_of_operator? isOperator)) rightFails.bind_pure

theorem failsAtFirst_var {token : Token} {name : String} (isName : token.lexeme = .name name)
    (isVariable : table.isVariable name = true) :
    FailsAtFirst table environment [token] (evaluate table environment (.var name token)) := by
  have unbound : isUnbound table environment token = (environment name).isNone := by
    rw [isUnbound, namedVariable?_of_isVariable isName isVariable]
  intro state
  rw [evaluate, List.find?_cons, List.find?_nil, unbound]
  cases environment name with
  | none =>
    dsimp only [Option.isNone]
    exact ⟨name, state, isName, rfl⟩
  | some value =>
    dsimp only [Option.isNone]
    exact ⟨value, state, rfl⟩

/-- A phrase of the grammar fails at its first token that names an unbound variable, if no function
has a negative arity. -/
theorem failsAtFirst_of_derives
    (arities : ∀ name function, table.function? name = some function → 0 ≤ function.arity)
    {level : Level} {tokens : List Token} {tree : Expr} (derived : Derives table level tokens tree) :
    FailsAtFirst table environment tokens (evaluate table environment tree) := by
  induction derived with
  | sum isOperator _ _ _ leftFails rightFails =>
    exact failsAtFirst_binary isOperator leftFails rightFails
  | product isOperator _ _ _ leftFails rightFails =>
    exact failsAtFirst_binary isOperator leftFails rightFails
  | power isOperator _ _ leftFails rightFails =>
    exact failsAtFirst_binary isOperator leftFails rightFails
  | ofProduct _ fails | ofPower _ fails | ofSigned _ fails | ofPrimary _ fails => exact fails
  | signed isSign _ fails =>
    rw [evaluate]
    exact .cons (isUnbound_of_none (namedVariable?_of_sign? isSign)) fails.bind_pure
  | number isNumber =>
    rw [evaluate]
    refine .cons (isUnbound_of_none ?_) (.of_ok fun state => ⟨_, state, rfl⟩)
    rw [namedVariable?, isNumber]
  | var isName isVariable => exact failsAtFirst_var isName isVariable
  | const isName notVariable isConstant =>
    obtain ⟨value, isValue⟩ := Option.isSome_iff_exists.mp isConstant
    rw [evaluate, isValue]
    exact .cons (isUnbound_of_none (namedVariable?_of_name isName notVariable))
      (.of_ok fun state => ⟨value, state, rfl⟩)
  | @call token opening closing inside name function arguments isName notVariable notConstant
      isFunction isOpening isClosing count separated each fails =>
    have nonnegative := arities name function isFunction
    have exact : ((arguments.map Prod.snd).length : Int) = function.arity := by
      rw [List.length_map, count]
      exact Int.toNat_of_nonneg nonnegative
    rw [evaluate, isFunction]
    dsimp only
    rw [if_pos exact]
    refine .cons (isUnbound_of_none (namedVariable?_of_name isName notVariable))
      (.cons (isUnbound_of_none (namedVariable?_of_isMark isOpening)) ?_)
    refine .concat (isUnbound_of_none (namedVariable?_of_isMark isClosing)) ?_
    rw [← List.append_nil inside]
    exact (failsAtFirst_separated separated fails).bind fun values =>
      .of_ok fun state => ⟨_, _, rfl⟩
  | brackets isOpening isClosing _ fails =>
    exact .cons (isUnbound_of_none (namedVariable?_of_isMark isOpening))
      (fails.concat (isUnbound_of_none (namedVariable?_of_isMark isClosing)))

/-! ### Expressions that have been read -/

/-- Whether a token names a variable of a tree that is not bound. -/
def isUnboundIn (tree : Expr) (environment : Environment) (token : Token) : Bool :=
  match token.lexeme with
  | .name name => tree.variableNames.contains name && (environment name).isNone
  | _ => false

/-- Among the tokens of a phrase, it does not matter whether a name is looked for in the table or in
the tree. -/
theorem isUnboundIn_eq_isUnbound {level : Level} {tokens : List Token} {tree : Expr}
    (derived : Derives table level tokens tree) {token : Token} (member : token ∈ tokens) :
    isUnboundIn tree environment token = isUnbound table environment token := by
  have names := variableNames_of_derives derived
  unfold isUnboundIn isUnbound
  cases isLexeme : token.lexeme with
  | number value => rw [namedVariable?, isLexeme]
  | mark kind text => rw [namedVariable?, isLexeme]
  | name name =>
    dsimp only
    cases isVariable : table.isVariable name with
    | true =>
      have isNamed := namedVariable?_of_isVariable isLexeme isVariable
      have occurs : name ∈ tree.variableNames := by
        rw [names]
        exact List.mem_filterMap.mpr ⟨token, member, isNamed⟩
      rw [isNamed, List.contains_iff_mem.mpr occurs, Bool.true_and]
    | false =>
      have absent : tree.variableNames.contains name = false := by
        refine Bool.eq_false_iff.mpr fun occurs => ?_
        rw [names] at occurs
        obtain ⟨other, -, isNamed⟩ := List.mem_filterMap.mp (List.contains_iff_mem.mp occurs)
        rw [isVariable_of_namedVariable? isNamed] at isVariable
        cases isVariable
      rw [namedVariable?_of_name isLexeme isVariable, absent, Bool.false_and]

theorem find?_isUnboundIn {level : Level} {tokens : List Token} {tree : Expr}
    (derived : Derives table level tokens tree) :
    tokens.find? (isUnboundIn tree environment) = tokens.find? (isUnbound table environment) := by
  rw [← List.head?_filter, ← List.head?_filter,
    List.filter_congr fun token member => isUnboundIn_eq_isUnbound derived member]

/-- Some token of a phrase names an unbound variable if the tree has one. -/
theorem exists_isUnbound {level : Level} {tokens : List Token} {tree : Expr} {name : String}
    (derived : Derives table level tokens tree) (occurs : name ∈ tree.variableNames)
    (unbound : environment name = none) :
    ∃ token ∈ tokens, isUnbound table environment token = true := by
  rw [variableNames_of_derives derived] at occurs
  obtain ⟨token, member, isNamed⟩ := List.mem_filterMap.mp occurs
  refine ⟨token, member, ?_⟩
  rw [isUnbound, isNamed]
  exact Option.isNone_iff_eq_none.mpr unbound

/-- Evaluation fails exactly if some variable of the tree is not bound. The error is then about the
first token that names such a variable, and carries that token. If all variables are bound, the tree
has a value. -/
def FailsOnlyAtUnbound (table : SymbolTable State) (tokens : List Token) (tree : Expr) : Prop :=
  ∀ environment state,
    let outcome := ((evaluate table environment tree).run state).1
    ((∃ error, outcome = .error error) ↔ ∃ name ∈ tree.variableNames, environment name = none) ∧
      (∀ error, outcome = .error error → ∃ token name,
        tokens.find? (isUnboundIn tree environment) = some token ∧ token.lexeme = .name name ∧
          error = ⟨.undefinedVariable name, some token⟩) ∧
      ((∀ name ∈ tree.variableNames, environment name ≠ none) → ∃ value, outcome = .ok value)

theorem failsOnlyAtUnbound_of_derives
    (arities : ∀ name function, table.function? name = some function → 0 ≤ function.arity)
    {tokens : List Token} {tree : Expr} (derived : Derives table .sum tokens tree) :
    FailsOnlyAtUnbound table tokens tree := by
  intro environment state
  have whole : FailsAtFirst table environment tokens (evaluate table environment tree) :=
    failsAtFirst_of_derives arities derived
  have fails := whole state
  rw [← find?_isUnboundIn derived] at fails
  cases front : tokens.find? (isUnboundIn tree environment) with
  | none =>
    rw [front] at fails
    obtain ⟨value, after, ran⟩ := fails
    have allBound : ∀ name ∈ tree.variableNames, environment name ≠ none := by
      intro name occurs unbound
      obtain ⟨token, member, isUnbound⟩ := exists_isUnbound derived occurs unbound
      rw [find?_isUnboundIn derived] at front
      exact List.find?_eq_none.mp front token member isUnbound
    rw [ran]
    refine ⟨⟨fun ⟨error, isError⟩ => ?_, fun ⟨name, occurs, unbound⟩ => ?_⟩, fun error isError => ?_,
      fun _ => ⟨value, rfl⟩⟩
    · cases isError
    · exact absurd unbound (allBound name occurs)
    · cases isError
  | some token =>
    rw [front] at fails
    obtain ⟨name, after, isName, ran⟩ := fails
    have namesUnbound := List.find?_some front
    rw [isUnboundIn, isName] at namesUnbound
    obtain ⟨occurs, unbound⟩ := Bool.and_eq_true_iff.mp namesUnbound
    have member := List.contains_iff_mem.mp occurs
    have isNone := Option.isNone_iff_eq_none.mp unbound
    rw [ran]
    refine ⟨⟨fun _ => ⟨name, member, isNone⟩, fun _ => ⟨_, rfl⟩⟩, ?_, fun allBound => ?_⟩
    · intro error isError
      cases isError
      exact ⟨token, name, rfl, isName, rfl⟩
    · exact absurd isNone (allBound name member)

/-- Expressions that have been read do not go wrong. Over the table that they were read with, the
only error is an unbound variable, and it is the first one in the text. -/
theorem failsOnlyAtUnbound_of_read
    (arities : ∀ name function, table.function? name = some function → 0 ≤ function.arity) :
    (∀ tokens source tree, Expr.ofTokens table tokens source = .ok tree →
      FailsOnlyAtUnbound table tokens tree) ∧
      ∀ text tree, Expr.ofText table text = .ok tree →
        ∃ tokens, scan text = .ok tokens ∧ FailsOnlyAtUnbound table tokens tree := by
  have ofTokens (tokens : List Token) (source : String) (tree : Expr)
      (read : Expr.ofTokens table tokens source = .ok tree) :
      FailsOnlyAtUnbound table tokens tree :=
    failsOnlyAtUnbound_of_derives arities (readAll_eq_ok_iff.mp (ofTokens_eq_ok_iff.mp read))
  refine ⟨ofTokens, fun text tree read => ?_⟩
  unfold Expr.ofText at read
  cases scanned : scan text with
  | error error =>
    rw [scanned] at read
    cases read
  | ok tokens =>
    rw [scanned] at read
    refine ⟨tokens, rfl, ofTokens tokens text tree ?_⟩
    change (Expr.ofTokens table tokens text).mapError Fault.reading = .ok tree at read
    cases outcome : Expr.ofTokens table tokens text with
    | error error =>
      rw [outcome] at read
      cases read
    | ok found =>
      rw [outcome] at read
      cases read
      rfl

end

/-- The difference of the coordinates, read from its text with the standard table. -/
theorem failsOnlyAtUnbound_difference :
    let table : SymbolTable Unit := standardTable (pure 0.5)
    let left : Token := ⟨.name "x", "x-y", 0, 1⟩
    let minus : Token := ⟨.mark .minus "-", "x-y", 1, 1⟩
    let right : Token := ⟨.name "y", "x-y", 2, 1⟩
    let tree : Expr := .binary .subtract (.var "x" left) (.var "y" right) minus
    Expr.ofTokens table [left, minus, right] "x-y" = .ok tree ∧
      FailsOnlyAtUnbound table [left, minus, right] tree ∧
      Expr.ofText table "x-y" = .ok tree ∧
      ∃ tokens, scan "x-y" = .ok tokens ∧ FailsOnlyAtUnbound table tokens tree := by
  intro table left minus right tree
  have derived : Derives table .sum ([left] ++ minus :: [right]) tree :=
    .sum rfl (Or.inr rfl)
      (.ofProduct (.ofPower (.ofSigned (.ofPrimary (.var rfl rfl)))))
      (.ofPower (.ofSigned (.ofPrimary (.var rfl rfl))))
  have ofTokens : Expr.ofTokens table [left, minus, right] "x-y" = .ok tree :=
    ofTokens_eq_ok_iff.mpr (readAll_eq_ok_iff.mpr derived)
  have scanned : scan "x-y" = .ok [left, minus, right] := by
    have takesLeft : takeLexeme? 'x' ['-', 'y'] = some (.name "x", ['-', 'y']) := rfl
    have takesMinus : takeLexeme? '-' ['y'] = some (.mark .minus "-", ['y']) := rfl
    have takesRight : takeLexeme? 'y' [] = some (.name "y", []) := rfl
    show scanFrom "x-y" 0 ['x', '-', 'y'] = _
    rw [scanFrom_cons (by decide) takesLeft, scanFrom_cons (by decide) takesMinus,
      scanFrom_cons (by decide) takesRight, scanFrom]
    rfl
  have ofText : Expr.ofText table "x-y" = .ok tree := by
    rw [Expr.ofText, scanned]
    show (Expr.ofTokens table [left, minus, right] "x-y").mapError Fault.reading = _
    rw [ofTokens]
    rfl
  have arities (name : String) (function : Function Unit)
      (isFunction : table.function? name = some function) : 0 ≤ function.arity :=
    zero_le_arity_of_standard isFunction
  obtain ⟨fromTokens, fromText⟩ := failsOnlyAtUnbound_of_read arities
  exact ⟨ofTokens, fromTokens _ _ tree ofTokens, ofText, fromText "x-y" tree ofText⟩

end DirectionField
