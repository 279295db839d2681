/-
This file proves that a variable may be replaced by an expression before or after reading. If every
token that names the variable gives way to the tokens of the expression, in brackets, the tree that
is read is the former tree in which every node of the variable has given way to the tree of the
expression. An expression in brackets is a primary, as the variable was, so that it is a phrase of
the same layer in whatever surroundings.

Evaluating the tree afterwards is evaluating the former tree with the variable bound to the value of
the expression. The expression is evaluated once for every occurrence of the variable, and not at
all if there is none, so its evaluation must have no effect. It has none if all functions are pure.
-/

import DirectionField.Proofs.Completeness
import DirectionField.Proofs.Effects

namespace DirectionField

/-! ### Replacing a variable in a tree -/

namespace Expr

mutual

/-- A tree with another one in place of every node of a variable. -/
def substitute (tree : Expr) (name : String) (replacement : Expr) : Expr :=
  match tree with
  | var found token => if found = name then replacement else var found token
  | unary sign operand token => unary sign (operand.substitute name replacement) token
  | binary operator left right token =>
    binary operator (left.substitute name replacement) (right.substitute name replacement) token
  | call function arguments token => call function (substituteAll arguments name replacement) token
  | number value token => number value token
  | const found token => const found token
  | bare => bare

/-- Trees with another one in place of every node of a variable. -/
def substituteAll (trees : List Expr) (name : String) (replacement : Expr) : List Expr :=
  match trees with
  | [] => []
  | first :: rest => first.substitute name replacement :: substituteAll rest name replacement

end

variable {name : String} {replacement : Expr}

theorem substitute_var_self (token : Option Token) :
    (var name token).substitute name replacement = replacement := by
  rw [substitute, if_pos rfl]

theorem substitute_var_other {found : String} (other : found ≠ name) (token : Option Token) :
    (var found token).substitute name replacement = var found token := by
  rw [substitute, if_neg other]

theorem substituteAll_eq_map (trees : List Expr) :
    substituteAll trees name replacement = trees.map (·.substitute name replacement) := by
  induction trees with
  | nil => rfl
  | cons first rest inductionHypothesis => rw [substituteAll, inductionHypothesis, List.map_cons]

end Expr

/-! ### Replacing a name in a token list -/

/-- A token list with other tokens in place of every token of a name. -/
def substituteTokens (name : String) (replacement tokens : List Token) : List Token :=
  tokens.flatMap fun token => if token.lexeme = .name name then replacement else [token]

section

variable {name : String} {replacement : List Token}

theorem substituteTokens_append (left right : List Token) :
    substituteTokens name replacement (left ++ right) =
      substituteTokens name replacement left ++ substituteTokens name replacement right :=
  List.flatMap_append

theorem substituteTokens_cons {token : Token} (other : token.lexeme ≠ .name name)
    (tokens : List Token) :
    substituteTokens name replacement (token :: tokens) =
      token :: substituteTokens name replacement tokens := by
  rw [substituteTokens, List.flatMap_cons, if_neg other]
  rfl

theorem substituteTokens_singleton {token : Token} (other : token.lexeme ≠ .name name) :
    substituteTokens name replacement [token] = [token] :=
  substituteTokens_cons other []

theorem substituteTokens_name {token : Token} (isName : token.lexeme = .name name) :
    substituteTokens name replacement [token] = replacement := by
  rw [substituteTokens, List.flatMap_singleton, if_pos isName]

theorem ne_name_of_isMark {kind : Mark} {token : Token} (isMark : token.isMark kind) :
    token.lexeme ≠ .name name := by
  obtain ⟨text, isLexeme⟩ := Token.lexeme_of_isMark isMark
  rw [isLexeme]
  exact nofun

theorem ne_name_of_operator? {operator : Operator} {token : Token}
    (isOperator : token.operator? = some operator) : token.lexeme ≠ .name name := by
  obtain ⟨kind, text, isLexeme, -⟩ := Token.lexeme_of_operator? isOperator
  rw [isLexeme]
  exact nofun

theorem ne_name_of_sign? {sign : Sign} {token : Token} (isSign : token.sign? = some sign) :
    token.lexeme ≠ .name name := by
  obtain ⟨kind, text, isLexeme, -⟩ := Token.lexeme_of_sign? isSign
  rw [isLexeme]
  exact nofun

/-- Commas stay where they are. -/
theorem preceded_substituteTokens {parts : List (List Token)} {tokens : List Token}
    (preceded : Preceded parts tokens) :
    Preceded (parts.map (substituteTokens name replacement))
      (substituteTokens name replacement tokens) := by
  induction preceded with
  | nil => exact .nil
  | cons isComma _ inductionHypothesis =>
    rw [List.map_cons, List.cons_append, substituteTokens_cons (ne_name_of_isMark isComma),
      substituteTokens_append]
    exact .cons isComma inductionHypothesis

theorem separated_substituteTokens {parts : List (List Token)} {tokens : List Token}
    (separated : Separated parts tokens) :
    Separated (parts.map (substituteTokens name replacement))
      (substituteTokens name replacement tokens) := by
  cases separated with
  | nil => exact .nil
  | cons others =>
    rw [List.map_cons, substituteTokens_append]
    exact .cons (preceded_substituteTokens others)

end

/-! ### Phrases after the replacement -/

section

variable {State : Type} {table : SymbolTable State} {name : String} {replacement : List Token}
  {replacementTree : Expr}

/-- If a primary is put in place of a variable, a phrase stays a phrase of its layer. -/
theorem derives_substitute (isVariable : table.isVariable name = true)
    (isPrimary : Derives table .primary replacement replacementTree) {level : Level}
    {tokens : List Token} {tree : Expr} (derived : Derives table level tokens tree) :
    Derives table level (substituteTokens name replacement tokens)
      (tree.substitute name replacementTree) := by
  -- A name that is no variable is not the replaced one.
  have other {found : String} {token : Token} (isName : token.lexeme = .name found)
      (notVariable : table.isVariable found = false) : token.lexeme ≠ .name name := by
    intro same
    cases isName.symm.trans same
    rw [isVariable] at notVariable
    cases notVariable
  induction derived with
  | sum isOperator isSum _ _ fromLeft fromRight =>
    rw [Expr.substitute, substituteTokens_append,
      substituteTokens_cons (ne_name_of_operator? isOperator)]
    exact .sum isOperator isSum fromLeft fromRight
  | product isOperator isProduct _ _ fromLeft fromRight =>
    rw [Expr.substitute, substituteTokens_append,
      substituteTokens_cons (ne_name_of_operator? isOperator)]
    exact .product isOperator isProduct fromLeft fromRight
  | power isOperator _ _ fromLeft fromRight =>
    rw [Expr.substitute, substituteTokens_append,
      substituteTokens_cons (ne_name_of_operator? isOperator)]
    exact .power isOperator fromLeft fromRight
  | ofProduct _ phrase => exact .ofProduct phrase
  | ofPower _ phrase => exact .ofPower phrase
  | ofSigned _ phrase => exact .ofSigned phrase
  | ofPrimary _ phrase => exact .ofPrimary phrase
  | signed isSign _ phrase =>
    rw [Expr.substitute, substituteTokens_cons (ne_name_of_sign? isSign)]
    exact .signed isSign phrase
  | number isNumber =>
    rw [Expr.substitute, substituteTokens_singleton (by rw [isNumber]; exact nofun)]
    exact .number isNumber
  | @var token found isName isFound =>
    by_cases same : found = name
    · subst same
      rw [Expr.substitute_var_self, substituteTokens_name isName]
      exact isPrimary
    · have different : token.lexeme ≠ .name name := by
        rw [isName]
        exact fun equal => same (Lexeme.name.inj equal)
      rw [Expr.substitute_var_other same, substituteTokens_singleton different]
      exact .var isName isFound
  | const isName notVariable isConstant =>
    rw [Expr.substitute, substituteTokens_singleton (other isName notVariable)]
    exact .const isName notVariable isConstant
  | @call token opening closing inside _ _ arguments isName notVariable notConstant isFunction
      isOpening isClosing count separated each phrases =>
    let replaced (argument : List Token × Expr) : List Token × Expr :=
      (substituteTokens name replacement argument.1, argument.2.substitute name replacementTree)
    have trees : (arguments.map replaced).map Prod.snd =
        Expr.substituteAll (arguments.map Prod.snd) name replacementTree := by
      rw [Expr.substituteAll_eq_map, List.map_map, List.map_map]
      rfl
    have parts : (arguments.map replaced).map Prod.fst =
        (arguments.map Prod.fst).map (substituteTokens name replacement) := by
      rw [List.map_map, List.map_map]
      rfl
    rw [Expr.substitute, ← trees, List.cons_append, List.cons_append,
      substituteTokens_cons (other isName notVariable),
      substituteTokens_cons (ne_name_of_isMark isOpening), substituteTokens_append,
      substituteTokens_singleton (ne_name_of_isMark isClosing)]
    refine .call isName notVariable notConstant isFunction isOpening isClosing
      (by rw [List.length_map, count]) ?_ ?_
    · rw [parts]
      exact separated_substituteTokens separated
    · exact List.forall_mem_map.mpr phrases
  | brackets isOpening isClosing _ phrase =>
    rw [List.cons_append, substituteTokens_cons (ne_name_of_isMark isOpening),
      substituteTokens_append, substituteTokens_singleton (ne_name_of_isMark isClosing)]
    exact .brackets isOpening isClosing phrase

end

/-! ### Evaluation after the replacement -/

/-- An environment in which a name is bound to a value, and all other names as before. -/
def Environment.bind (environment : Environment) (name : String) (value : Float) : Environment :=
  fun other => if other = name then some value else environment other

section

variable {State : Type} {table : SymbolTable State} {environment : Environment} {name : String}
  {replacement : Expr} {value : Float}

mutual

/-- If the evaluation of an expression does nothing but give a value, a variable bound to that value
does as well as the expression. -/
theorem evaluate_substitute (gives : evaluate table environment replacement = pure value)
    (tree : Expr) :
    evaluate table environment (tree.substitute name replacement) =
      evaluate table (environment.bind name value) tree := by
  cases tree with
  | number value token => rw [Expr.substitute, evaluate, evaluate]
  | var found token =>
    rw [evaluate, Environment.bind]
    by_cases same : found = name
    · rw [same, Expr.substitute_var_self, gives, if_pos rfl]
      rfl
    · rw [Expr.substitute_var_other same, evaluate, if_neg same]
  | const found token => rw [Expr.substitute, evaluate, evaluate]
  | unary sign operand token =>
    rw [Expr.substitute, evaluate, evaluate, evaluate_substitute gives operand]
  | binary operator left right token =>
    rw [Expr.substitute, evaluate, evaluate, evaluate_substitute gives left,
      evaluate_substitute gives right]
  | call function arguments token =>
    have count : (Expr.substituteAll arguments name replacement).length = arguments.length := by
      rw [Expr.substituteAll_eq_map, List.length_map]
    rw [Expr.substitute, evaluate, evaluate, count, evaluateAll_substitute gives arguments]
  | bare => rw [Expr.substitute, evaluate, evaluate]

theorem evaluateAll_substitute (gives : evaluate table environment replacement = pure value)
    (trees : List Expr) :
    evaluateAll table environment (Expr.substituteAll trees name replacement) =
      evaluateAll table (environment.bind name value) trees := by
  cases trees with
  | nil => rw [Expr.substituteAll, evaluateAll, evaluateAll]
  | cons first rest =>
    rw [Expr.substituteAll, evaluateAll, evaluateAll, evaluate_substitute gives first,
      evaluateAll_substitute gives rest]

end

end

/-! ### Replacing a variable -/

section

variable {State : Type} {table : SymbolTable State}

/-- A variable may be replaced by an expression in brackets before reading, or by its tree after
reading. If all functions are pure and the expression has a value, the outcome of evaluation is that
of the former tree with the variable bound to that value, an error as well as a value. -/
theorem substitution_commutes {name : String} (isVariable : table.isVariable name = true)
    {opening closing : Token} (isOpening : opening.isMark .opening)
    (isClosing : closing.isMark .closing) {tokens inner : List Token} {source innerSource : String}
    {tree replacement : Expr} (read : Expr.ofTokens table tokens source = .ok tree)
    (innerRead : Expr.ofTokens table inner innerSource = .ok replacement) :
    (∀ source,
      Expr.ofTokens table (substituteTokens name (opening :: inner ++ [closing]) tokens) source =
        .ok (tree.substitute name replacement)) ∧
      (table.IsPure → ∀ environment state value,
        ((evaluate table environment replacement).run state).1 = .ok value →
          ∀ state, (evaluate table environment (tree.substitute name replacement)).run state =
            (evaluate table (environment.bind name value) tree).run state) := by
  have derived := ofTokens_eq_ok_iff_derives.mp read
  have innerDerived := ofTokens_eq_ok_iff_derives.mp innerRead
  refine ⟨fun source => ?_, fun isPure environment state value gives state' => ?_⟩
  · have isPrimary := Derives.brackets isOpening isClosing innerDerived
    exact ofTokens_eq_ok_iff_derives.mpr (derives_substitute isVariable isPrimary derived)
  · have givesAlways := (evaluate_isEffectless isPure replacement).eq_pure gives
    rw [evaluate_substitute givesAlways tree]

end

/-- The difference `y-1` in place of `x` in the power `x^double(x)`, where the power binds more
strongly than the difference. -/
theorem substitution_commutes_power :
    let table : SymbolTable Unit := ⟨["x", "y"], [], [("double", .unary fun value => value + value)]⟩
    let mark (kind : Mark) : Token := ⟨.mark kind "", "", 0, 1⟩
    let name (text : String) : Token := ⟨.name text, "", 0, 1⟩
    let one : Token := ⟨.number 1.0, "", 0, 1⟩
    let tokens : List Token :=
      [name "x", mark .caret, name "double", mark .opening, name "x", mark .closing]
    let tree : Expr := .binary .power (.var "x" (name "x"))
      (.call "double" [.var "x" (name "x")] (name "double")) (mark .caret)
    let inner : List Token := [name "y", mark .minus, one]
    let replacement : Expr :=
      .binary .subtract (.var "y" (name "y")) (.number 1.0 one) (mark .minus)
    let environment : Environment := fun found => if found = "y" then some 3.0 else none
    table.isVariable "x" = true ∧ Expr.ofTokens table tokens "" = .ok tree ∧
      Expr.ofTokens table inner "" = .ok replacement ∧
      Expr.ofTokens table
          (substituteTokens "x" (mark .opening :: inner ++ [mark .closing]) tokens) "" =
        .ok (tree.substitute "x" replacement) ∧
      table.IsPure ∧ ((evaluate table environment replacement).run ()).1 = .ok 2.0 ∧
      (evaluate table environment (tree.substitute "x" replacement)).run () =
        (evaluate table (environment.bind "x" 2.0) tree).run () := by
  intro table mark name one tokens tree inner replacement environment
  have var {text : String} (isVariable : table.isVariable text = true) :
      Derives table .primary [name text] (.var text (name text)) := .var rfl isVariable
  let arguments : List (List Token × Expr) := [([name "x"], .var "x" (name "x"))]
  have each : ∀ argument ∈ arguments, Derives table .sum argument.1 argument.2 :=
    List.forall_mem_singleton.mpr (.loosen (var rfl) (by decide))
  have separated : Separated (arguments.map Prod.fst) ([name "x"] ++ []) := .cons .nil
  have call : Derives table .primary (name "double" :: mark .opening :: _ ++ [mark .closing])
      (.call "double" [.var "x" (name "x")] (name "double")) :=
    .call rfl rfl rfl rfl rfl rfl rfl separated each
  have outer : Derives table .power ([name "x"] ++ mark .caret :: _) tree :=
    .power rfl (.loosen (var rfl) (by decide)) (.loosen call (by decide))
  have difference : Derives table .sum ([name "y"] ++ mark .minus :: [one]) replacement :=
    .sum rfl (Or.inr rfl) (.loosen (var rfl) (by decide)) (.loosen (.number rfl) (by decide))
  have read : Expr.ofTokens table tokens "" = .ok tree :=
    ofTokens_eq_ok_iff_derives.mpr (.loosen outer (by decide))
  have innerRead : Expr.ofTokens table inner "" = .ok replacement :=
    ofTokens_eq_ok_iff_derives.mpr difference
  have isPure : table.IsPure := fun text function _ =>
    ⟨fun values => ((function.apply values).run ()).1, fun values => rfl⟩
  have two : (3.0 : Float) - 1.0 = 2.0 := by decide +kernel
  have gives : ((evaluate table environment replacement).run ()).1 = .ok 2.0 :=
    congrArg Except.ok two
  have isVariable : table.isVariable "x" = true := rfl
  have isOpening : (mark .opening).isMark .opening = true := rfl
  have isClosing : (mark .closing).isMark .closing = true := rfl
  obtain ⟨substituted, evaluated⟩ :=
    substitution_commutes isVariable isOpening isClosing read innerRead
  exact ⟨isVariable, read, innerRead, substituted "", isPure, gives,
    evaluated isPure environment () 2.0 gives ()⟩

end DirectionField
