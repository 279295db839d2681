/-
This file proves that only the names that occur matter. Tokens are read alike over two tables that
give every name of the tokens the same standing. Trees are evaluated alike over two tables, and in
two environments, that have the same behind every name of the tree.

A table may therefore be enlarged by new names, and an environment by new bindings. A text that has
been read and evaluated keeps its tree and its value.
-/

import DirectionField.Proofs.Nodes
import DirectionField.Proofs.Relocation

namespace DirectionField

section

variable {State Other : Type}

/-! ### The standing of a name -/

/-- A name has the same standing in two tables: it is a variable, a constant, or a function of some
arity in both, or in neither. -/
structure SameStanding (table : SymbolTable State) (other : SymbolTable Other) (name : String) :
    Prop where
  isVariable : table.isVariable name = other.isVariable name
  isConstant : (table.constant? name).isSome = (other.constant? name).isSome
  arity : (table.function? name).map Function.arity = (other.function? name).map Function.arity

theorem map_function?_arity (table : SymbolTable State) (name : String) :
    (table.function? name).map (fun function => Reference.function function.arity) =
      ((table.function? name).map Function.arity).map .function :=
  (Option.map_map ..).symm

/-- A name of the same standing refers to the same. -/
theorem SameStanding.resolve? {table : SymbolTable State} {other : SymbolTable Other}
    {name : String} (same : SameStanding table other name) :
    table.resolve? name = other.resolve? name := by
  rw [SymbolTable.resolve?, SymbolTable.resolve?, same.isVariable, same.isConstant,
    map_function?_arity, map_function?_arity, same.arity]

/-- Tokens are read alike over two tables in which their names have the same standing. -/
theorem ofTokens_congr {table : SymbolTable State} {other : SymbolTable Other} {tokens : List Token}
    (same : ∀ token ∈ tokens, ∀ name, token.lexeme = .name name → SameStanding table other name)
    (source : String) : Expr.ofTokens table tokens source = Expr.ofTokens other tokens source := by
  have alike : ResolveAlike table other tokens :=
    fun token member name isName => (same token member name isName).resolve?
  have moved := readAll_map_move .stay alike
  rw [show tokens.map Relocation.stay.move = tokens from List.map_id tokens] at moved
  rw [Expr.ofTokens, Expr.ofTokens, moved]
  cases readAll table tokens with
  | ok tree =>
    dsimp only
    rw [Expr.relocate_stay]
  | error stuck =>
    dsimp only
    rw [show stuck.unread.map Relocation.stay.move = stuck.unread from List.map_id _]

/-! ### What is behind a name -/

/-- Two tables and two environments have the same behind the name of a node. -/
def SameBehind (table other : SymbolTable State) (environment otherEnvironment : Environment) :
    Expr → Prop
  | .var name _ => environment name = otherEnvironment name
  | .const name _ => table.constant? name = other.constant? name
  | .call name _ _ => table.function? name = other.function? name
  | _ => True

section

variable {table other : SymbolTable State} {environment otherEnvironment : Environment}

mutual

/-- A tree is evaluated alike if the same is behind every name of it. -/
theorem evaluate_congr (tree : Expr)
    (same : ∀ node ∈ tree.nodes, SameBehind table other environment otherEnvironment node) :
    evaluate table environment tree = evaluate other otherEnvironment tree := by
  cases tree with
  | number _ _ | bare => rfl
  | var name token =>
    have bound : environment name = otherEnvironment name := same _ (List.mem_singleton_self _)
    rw [evaluate, evaluate, bound]
  | const name token =>
    have value : table.constant? name = other.constant? name := same _ (List.mem_singleton_self _)
    rw [evaluate, evaluate, value]
  | unary sign operand token =>
    rw [Expr.nodes, List.forall_mem_cons] at same
    rw [evaluate, evaluate, evaluate_congr operand same.2]
  | binary operator left right token =>
    rw [Expr.nodes, List.forall_mem_cons, List.forall_mem_append] at same
    rw [evaluate, evaluate, evaluate_congr left same.2.1, evaluate_congr right same.2.2]
  | call name arguments token =>
    rw [Expr.nodes, List.forall_mem_cons] at same
    have function : table.function? name = other.function? name := same.1
    rw [evaluate, evaluate, function, evaluateAll_congr arguments same.2]

theorem evaluateAll_congr (trees : List Expr)
    (same : ∀ node ∈ Expr.nodesOfAll trees,
      SameBehind table other environment otherEnvironment node) :
    evaluateAll table environment trees = evaluateAll other otherEnvironment trees := by
  cases trees with
  | nil => rfl
  | cons first rest =>
    rw [Expr.nodesOfAll, List.forall_mem_append] at same
    rw [evaluateAll, evaluateAll, evaluate_congr first same.1, evaluateAll_congr rest same.2]

end

end

/-! ### Larger tables and environments -/

/-- Whether a name is in a table, as a variable, as a constant or as a function. -/
def SymbolTable.IsEntered (table : SymbolTable State) (name : String) : Prop :=
  table.isVariable name = true ∨ (table.constant? name).isSome ∨ (table.function? name).isSome

/-- A table is a part of a larger one, in which everything behind its names is as before. -/
structure SymbolTable.IsPartOf (table larger : SymbolTable State) : Prop where
  isVariable : ∀ name, table.IsEntered name → larger.isVariable name = table.isVariable name
  constant? : ∀ name, table.IsEntered name → larger.constant? name = table.constant? name
  function? : ∀ name, table.IsEntered name → larger.function? name = table.function? name

/-- An environment is a part of a larger one, in which its bindings are as before. -/
def Environment.IsPartOf (environment larger : Environment) : Prop :=
  ∀ name value, environment name = some value → larger name = some value

/-- A table to which new names are added. -/
def SymbolTable.enlarged (table : SymbolTable State) (variableNames : List String)
    (constants : List (String × Float)) (functions : List (String × Function State)) :
    SymbolTable State where
  variableNames := table.variableNames ++ variableNames
  constants := table.constants ++ constants
  functions := table.functions ++ functions

theorem lookup_append_of_new {Value : Type} {name : String} (entries : List (String × Value))
    {more : List (String × Value)} (old : ∀ entry ∈ more, entry.1 ≠ name) :
    (entries ++ more).lookup name = entries.lookup name := by
  have absent : more.lookup name = none :=
    List.lookup_eq_none_iff.mpr fun entry member => bne_iff_ne.mpr (old entry member).symm
  rw [List.lookup_append, absent, Option.or_none]

/-- A table is a part of what it becomes by the addition of new names. -/
theorem SymbolTable.isPartOf_enlarged {table : SymbolTable State} {variableNames : List String}
    {constants : List (String × Float)} {functions : List (String × Function State)}
    (newVariables : ∀ name ∈ variableNames, ¬table.IsEntered name)
    (newConstants : ∀ entry ∈ constants, ¬table.IsEntered entry.1)
    (newFunctions : ∀ entry ∈ functions, ¬table.IsEntered entry.1) :
    table.IsPartOf (table.enlarged variableNames constants functions) where
  isVariable name entered := by
    have absent : variableNames.contains name = false :=
      Bool.eq_false_iff.mpr fun isNew => newVariables name (List.contains_iff_mem.mp isNew) entered
    show (table.variableNames ++ variableNames).contains name = _
    rw [List.contains_append, absent, Bool.or_false]
    rfl
  constant? name entered :=
    lookup_append_of_new _ fun entry member same => newConstants entry member (same ▸ entered)
  function? name entered :=
    lookup_append_of_new _ fun entry member same => newFunctions entry member (same ▸ entered)

variable {table larger : SymbolTable State} {environment largerEnvironment : Environment}

/-- A phrase is a phrase over every larger table. -/
theorem SymbolTable.IsPartOf.derives (isPart : table.IsPartOf larger) {level : Level}
    {tokens : List Token} {tree : Expr} (derived : Derives table level tokens tree) :
    Derives larger level tokens tree := by
  induction derived with
  | sum isOperator isSum _ _ fromLeft fromRight => exact .sum isOperator isSum fromLeft fromRight
  | ofProduct _ phrase => exact .ofProduct phrase
  | product isOperator isProduct _ _ fromLeft fromRight =>
    exact .product isOperator isProduct fromLeft fromRight
  | ofPower _ phrase => exact .ofPower phrase
  | power isOperator _ _ fromLeft fromRight => exact .power isOperator fromLeft fromRight
  | ofSigned _ phrase => exact .ofSigned phrase
  | signed isSign _ phrase => exact .signed isSign phrase
  | ofPrimary _ phrase => exact .ofPrimary phrase
  | number isNumber => exact .number isNumber
  | @var _ name isName isVariable =>
    exact .var isName ((isPart.isVariable name (Or.inl isVariable)).trans isVariable)
  | @const _ name isName notVariable isConstant =>
    have entered : table.IsEntered name := Or.inr (Or.inl isConstant)
    refine .const isName ((isPart.isVariable name entered).trans notVariable) ?_
    rw [isPart.constant? name entered]
    exact isConstant
  | @call _ _ _ _ name _ _ isName notVariable notConstant isFunction isOpening isClosing count
      separated _ each =>
    have entered : table.IsEntered name := Or.inr (Or.inr (Option.isSome_of_eq_some isFunction))
    exact .call isName ((isPart.isVariable name entered).trans notVariable)
      ((isPart.constant? name entered).trans notConstant)
      ((isPart.function? name entered).trans isFunction) isOpening isClosing count separated each
  | brackets isOpening isClosing _ phrase => exact .brackets isOpening isClosing phrase

theorem SymbolTable.IsPartOf.ofText (isPart : table.IsPartOf larger) {text : String} {tree : Expr}
    (read : Expr.ofText table text = .ok tree) : Expr.ofText larger text = .ok tree := by
  obtain ⟨tokens, scanned, ofTokens⟩ := ofText_eq_ok_iff.mp read
  have derived := isPart.derives (ofTokens_eq_ok_iff_derives.mp ofTokens)
  exact ofText_eq_ok_iff.mpr ⟨tokens, scanned, ofTokens_eq_ok_iff_derives.mpr derived⟩

/-- Behind a name of a node that is not at fault there is the same as before. -/
theorem sameBehind_of_faultless (isPart : table.IsPartOf larger)
    (environmentIsPart : environment.IsPartOf largerEnvironment) {node : Expr}
    (faultless : faultOf? table environment node = none) :
    SameBehind larger table largerEnvironment environment node := by
  cases node with
  | number _ _ | unary _ _ _ | binary _ _ _ _ | bare => exact True.intro
  | var name token =>
    rw [faultOf?] at faultless
    split at faultless
    · next isBound =>
      obtain ⟨value, bound⟩ := Option.isSome_iff_exists.mp isBound
      exact (environmentIsPart name value bound).trans bound.symm
    · cases faultless
  | const name token =>
    rw [faultOf?] at faultless
    split at faultless
    · next isConstant => exact isPart.constant? name (Or.inr (Or.inl isConstant))
    · cases faultless
  | call name arguments token =>
    rw [faultOf?] at faultless
    cases isFunction : table.function? name with
    | none =>
      rw [isFunction] at faultless
      cases faultless
    | some function =>
      exact isPart.function? name (Or.inr (Or.inr (Option.isSome_of_eq_some isFunction)))

/-- A tree that has a value keeps it over a larger table and in a larger environment. -/
theorem run_evaluate_of_isPartOf (isPart : table.IsPartOf larger)
    (environmentIsPart : environment.IsPartOf largerEnvironment) {tree : Expr} {state after : State}
    {value : Float} (ran : (evaluate table environment tree).run state = (.ok value, after)) :
    (evaluate larger largerEnvironment tree).run state = (.ok value, after) := by
  -- A run with a value leaves no node at fault, so every name of the tree has something behind it.
  have faultless := (evaluate_failsWith table environment tree).eq_none ran
  rw [List.findSome?_eq_none_iff] at faultless
  have same := evaluate_congr tree fun node member =>
    sameBehind_of_faultless isPart environmentIsPart (faultless node member)
  rw [same]
  exact ran

end

/-- Only the names that occur matter. Reading depends on the standing of the names of the tokens,
and evaluation on what is behind the names of the tree. A text keeps its tree and its value if the
table and the environment are enlarged. -/
theorem only_names_matter (State : Type) :
    (∀ (Other : Type) (table : SymbolTable State) (other : SymbolTable Other) tokens source,
      (∀ token ∈ tokens, ∀ name, token.lexeme = .name name → SameStanding table other name) →
        Expr.ofTokens table tokens source = Expr.ofTokens other tokens source) ∧
      (∀ (table other : SymbolTable State) environment otherEnvironment tree,
        (∀ node ∈ tree.nodes, SameBehind table other environment otherEnvironment node) →
          evaluate table environment tree = evaluate other otherEnvironment tree) ∧
      ∀ table larger : SymbolTable State, table.IsPartOf larger → ∀ text tree,
        Expr.ofText table text = .ok tree → Expr.ofText larger text = .ok tree ∧
          ∀ environment largerEnvironment : Environment, environment.IsPartOf largerEnvironment →
            ∀ state value after,
              (evaluate table environment tree).run state = (.ok value, after) →
                (evaluate larger largerEnvironment tree).run state = (.ok value, after) := by
  refine ⟨fun Other table other tokens source same => ofTokens_congr same source,
    fun table other environment otherEnvironment tree same => evaluate_congr tree same,
    fun table larger isPart text tree read => ⟨isPart.ofText read, ?_⟩⟩
  intro environment largerEnvironment environmentIsPart state value after ran
  exact run_evaluate_of_isPartOf isPart environmentIsPart ran

/-- `2*max(x,-pi)` is read alike over a table that gives other values to its names. It keeps its
tree and its value over a larger table and in a larger environment. -/
theorem only_names_matter_product :
    let table : SymbolTable Unit := standardTable (pure 0.5)
    let larger := table.enlarged ["z"] [("g", 9.81)] [("half", .unary (· / 2.0))]
    let other : SymbolTable Nat := ⟨["x"], [("pi", 3.0)], [("max", .binary fun left _ => left)]⟩
    let point : Environment := .ofPoint (-5.0) 1.0
    let space : Environment := fun name => if name = "z" then some 3.0 else point name
    let token (lexeme : Lexeme) (index length : Int) : Token :=
      ⟨lexeme, "2*max(x,-pi)", index, length⟩
    let two := token (.number 2.0) 0 1
    let star := token (.mark .star "*") 1 1
    let max := token (.name "max") 2 3
    let x := token (.name "x") 6 1
    let minus := token (.mark .minus "-") 8 1
    let pi := token (.name "pi") 9 2
    let tokens : List Token :=
      [two, star, max, token (.mark .opening "(") 5 1, x, token (.mark .comma ",") 7 1, minus, pi,
        token (.mark .closing ")") 11 1]
    let tree : Expr :=
      .binary .multiply (.number 2.0 two)
        (.call "max" [.var "x" x, .unary .minus (.const "pi" pi) minus] max) star
    Expr.ofTokens table tokens "2*max(x,-pi)" = Expr.ofTokens other tokens "2*max(x,-pi)" ∧
      evaluate table point tree = evaluate larger space tree ∧
      Expr.ofText table "2*max(x,-pi)" = .ok tree ∧ Expr.ofText larger "2*max(x,-pi)" = .ok tree ∧
      (evaluate table point tree).run () = (.ok (-6.283185307179586), ()) ∧
      (evaluate larger space tree).run () = (.ok (-6.283185307179586), ()) := by
  intro table larger other point space token two star max x minus pi tokens tree
  obtain ⟨reading, evaluation, enlargement⟩ := only_names_matter Unit
  have sameStanding : ∀ token ∈ tokens, ∀ name, token.lexeme = .name name →
      SameStanding table other name := by
    intro token member name isName
    simp only [tokens, List.mem_cons, List.not_mem_nil, or_false] at member
    -- Of the nine tokens, three are names.
    rcases member with rfl | rfl | rfl | rfl | rfl | rfl | rfl | rfl | rfl <;> cases isName
    all_goals exact ⟨by decide, by decide, by decide⟩
  have sameBehind : ∀ node ∈ tree.nodes, SameBehind table larger point space node := by
    intro node member
    simp only [tree, Expr.nodes, Expr.nodesOfAll, List.cons_append, List.nil_append, List.mem_cons,
      List.not_mem_nil, or_false] at member
    rcases member with rfl | rfl | rfl | rfl | rfl | rfl
    · exact True.intro
    · exact True.intro
    · rfl
    · rfl
    · exact True.intro
    · rfl
  have isPart : table.IsPartOf larger := by
    have isNew (name : String) (notVariable : ¬table.isVariable name = true)
        (notConstant : ¬(table.constant? name).isSome = true)
        (notFunction : ¬(table.function? name).isSome = true) : ¬table.IsEntered name :=
      not_or.mpr ⟨notVariable, not_or.mpr ⟨notConstant, notFunction⟩⟩
    refine SymbolTable.isPartOf_enlarged (List.forall_mem_singleton.mpr ?_)
      (List.forall_mem_singleton.mpr ?_) (List.forall_mem_singleton.mpr ?_)
    · exact isNew "z" (by decide) (by decide) (by decide)
    · exact isNew "g" (by decide) (by decide) (by decide)
    · exact isNew "half" (by decide) (by decide) (by decide)
  have environmentIsPart : point.IsPartOf space := by
    intro name value bound
    have notNew : name ≠ "z" := by
      rintro rfl
      cases bound
    exact (if_neg notNew).trans bound
  have read : Expr.ofText table "2*max(x,-pi)" = .ok tree := by
    with_unfolding_all rfl
  have ran : (evaluate table point tree).run () = (.ok (-6.283185307179586), ()) := by
    with_unfolding_all rfl
  obtain ⟨readLarger, keepsValue⟩ := enlargement table larger isPart _ tree read
  exact ⟨reading Nat table other tokens _ sameStanding,
    evaluation table larger point space tree sameBehind, read, readLarger, ran,
    keepsValue point space environmentIsPart () _ () ran⟩

end DirectionField
