/-
This file says which node of a tree makes its evaluation fail: the first one that is at fault by
itself, a parent being looked at before its children and these from left to right. Any tree may be
evaluated over any table.

The nodes of a tree that has been read agree with tokens that it was read from. So the error of such
a tree carries the token that names what is missing.
-/

import DirectionField.Proofs.Evaluation

namespace DirectionField

/-! ### The nodes of a tree -/

namespace Expr

mutual

/-- The nodes of a tree, a parent before its children and these from left to right. -/
def nodes : Expr → List Expr
  | number value token => [number value token]
  | var name token => [var name token]
  | const name token => [const name token]
  | unary sign operand token => unary sign operand token :: operand.nodes
  | binary operator left right token =>
    binary operator left right token :: (left.nodes ++ right.nodes)
  | call name arguments token => call name arguments token :: nodesOfAll arguments
  | bare => [bare]

/-- The nodes of trees, from left to right. -/
def nodesOfAll : List Expr → List Expr
  | [] => []
  | first :: rest => first.nodes ++ nodesOfAll rest

end

theorem mem_nodesOfAll {trees : List Expr} {node : Expr} :
    node ∈ nodesOfAll trees ↔ ∃ tree ∈ trees, node ∈ tree.nodes := by
  induction trees with
  | nil => exact ⟨nofun, fun ⟨tree, member, _⟩ => nomatch member⟩
  | cons first rest inductionHypothesis =>
    rw [nodesOfAll, List.mem_append, inductionHypothesis]
    constructor
    · rintro (inFirst | ⟨tree, member, inTree⟩)
      · exact ⟨first, List.mem_cons_self .., inFirst⟩
      · exact ⟨tree, List.mem_cons_of_mem _ member, inTree⟩
    · rintro ⟨tree, member, inTree⟩
      rcases List.mem_cons.mp member with rfl | member
      · exact Or.inl inTree
      · exact Or.inr ⟨tree, member, inTree⟩

end Expr

/-! ### Nodes at fault -/

section

variable {State : Type} (table : SymbolTable State) (environment : Environment)

/-- What is wrong with a node by itself. -/
def faultOf? : Expr → Option EvaluationError
  | .var name token =>
    if (environment name).isSome then none else some ⟨.undefinedVariable name, token⟩
  | .const name token =>
    if (table.constant? name).isSome then none else some ⟨.undefinedConstant name, token⟩
  | .call name arguments token =>
    match table.function? name with
    | none => some ⟨.undefinedFunction name, token⟩
    | some function =>
      if (arguments.length : Int) = function.arity then none
      else some ⟨.argumentCount name function.arity arguments.length, token⟩
  | .bare => some ⟨.bareNode, none⟩
  | _ => none

end

/-- A computation fails with the given error, from every state, or has a value if there is none. -/
def FailsWith {State Value : Type} (evaluation : Evaluation State Value) :
    Option EvaluationError → Prop
  | none => ∀ state, ∃ value after, evaluation.run state = (.ok value, after)
  | some error => ∀ state, ∃ after, evaluation.run state = (.error error, after)

section

variable {State Value Result : Type} {first : Evaluation State Value}
  {next : Value → Evaluation State Result}

namespace FailsWith

theorem eq_none {error? : Option EvaluationError} (fails : FailsWith first error?) {state after : State}
    {value : Value} (ran : first.run state = (.ok value, after)) : error? = none := by
  cases error? with
  | none => rfl
  | some error =>
    obtain ⟨final, failed⟩ := fails state
    cases ran.symm.trans failed

theorem eq_some {error? : Option EvaluationError} (fails : FailsWith first error?) {state after : State}
    {error : EvaluationError} (ran : first.run state = (.error error, after)) :
    error? = some error := by
  cases error? with
  | none =>
    obtain ⟨value, final, succeeded⟩ := fails state
    cases ran.symm.trans succeeded
  | some other =>
    obtain ⟨final, failed⟩ := fails state
    cases ran.symm.trans failed
    rfl

/-- The error of the first step comes before that of the second one. -/
theorem bind {left right : Option EvaluationError} (firstFails : FailsWith first left)
    (nextFails : ∀ value, FailsWith (next value) right) :
    FailsWith (first >>= next) (left.or right) := by
  cases left with
  | some error =>
    intro state
    obtain ⟨after, ran⟩ := firstFails state
    exact ⟨after, run_bind_of_error ran⟩
  | none =>
    cases right with
    | none =>
      intro state
      obtain ⟨value, between, ran⟩ := firstFails state
      rw [run_bind_of_ok ran]
      exact nextFails value between
    | some error =>
      intro state
      obtain ⟨value, between, ran⟩ := firstFails state
      rw [run_bind_of_ok ran]
      exact nextFails value between

/-- Something that cannot fail may be computed at the end. -/
theorem bind_ok {error? : Option EvaluationError} (firstFails : FailsWith first error?)
    (nextSucceeds : ∀ value, FailsWith (next value) none) :
    FailsWith (first >>= next) error? := by
  rw [← Option.or_none (o := error?)]
  exact firstFails.bind nextSucceeds

end FailsWith

/-! ### The first node at fault -/

variable (table : SymbolTable State) (environment : Environment)

theorem found_failsWith (value : Option Float) (cause : EvaluationCause) (token : Option Token) :
    FailsWith (found value cause token : Evaluation State Float)
      (if value.isSome then none else some ⟨cause, token⟩) := by
  cases value with
  | none => exact fun state => ⟨state, rfl⟩
  | some value => exact fun state => ⟨value, state, rfl⟩

mutual

/-- The evaluation of a tree fails with the error of its first node at fault. -/
theorem evaluate_failsWith (tree : Expr) :
    FailsWith (evaluate table environment tree)
      (tree.nodes.findSome? (faultOf? table environment)) := by
  cases tree with
  | number value token => exact fun state => ⟨value, state, rfl⟩
  | var name token =>
    rw [evaluate, Expr.nodes, List.findSome?_singleton, faultOf?]
    exact found_failsWith ..
  | const name token =>
    rw [evaluate, Expr.nodes, List.findSome?_singleton, faultOf?]
    exact found_failsWith ..
  | unary sign operand token =>
    rw [evaluate, Expr.nodes, List.findSome?_cons_of_isNone rfl]
    exact (evaluate_failsWith operand).bind_ok fun value => fun state => ⟨_, state, rfl⟩
  | binary operator left right token =>
    rw [evaluate, Expr.nodes, List.findSome?_cons_of_isNone rfl, List.findSome?_append]
    exact (evaluate_failsWith left).bind fun _ =>
      (evaluate_failsWith right).bind_ok fun value => fun state => ⟨_, state, rfl⟩
  | call name arguments token =>
    rw [evaluate, Expr.nodes, List.findSome?_cons, faultOf?]
    cases table.function? name with
    | none => exact fun state => ⟨state, rfl⟩
    | some function =>
      dsimp only
      split
      · exact (evaluateAll_failsWith arguments).bind_ok fun values state => ⟨_, _, rfl⟩
      · exact fun state => ⟨state, rfl⟩
  | bare => exact fun state => ⟨state, rfl⟩

/-- The evaluation of trees fails with the error of their first node at fault. -/
theorem evaluateAll_failsWith (trees : List Expr) :
    FailsWith (evaluateAll table environment trees)
      ((Expr.nodesOfAll trees).findSome? (faultOf? table environment)) := by
  cases trees with
  | nil => exact fun state => ⟨[], state, rfl⟩
  | cons first rest =>
    rw [evaluateAll, Expr.nodesOfAll, List.findSome?_append]
    exact (evaluate_failsWith first).bind fun _ =>
      (evaluateAll_failsWith rest).bind_ok fun values => fun state => ⟨_, state, rfl⟩

end

end

/-! ### Nodes and their tokens -/

/-- A node agrees with the token that it keeps. -/
inductive Agrees : Expr → Token → Prop
  | number {token : Token} {value : Float} (isNumber : token.lexeme = .number value) :
      Agrees (.number value token) token
  | var {token : Token} {name : String} (isName : token.lexeme = .name name) :
      Agrees (.var name token) token
  | const {token : Token} {name : String} (isName : token.lexeme = .name name) :
      Agrees (.const name token) token
  | unary {token : Token} {sign : Sign} {operand : Expr} (isSign : token.sign? = some sign) :
      Agrees (.unary sign operand token) token
  | binary {token : Token} {operator : Operator} {left right : Expr}
      (isOperator : token.operator? = some operator) :
      Agrees (.binary operator left right token) token
  | call {token : Token} {name : String} {arguments : List Expr}
      (isName : token.lexeme = .name name) : Agrees (.call name arguments token) token

/-- All nodes of a tree agree with tokens of a list. -/
def NodesAgree (tokens : List Token) (tree : Expr) : Prop :=
  ∀ node ∈ tree.nodes, ∃ token ∈ tokens, Agrees node token

theorem NodesAgree.mono {tokens more : List Token} {tree : Expr} (agree : NodesAgree tokens tree)
    (included : ∀ token ∈ tokens, token ∈ more) : NodesAgree more tree := by
  intro node member
  obtain ⟨token, inTokens, agrees⟩ := agree node member
  exact ⟨token, included token inTokens, agrees⟩

theorem nodesAgree_binary {left right : List Token} {token : Token} {operator : Operator}
    {leftTree rightTree : Expr} (isOperator : token.operator? = some operator)
    (fromLeft : NodesAgree left leftTree) (fromRight : NodesAgree right rightTree) :
    NodesAgree (left ++ token :: right) (.binary operator leftTree rightTree token) := by
  unfold NodesAgree
  rw [Expr.nodes]
  refine List.forall_mem_cons.mpr ⟨?_, List.forall_mem_append.mpr ⟨?_, ?_⟩⟩
  · exact ⟨token, List.mem_append_right _ (List.mem_cons_self ..), .binary isOperator⟩
  · exact fromLeft.mono fun _ => List.mem_append_left _
  · exact fromRight.mono fun _ member => List.mem_append_right _ (List.mem_cons_of_mem _ member)

theorem mem_of_preceded {parts : List (List Token)} {tokens part : List Token}
    (preceded : Preceded parts tokens) (isPart : part ∈ parts) : ∀ token ∈ part, token ∈ tokens := by
  induction preceded with
  | nil => cases isPart
  | cons _ _ inductionHypothesis =>
    intro token member
    rcases List.mem_cons.mp isPart with rfl | others
    · exact List.mem_append_left _ (List.mem_cons_of_mem _ member)
    · exact List.mem_append_right _ (inductionHypothesis others token member)

theorem mem_of_separated {parts : List (List Token)} {tokens part : List Token}
    (separated : Separated parts tokens) (isPart : part ∈ parts) :
    ∀ token ∈ part, token ∈ tokens := by
  cases separated with
  | nil => cases isPart
  | cons preceded =>
    intro token member
    rcases List.mem_cons.mp isPart with rfl | others
    · exact List.mem_append_left _ member
    · exact List.mem_append_right _ (mem_of_preceded preceded others token member)

/-- The nodes of the tree of a phrase agree with tokens of the phrase. -/
theorem nodesAgree_of_derives {State : Type} {table : SymbolTable State} {level : Level}
    {tokens : List Token} {tree : Expr} (derived : Derives table level tokens tree) :
    NodesAgree tokens tree := by
  have leaf {token : Token} {tree : Expr} (isLeaf : tree.nodes = [tree]) (agrees : Agrees tree token) :
      NodesAgree [token] tree := by
    unfold NodesAgree
    rw [isLeaf]
    exact List.forall_mem_singleton.mpr ⟨token, List.mem_singleton_self token, agrees⟩
  induction derived with
  | sum isOperator _ _ _ fromLeft fromRight => exact nodesAgree_binary isOperator fromLeft fromRight
  | product isOperator _ _ _ fromLeft fromRight =>
    exact nodesAgree_binary isOperator fromLeft fromRight
  | power isOperator _ _ fromLeft fromRight => exact nodesAgree_binary isOperator fromLeft fromRight
  | ofProduct _ agree | ofPower _ agree | ofSigned _ agree | ofPrimary _ agree => exact agree
  | @signed token _ _ _ isSign _ agree =>
    unfold NodesAgree
    rw [Expr.nodes]
    exact List.forall_mem_cons.mpr ⟨⟨token, List.mem_cons_self .., .unary isSign⟩,
      agree.mono fun _ => List.mem_cons_of_mem _⟩
  | number isNumber => exact leaf rfl (.number isNumber)
  | var isName _ => exact leaf rfl (.var isName)
  | const isName _ _ => exact leaf rfl (.const isName)
  | @call token opening closing inside name _ arguments isName _ _ _ _ _ _ separated _ agree =>
    unfold NodesAgree
    rw [Expr.nodes]
    refine List.forall_mem_cons.mpr
      ⟨⟨token, List.mem_cons_self .., .call isName⟩, fun node member => ?_⟩
    obtain ⟨_, isTree, inTree⟩ := Expr.mem_nodesOfAll.mp member
    obtain ⟨argument, isArgument, rfl⟩ := List.mem_map.mp isTree
    refine (agree argument isArgument).mono (fun token inArgument => ?_) node inTree
    have isPart : argument.1 ∈ arguments.map Prod.fst := List.mem_map_of_mem isArgument
    exact List.mem_append_left _ (List.mem_cons_of_mem _
      (List.mem_cons_of_mem _ (mem_of_separated separated isPart token inArgument)))
  | brackets _ _ _ agree =>
    exact agree.mono fun _ member => List.mem_append_left _ (List.mem_cons_of_mem _ member)

/-! ### Errors and their tokens -/

/-- A message quotes a text. -/
def Quotes (message text : String) : Prop :=
  ∃ before after, message = before ++ ("\"" ++ text ++ "\"") ++ after

/-- An error of evaluation is about a name that its message quotes, and it carries the token of that
name. -/
def EvaluationError.IsAbout (error : EvaluationError) (token : Token) : Prop :=
  error.token = some token ∧ ∃ name, token.lexeme = .name name ∧ Quotes error.cause.message name

theorem quotes_undefined {lead : String} (kind name : String) (opens : lead = kind ++ "\"") :
    Quotes (lead ++ name ++ "\"") name :=
  ⟨kind, "", by rw [opens, String.append_empty, String.append_assoc, String.append_assoc,
    String.append_assoc]⟩

theorem quotes_argumentCount (name : String) (arity : Int) (given : Nat) :
    Quotes (EvaluationCause.argumentCount name arity given).message name := by
  refine ⟨"", " takes " ++ toString arity ++ " argument(s), got " ++ toString given, ?_⟩
  show "\"" ++ name ++ ("\"" ++ " takes ") ++ _ ++ _ ++ _ = _
  simp only [String.append_assoc, String.empty_append]

theorem isAbout_of_faultOf? {State : Type} {table : SymbolTable State} {environment : Environment}
    {node : Expr} {token : Token} {error : EvaluationError} (agrees : Agrees node token)
    (isFault : faultOf? table environment node = some error) : error.IsAbout token := by
  cases agrees with
  | number _ | unary _ | binary _ => cases isFault
  | @var _ name isName =>
    rw [faultOf?] at isFault
    split at isFault
    · cases isFault
    · cases isFault
      exact ⟨rfl, name, isName, quotes_undefined "Undefined variable " name rfl⟩
  | @const _ name isName =>
    rw [faultOf?] at isFault
    split at isFault
    · cases isFault
    · cases isFault
      exact ⟨rfl, name, isName, quotes_undefined "Undefined constant " name rfl⟩
  | @call _ name arguments isName =>
    rw [faultOf?] at isFault
    split at isFault
    · cases isFault
      exact ⟨rfl, name, isName, quotes_undefined "Undefined function " name rfl⟩
    · split at isFault
      · cases isFault
      · cases isFault
        exact ⟨rfl, name, isName, quotes_argumentCount name _ _⟩

/-- The tree of a phrase may be evaluated over any table. An error is about a token of the phrase.
-/
theorem isAbout_of_derives {State Other : Type} {table : SymbolTable State} {level : Level}
    {tokens : List Token} {tree : Expr} (derived : Derives table level tokens tree)
    {other : SymbolTable Other} {environment : Environment} {state after : Other}
    {error : EvaluationError}
    (ran : (evaluate other environment tree).run state = (.error error, after)) :
    ∃ token ∈ tokens, error.IsAbout token := by
  have first := (evaluate_failsWith other environment tree).eq_some ran
  obtain ⟨node, member, isFault⟩ := List.exists_of_findSome?_eq_some first
  obtain ⟨token, inTokens, agrees⟩ := nodesAgree_of_derives derived node member
  exact ⟨token, inTokens, isAbout_of_faultOf? agrees isFault⟩

end DirectionField
