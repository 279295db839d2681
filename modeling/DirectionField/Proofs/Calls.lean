/-
This file says how far the evaluation of a tree gets before it fails. A call is checked before its
arguments are evaluated and made after them, and an operator looks at both operands first, so that
the nodes are neither visited in the order in which they stand nor backwards. But the calls of
functions without arguments are made in that order, for such a call has nothing below it.

To tell which calls are made, every function without arguments enters its name in a log. The log is
kept beside the state of the functions and changes nothing else. It holds one entry for every call
before the first node at fault, and no other one.
-/

import DirectionField.Proofs.Nodes

namespace DirectionField

/-! ### Tables that keep a log -/

section

variable {State : Type}

/-- A function that enters its name in a log at every call, if it takes no arguments. -/
def Function.logged (function : Function State) (name : String) :
    Function (State × List String) where
  arity := function.arity
  apply arguments := fun (state, calls) =>
    let (value, after) := (function.apply arguments).run state
    (value, (after, if function.arity = 0 then calls ++ [name] else calls))

/-- The table whose functions without arguments enter their calls in a log. -/
def SymbolTable.logged (table : SymbolTable State) : SymbolTable (State × List String) where
  variableNames := table.variableNames
  constants := table.constants
  functions := table.functions.map fun entry => (entry.1, entry.2.logged entry.1)

theorem SymbolTable.function?_logged (table : SymbolTable State) (name : String) :
    table.logged.function? name = (table.function? name).map (·.logged name) := by
  unfold function? logged
  induction table.functions with
  | nil => rfl
  | cons entry rest inductionHypothesis =>
    rw [List.map_cons, List.lookup_cons, List.lookup_cons, inductionHypothesis]
    cases same : name == entry.1 with
    | false => rfl
    | true =>
      rw [beq_iff_eq.mp same]
      rfl

/-! ### Calls before the first fault -/

variable (table : SymbolTable State) (environment : Environment)

/-- The function without arguments that a node calls. -/
def argumentlessCall? : Expr → Option String
  | .call name arguments _ =>
    match table.function? name with
    | some function => if function.arity = 0 ∧ arguments = [] then some name else none
    | none => none
  | _ => none

/-- The functions without arguments that are called by the nodes before the first one at fault. -/
def callsBeforeFault (nodes : List Expr) : List String :=
  (nodes.takeWhile fun node => (faultOf? table environment node).isNone).filterMap
    (argumentlessCall? table)

end

section

variable {State : Type} {table : SymbolTable State} {environment : Environment}

theorem callsBeforeFault_append {left : List Expr}
    (faultless : ∀ node ∈ left, faultOf? table environment node = none) (right : List Expr) :
    callsBeforeFault table environment (left ++ right) =
      left.filterMap (argumentlessCall? table) ++ callsBeforeFault table environment right := by
  have allNone : ∀ node ∈ left, (faultOf? table environment node).isNone = true := by
    intro node member
    rw [faultless node member]
    rfl
  rw [callsBeforeFault, List.takeWhile_append_of_pos allNone, List.filterMap_append]
  rfl

theorem callsBeforeFault_of_faultless {nodes : List Expr}
    (faultless : ∀ node ∈ nodes, faultOf? table environment node = none) :
    callsBeforeFault table environment nodes = nodes.filterMap (argumentlessCall? table) := by
  have appended := callsBeforeFault_append faultless []
  rw [List.append_nil] at appended
  rw [appended]
  exact List.append_nil _

theorem callsBeforeFault_of_fault {node : Expr} {error : EvaluationError}
    (isFault : faultOf? table environment node = some error) (after : List Expr) :
    callsBeforeFault table environment (node :: after) = [] := by
  rw [callsBeforeFault, List.takeWhile_cons, isFault]
  rfl

/-- Nothing after a node at fault is called. -/
theorem callsBeforeFault_of_first {before : List Expr} {node : Expr} {error : EvaluationError}
    (faultless : ∀ earlier ∈ before, faultOf? table environment earlier = none)
    (isFault : faultOf? table environment node = some error) (after : List Expr) :
    callsBeforeFault table environment (before ++ node :: after) =
      before.filterMap (argumentlessCall? table) := by
  rw [callsBeforeFault_append faultless, callsBeforeFault_of_fault isFault, List.append_nil]

theorem callsBeforeFault_cons {node : Expr} (faultless : faultOf? table environment node = none)
    (quiet : argumentlessCall? table node = none) (nodes : List Expr) :
    callsBeforeFault table environment (node :: nodes) = callsBeforeFault table environment nodes := by
  have appended := callsBeforeFault_append (List.forall_mem_singleton.mpr faultless) nodes
  rw [List.filterMap_cons_none quiet] at appended
  exact appended

/-! ### Evaluations that keep a log -/

/-- An evaluation does what another one does, and enters in the log what some nodes call before the
first fault among them. -/
def Logs {Value : Type} (table : SymbolTable State) (environment : Environment) (nodes : List Expr)
    (plain : Evaluation State Value) (logging : Evaluation (State × List String) Value) : Prop :=
  ∀ state calls, logging.run (state, calls) =
    ((plain.run state).1, ((plain.run state).2, calls ++ callsBeforeFault table environment nodes))

namespace Logs

variable {Value Result : Type} {nodes left right : List Expr} {first : Evaluation State Value}
  {firstLogging : Evaluation (State × List String) Value} {next : Value → Evaluation State Result}
  {nextLogging : Value → Evaluation (State × List String) Result}

/-- An evaluation that calls nothing leaves the log as it is. -/
theorem of_quiet {plain : Evaluation State Value} {logging : Evaluation (State × List String) Value}
    (quiet : callsBeforeFault table environment nodes = [])
    (same : ∀ state calls,
      logging.run (state, calls) = ((plain.run state).1, ((plain.run state).2, calls))) :
    Logs table environment nodes plain logging := by
  intro state calls
  rw [quiet, List.append_nil]
  exact same state calls

theorem cons {node : Expr} (faultless : faultOf? table environment node = none)
    (quiet : argumentlessCall? table node = none)
    (firstLogs : Logs table environment nodes first firstLogging) :
    Logs table environment (node :: nodes) first firstLogging := by
  unfold Logs
  rw [callsBeforeFault_cons faultless quiet]
  exact firstLogs

/-- If the first of two evaluations fails, there is a fault among its nodes, and the calls of the
second one are not made. If it does not, there is none, and both make their calls. -/
theorem bind (fails : FailsWith first (left.findSome? (faultOf? table environment)))
    (firstLogs : Logs table environment left first firstLogging)
    (nextLogs : ∀ value, Logs table environment right (next value) (nextLogging value)) :
    Logs table environment (left ++ right) (first >>= next) (firstLogging >>= nextLogging) := by
  intro state calls
  have logged := firstLogs state calls
  cases ran : first.run state with
  | mk outcome between =>
    rw [ran] at logged
    cases outcome with
    | error error =>
      obtain ⟨before, node, after, rfl, isFault, faultless⟩ :=
        List.findSome?_eq_some_iff.mp (fails.eq_some ran)
      rw [run_bind_of_error logged, run_bind_of_error ran, List.append_assoc, List.cons_append,
        callsBeforeFault_of_first faultless isFault, callsBeforeFault_of_first faultless isFault]
    | ok value =>
      have faultless := List.findSome?_eq_none_iff.mp (fails.eq_none ran)
      rw [run_bind_of_ok logged, run_bind_of_ok ran, callsBeforeFault_append faultless,
        callsBeforeFault_of_faultless faultless, ← List.append_assoc]
      exact nextLogs value between _

/-- Something that calls nothing and cannot fail may be computed at the end. -/
theorem bind_pure {compute : Value → Result}
    (fails : FailsWith first (nodes.findSome? (faultOf? table environment)))
    (firstLogs : Logs table environment nodes first firstLogging) :
    Logs table environment nodes (first >>= fun value => pure (compute value))
      (firstLogging >>= fun value => pure (compute value)) := by
  rw [← List.append_nil nodes]
  exact bind fails firstLogs fun value => of_quiet rfl fun state calls => rfl

end Logs

theorem callsBeforeFault_leaf {node : Expr} (quiet : argumentlessCall? table node = none) :
    callsBeforeFault table environment [node] = [] := by
  cases isFault : faultOf? table environment node with
  | none => exact callsBeforeFault_cons isFault quiet []
  | some error => exact callsBeforeFault_of_fault isFault []

theorem run_logged (function : Function State) (name : String) (values : List Float) (state : State)
    (calls : List String) :
    (liftM ((function.logged name).apply values) : Evaluation (State × List String) Float).run
        (state, calls) =
      let called := (liftM (function.apply values) : Evaluation State Float).run state
      (called.1, (called.2, if function.arity = 0 then calls ++ [name] else calls)) := rfl

theorem faultOf?_call_of_count {name : String} {arguments : List Expr} {token : Option Token}
    {function : Function State} (isFunction : table.function? name = some function)
    (count : (arguments.length : Int) = function.arity) :
    faultOf? table environment (.call name arguments token) = none := by
  rw [faultOf?, isFunction]
  exact if_pos count

/-- A call without arguments enters the name of its function. -/
theorem logs_argumentless {name : String} {token : Option Token} {function : Function State}
    (isFunction : table.function? name = some function) (nullary : function.arity = 0) :
    Logs table environment [.call name [] token]
      (evaluateAll table environment [] >>= fun values => function.apply values)
      (evaluateAll table.logged environment [] >>= fun values =>
        (function.logged name).apply values) := by
  have called : argumentlessCall? table (.call name [] token) = some name := by
    rw [argumentlessCall?, isFunction]
    exact if_pos ⟨nullary, rfl⟩
  have faultless : faultOf? table environment (.call name [] token) = none :=
    faultOf?_call_of_count isFunction nullary.symm
  intro state calls
  rw [callsBeforeFault_of_faultless (List.forall_mem_singleton.mpr faultless),
    List.filterMap_cons_some called, evaluateAll, evaluateAll, pure_bind, pure_bind, run_logged,
    if_pos nullary]
  rfl

/-- A call with arguments enters nothing but what these call. -/
theorem logs_call {name : String} {first : Expr} {rest : List Expr} {token : Option Token}
    {function : Function State} (isFunction : table.function? name = some function)
    (count : ((first :: rest).length : Int) = function.arity)
    (logs : Logs table environment (Expr.nodesOfAll (first :: rest))
      (evaluateAll table environment (first :: rest))
      (evaluateAll table.logged environment (first :: rest)))
    (fails : FailsWith (evaluateAll table environment (first :: rest))
      ((Expr.nodesOfAll (first :: rest)).findSome? (faultOf? table environment))) :
    Logs table environment (.call name (first :: rest) token :: Expr.nodesOfAll (first :: rest))
      (evaluateAll table environment (first :: rest) >>= fun values => function.apply values)
      (evaluateAll table.logged environment (first :: rest) >>= fun values =>
        (function.logged name).apply values) := by
  have quiet : argumentlessCall? table (.call name (first :: rest) token) = none := by
    rw [argumentlessCall?, isFunction]
    exact if_neg fun nullary => List.cons_ne_nil first rest nullary.2
  have notNullary : function.arity ≠ 0 := by
    rw [← count, List.length_cons]
    omega
  refine .cons (faultOf?_call_of_count isFunction count) quiet ?_
  rw [← List.append_nil (Expr.nodesOfAll (first :: rest))]
  refine logs.bind fails fun values => .of_quiet rfl fun state calls => ?_
  rw [run_logged, if_neg notNullary]

mutual

/-- The evaluation of a tree over a table that keeps a log. -/
theorem evaluate_logs (tree : Expr) :
    Logs table environment tree.nodes (evaluate table environment tree)
      (evaluate table.logged environment tree) := by
  cases tree with
  | number value token => exact .of_quiet rfl fun state calls => rfl
  | var name token =>
    refine .of_quiet (callsBeforeFault_leaf rfl) fun state calls => ?_
    rw [evaluate, evaluate]
    cases environment name with
    | none => rfl
    | some value => rfl
  | const name token =>
    refine .of_quiet (callsBeforeFault_leaf rfl) fun state calls => ?_
    show (found (table.constant? name) _ _).run (state, calls) = _
    rw [evaluate]
    cases table.constant? name with
    | none => rfl
    | some value => rfl
  | unary sign operand token =>
    rw [evaluate, evaluate, Expr.nodes]
    exact .cons rfl rfl
      ((evaluate_logs operand).bind_pure (evaluate_failsWith table environment operand))
  | binary operator left right token =>
    rw [evaluate, evaluate, Expr.nodes]
    exact .cons rfl rfl ((evaluate_logs left).bind (evaluate_failsWith table environment left) fun _ =>
      (evaluate_logs right).bind_pure (evaluate_failsWith table environment right))
  | call name arguments token =>
    rw [evaluate, evaluate, Expr.nodes, SymbolTable.function?_logged]
    cases isFunction : table.function? name with
    | none =>
      have isFault : faultOf? table environment (.call name arguments token) =
          some ⟨.undefinedFunction name, token⟩ := by
        rw [faultOf?, isFunction]
      exact .of_quiet (callsBeforeFault_of_fault isFault _) fun state calls => rfl
    | some function =>
      dsimp only [Option.map]
      by_cases count : (arguments.length : Int) = function.arity
      · have countLogged : (arguments.length : Int) = (function.logged name).arity := count
        rw [if_pos count, if_pos countLogged]
        cases arguments with
        | nil => exact logs_argumentless isFunction count.symm
        | cons first rest =>
          exact logs_call isFunction count (evaluateAll_logs (first :: rest))
            (evaluateAll_failsWith table environment (first :: rest))
      · have isFault : faultOf? table environment (.call name arguments token) =
            some ⟨.argumentCount name function.arity arguments.length, token⟩ := by
          rw [faultOf?, isFunction]
          exact if_neg count
        have countLogged : (arguments.length : Int) ≠ (function.logged name).arity := count
        rw [if_neg count, if_neg countLogged]
        exact .of_quiet (callsBeforeFault_of_fault isFault _) fun state calls => rfl
  | bare => exact .of_quiet (callsBeforeFault_leaf rfl) fun state calls => rfl

/-- The evaluation of trees over a table that keeps a log. -/
theorem evaluateAll_logs (trees : List Expr) :
    Logs table environment (Expr.nodesOfAll trees) (evaluateAll table environment trees)
      (evaluateAll table.logged environment trees) := by
  cases trees with
  | nil => exact .of_quiet rfl fun state calls => rfl
  | cons first rest =>
    rw [evaluateAll, evaluateAll, Expr.nodesOfAll]
    exact (evaluate_logs first).bind (evaluate_failsWith table environment first) fun _ =>
      (evaluateAll_logs rest).bind_pure (evaluateAll_failsWith table environment rest)

end

/-- The evaluation of a tree fails exactly if some node is at fault, and with the error of the first
such node. The functions without arguments have then been called once for each of their calls before
that node, in the order of these, and not for any other. -/
theorem evaluate_until_fault (table : SymbolTable State) (environment : Environment) (tree : Expr)
    (state : State) :
    let outcome := (evaluate table environment tree).run state
    let fault := faultOf? table environment
    ((∃ error, outcome.1 = .error error) ↔ ∃ node ∈ tree.nodes, fault node ≠ none) ∧
      ∀ error, outcome.1 = .error error → ∃ before node after,
        tree.nodes = before ++ node :: after ∧ (∀ earlier ∈ before, fault earlier = none) ∧
          fault node = some error ∧
          ∀ calls, (evaluate table.logged environment tree).run (state, calls) =
            (.error error, (outcome.2, calls ++ before.filterMap (argumentlessCall? table))) := by
  intro outcome fault
  have fails := evaluate_failsWith table environment tree
  have first {error : EvaluationError} (failed : outcome.1 = .error error) :
      tree.nodes.findSome? fault = some error :=
    fails.eq_some (Prod.ext failed rfl : outcome = (.error error, outcome.2))
  refine ⟨⟨fun ⟨error, failed⟩ => ?_, fun ⟨node, member, isFault⟩ => ?_⟩, fun error failed => ?_⟩
  · obtain ⟨node, member, isFault⟩ := List.exists_of_findSome?_eq_some (first failed)
    exact ⟨node, member, by rw [isFault]; exact nofun⟩
  · cases isOutcome : outcome.1 with
    | error error => exact ⟨error, rfl⟩
    | ok value =>
      have none := fails.eq_none (Prod.ext isOutcome rfl : outcome = (.ok value, outcome.2))
      exact absurd (List.findSome?_eq_none_iff.mp none node member) isFault
  · obtain ⟨before, node, after, split, isFault, faultless⟩ :=
      List.findSome?_eq_some_iff.mp (first failed)
    refine ⟨before, node, after, split, faultless, isFault, fun calls => ?_⟩
    have logs : Logs table environment tree.nodes _ _ := evaluate_logs tree
    have logged := logs state calls
    rw [split, callsBeforeFault_of_first faultless isFault] at logged
    exact logged.trans (Prod.ext failed rfl)

/-- Of the two calls the one before the unbound name is made. -/
example :
    let table : SymbolTable Unit := ⟨[], [], [("next", .drawing (pure 0.5))]⟩
    let tree : Expr :=
      .binary .multiply (.call "next" []) (.binary .add (.var "z") (.call "next" []))
    ((evaluate table.logged (fun _ => none) tree).run ((), [])).2.2 = ["next"] := by
  decide +kernel

end

end DirectionField
