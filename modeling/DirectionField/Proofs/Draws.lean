/-
This file proves that the calls of a function that draws numbers are made once for every time they
are written, from left to right, and that no number is kept for later. A tree is compared with the
tree in which a number stands in place of each such call: the numbers that are drawn in a row from
the present state. The second tree draws nothing and has the same value, and the first one moves the
state on by exactly as many draws as it has calls.

The state of the functions may have other parts, which other functions work on. What is asked of
these is that they leave the part alone that the numbers are drawn from: that they neither read nor
change it. Where the whole state is that part, they have to be pure.

The comparison is kept by putting evaluations in a row. Then the first one takes the front of the
numbers and the second one the rest, as the state in between tells.
-/

import DirectionField.Proofs.Effects
import DirectionField.Proofs.Nodes

namespace DirectionField

/-! ### Draws in a row -/

/-- The numbers of the given number of draws in a row, and the state after the last one. -/
def drawn {Own : Type} (draw : StateM Own Float) : Nat → Own → List Float × Own
  | 0, own => ([], own)
  | more + 1, own =>
    let first := draw.run own
    let others := drawn draw more first.2
    (first.1 :: others.1, others.2)

section

variable {Own : Type} (draw : StateM Own Float)

theorem length_drawn (count : Nat) (own : Own) : (drawn draw count own).1.length = count := by
  induction count generalizing own with
  | zero => rfl
  | succ more inductionHypothesis => rw [drawn, List.length_cons, inductionHypothesis]

/-- Draws in a row may be made in two blocks. -/
theorem drawn_add (count more : Nat) (own : Own) :
    let front := drawn draw count own
    let back := drawn draw more front.2
    drawn draw (count + more) own = (front.1 ++ back.1, back.2) := by
  induction count generalizing own with
  | zero => rw [Nat.zero_add]; rfl
  | succ fewer inductionHypothesis =>
    dsimp only at inductionHypothesis ⊢
    rw [Nat.succ_add, drawn, drawn]
    dsimp only
    rw [inductionHypothesis]
    rfl

theorem take_drawn_add (count more : Nat) (own : Own) :
    (drawn draw (count + more) own).1.take count = (drawn draw count own).1 := by
  rw [drawn_add]
  exact List.take_left' (length_drawn draw count own)

theorem drop_drawn_add (count more : Nat) (own : Own) :
    (drawn draw (count + more) own).1.drop count =
      (drawn draw more (drawn draw count own).2).1 := by
  rw [drawn_add]
  exact List.drop_left' (length_drawn draw count own)

end

/-! ### Parts of a state -/

/-- A part of a state that can be read and replaced. -/
structure Part (State Own : Type) where
  get : State → Own
  set : Own → State → State
  get_set : ∀ own state, get (set own state) = own
  set_get : ∀ state, set (get state) state = state
  set_set : ∀ own other state, set own (set other state) = set own state

namespace Part

variable {State Own Value : Type}

/-- What a computation on a part of the state does to the state. -/
def lift (part : Part State Own) (act : StateM Own Value) : StateM State Value := fun state =>
  let outcome := act.run (part.get state)
  (outcome.1, part.set outcome.2 state)

/-- A computation leaves a part of the state alone if it neither reads nor changes it. -/
def LeavesAlone (part : Part State Own) (act : StateM State Value) : Prop :=
  ∀ own state, act.run (part.set own state) =
    ((act.run state).1, part.set own (act.run state).2)

variable {part : Part State Own}

theorem get_of_leavesAlone {act : StateM State Value} (leaves : part.LeavesAlone act)
    (state : State) : part.get (act.run state).2 = part.get state := by
  have same := leaves (part.get state) state
  rw [part.set_get] at same
  rw [same, part.get_set]

/-- Pure functions leave all parts of the state alone. -/
theorem leavesAlone_of_isPure {function : Function State} (isPure : function.IsPure)
    (values : List Float) : part.LeavesAlone (function.apply values) := by
  obtain ⟨compute, computes⟩ := isPure
  rw [computes]
  exact fun own state => rfl

end Part

/-- The function of a name takes no arguments and draws its values from a part of the state, and the
other functions leave that part alone. -/
structure SymbolTable.DrawsFrom {State Own : Type} (table : SymbolTable State) (name : String)
    (part : Part State Own) (draw : StateM Own Float) : Prop where
  drawing : ∃ function, table.function? name = some function ∧ function.arity = 0 ∧
    function.apply [] = part.lift draw
  others : ∀ other function, other ≠ name → table.function? other = some function →
    ∀ values, part.LeavesAlone (function.apply values)

/-- The standard table may draw random numbers from any part of the state, for its other functions
do nothing with the state. -/
theorem standardTable_drawsFrom {State Own : Type} (part : Part State Own)
    (random : StateM Own Float) :
    (standardTable (part.lift random)).DrawsFrom "random" part random where
  drawing := ⟨.drawing (part.lift random), rfl, rfl, rfl⟩
  others _ _ different isFunction :=
    Part.leavesAlone_of_isPure (isPure_of_standard different isFunction)

/-- A table draws as before if a function is entered that leaves the part of the state alone. -/
theorem SymbolTable.DrawsFrom.enter {State Own : Type} {table : SymbolTable State} {name : String}
    {part : Part State Own} {draw : StateM Own Float} (draws : table.DrawsFrom name part draw)
    {entered : String} {function : Function State} (different : entered ≠ name)
    (leaves : ∀ values, part.LeavesAlone (function.apply values)) :
    SymbolTable.DrawsFrom
      { table with functions := DirectionField.enter table.functions entered function } name part draw
    where
  drawing := by
    obtain ⟨drawing, isFunction, isNullary, draws⟩ := draws.drawing
    exact ⟨drawing, (lookup_enter_other _ _ different.symm).trans isFunction, isNullary, draws⟩
  others other found notName isFunction := by
    by_cases same : other = entered
    · subst same
      cases (lookup_enter_self table.functions other function).symm.trans isFunction
      exact leaves
    · exact draws.others other found notName
        ((lookup_enter_other _ _ same).symm.trans isFunction)

/-! ### Numbers in place of calls -/

namespace Expr

/-- Whether a node is a call of the function of a name. -/
def isCallOf (name : String) : Expr → Bool
  | call function _ _ => function == name
  | _ => false

/-- The number of calls of a function in a tree. -/
def callCount (tree : Expr) (name : String) : Nat :=
  tree.nodes.countP (isCallOf name)

/-- The number of calls of a function in trees. -/
def callCountOfAll (trees : List Expr) (name : String) : Nat :=
  (nodesOfAll trees).countP (isCallOf name)

mutual

/-- A tree with numbers in place of the calls of a function, from left to right. -/
def filled (tree : Expr) (name : String) (values : List Float) : Expr :=
  match tree with
  | unary sign operand token => unary sign (operand.filled name values) token
  | binary operator left right token =>
    binary operator (left.filled name (values.take (left.callCount name)))
      (right.filled name (values.drop (left.callCount name))) token
  | call function arguments token =>
    if function = name then
      match values with
      | value :: _ => number value
      | [] => call function arguments token
    else
      call function (filledAll arguments name values) token
  | number value token => number value token
  | var found token => var found token
  | const found token => const found token
  | bare => bare

/-- Trees with numbers in place of the calls of a function, from left to right. -/
def filledAll (trees : List Expr) (name : String) (values : List Float) : List Expr :=
  match trees with
  | [] => []
  | first :: rest =>
    first.filled name (values.take (first.callCount name)) ::
      filledAll rest name (values.drop (first.callCount name))

end

variable {name : String}

theorem length_filledAll (trees : List Expr) (values : List Float) :
    (filledAll trees name values).length = trees.length := by
  induction trees generalizing values with
  | nil => rfl
  | cons first rest inductionHypothesis =>
    rw [filledAll, List.length_cons, inductionHypothesis, List.length_cons]

theorem callCount_unary (sign : Sign) (operand : Expr) (token : Option Token) :
    (unary sign operand token).callCount name = operand.callCount name := by
  rw [callCount, nodes, List.countP_cons_of_neg (by exact Bool.false_ne_true)]
  rfl

theorem callCount_binary (operator : Operator) (left right : Expr) (token : Option Token) :
    (binary operator left right token).callCount name =
      left.callCount name + right.callCount name := by
  rw [callCount, nodes, List.countP_cons_of_neg (by exact Bool.false_ne_true), List.countP_append]
  rfl

theorem callCount_call_self (token : Option Token) : (call name [] token).callCount name = 1 := by
  rw [callCount, nodes, List.countP_cons_of_pos (by exact beq_self_eq_true name)]
  rfl

theorem callCount_call_other {function : String} (other : function ≠ name) (arguments : List Expr)
    (token : Option Token) :
    (call function arguments token).callCount name = callCountOfAll arguments name := by
  rw [callCount, nodes, List.countP_cons_of_neg (by exact fun same => other (beq_iff_eq.mp same))]
  rfl

theorem callCountOfAll_cons (first : Expr) (rest : List Expr) :
    callCountOfAll (first :: rest) name = first.callCount name + callCountOfAll rest name := by
  rw [callCountOfAll, nodesOfAll, List.countP_append]
  rfl

end Expr

/-! ### Evaluations that draw in order -/

/-- Whenever an evaluation has a value, it has made the given number of draws in a row. Another
evaluation, which is given the numbers, has the same value, and does to the rest of the state what
the first one does, but leaves the part alone that the numbers are drawn from. -/
def DrawsInOrder {State Own Value : Type} (part : Part State Own) (draw : StateM Own Float)
    (count : Nat) (drawing : Evaluation State Value)
    (given : List Float → Evaluation State Value) : Prop :=
  ∀ state value after, drawing.run state = (.ok value, after) →
    let block := drawn draw count (part.get state)
    part.get after = block.2 ∧
      ∀ own, (given block.1).run (part.set own state) = (.ok value, part.set own after)

section

variable {State Own Value Result : Type} {part : Part State Own} {draw : StateM Own Float}

namespace DrawsInOrder

/-- An evaluation that leaves the part alone draws nothing. -/
theorem of_leavesAlone {evaluation : Evaluation State Value}
    (leaves : part.LeavesAlone evaluation.run) :
    DrawsInOrder part draw 0 evaluation fun _ => evaluation := by
  intro state value after ran
  have same := Part.get_of_leavesAlone leaves state
  rw [show StateT.run evaluation.run state = _ from ran] at same
  refine ⟨same, fun own => ?_⟩
  have replaced := leaves own state
  rw [show StateT.run evaluation.run state = _ from ran] at replaced
  exact replaced

theorem of_error {count : Nat} {drawing : Evaluation State Value}
    {given : List Float → Evaluation State Value}
    (fails : ∀ state, ∃ error after, drawing.run state = (.error error, after)) :
    DrawsInOrder part draw count drawing given := by
  intro state value after ran
  obtain ⟨error, last, failed⟩ := fails state
  cases failed.symm.trans ran

/-- The second evaluation draws from where the first one has left off. -/
theorem bind {count more : Nat} {first : Evaluation State Value}
    {firstGiven : List Float → Evaluation State Value} {next : Value → Evaluation State Result}
    {nextGiven : Value → List Float → Evaluation State Result}
    (firstDraws : DrawsInOrder part draw count first firstGiven)
    (nextDraws : ∀ value, DrawsInOrder part draw more (next value) (nextGiven value)) :
    DrawsInOrder part draw (count + more) (first >>= next) fun values =>
      firstGiven (values.take count) >>= fun value => nextGiven value (values.drop count) := by
  intro state result after ran
  obtain ⟨value, between, firstRan, nextRan⟩ := run_bind_eq_ok_iff.mp ran
  obtain ⟨reached, firstSame⟩ := firstDraws state value between firstRan
  obtain ⟨left, nextSame⟩ := nextDraws value between result after nextRan
  rw [reached] at left nextSame
  dsimp only
  rw [take_drawn_add, drop_drawn_add, drawn_add]
  exact ⟨left, fun own => (run_bind_of_ok (firstSame own)).trans (nextSame own)⟩

/-- What draws nothing may be done at the end. -/
theorem bind_quiet {count : Nat} {first : Evaluation State Value}
    {given : List Float → Evaluation State Value} {next : Value → Evaluation State Result}
    (draws : DrawsInOrder part draw count first given)
    (leaves : ∀ value, part.LeavesAlone (next value).run) :
    DrawsInOrder part draw count (first >>= next) fun values => given values >>= next := by
  intro state result after ran
  have whole := draws.bind fun value => of_leavesAlone (leaves value)
  obtain ⟨reached, same⟩ := whole state result after ran
  dsimp only at same
  rw [take_drawn_add] at same
  exact ⟨reached, same⟩

end DrawsInOrder

theorem leavesAlone_found (value : Option Float) (cause : EvaluationCause) (token : Option Token) :
    part.LeavesAlone (found value cause token : Evaluation State Float).run := by
  cases value with
  | none => exact fun own state => rfl
  | some value => exact fun own state => rfl

/-- A call does to the state what its function does. -/
theorem leavesAlone_apply {act : StateM State Float} (leaves : part.LeavesAlone act) :
    part.LeavesAlone (liftM act : Evaluation State Float).run := by
  intro own state
  have replaced := leaves own state
  show (Except.ok (act.run (part.set own state)).1, (act.run (part.set own state)).2) = _
  rw [replaced]
  rfl

variable {table : SymbolTable State} {name : String} {environment : Environment}

/-- The call of the function that draws is one draw. -/
theorem call_drawsInOrder (draws : table.DrawsFrom name part draw) (arguments : List Expr)
    (token : Option Token) :
    DrawsInOrder part draw ((Expr.call name arguments token).callCount name)
      (evaluate table environment (.call name arguments token)) fun values =>
        evaluate table environment ((Expr.call name arguments token).filled name values) := by
  obtain ⟨function, isFunction, nullary, apply⟩ := draws.drawing
  rw [evaluate, isFunction]
  dsimp only
  cases arguments with
  | cons first rest =>
    have wrong : ((first :: rest).length : Int) ≠ function.arity := by
      rw [nullary, List.length_cons]
      omega
    rw [if_neg wrong]
    exact .of_error fun state => ⟨_, state, rfl⟩
  | nil =>
    rw [if_pos (show (([] : List Expr).length : Int) = function.arity from nullary.symm),
      evaluateAll, pure_bind, apply, Expr.callCount_call_self]
    intro state value after ran
    cases ran
    refine ⟨part.get_set _ _, fun own => ?_⟩
    dsimp only [drawn]
    rw [Expr.filled, if_pos rfl, part.set_set]
    rfl

mutual

/-- The evaluation of a tree makes its calls from left to right. -/
theorem evaluate_drawsInOrder (draws : table.DrawsFrom name part draw) (tree : Expr) :
    DrawsInOrder part draw (tree.callCount name) (evaluate table environment tree) fun values =>
      evaluate table environment (tree.filled name values) := by
  cases tree with
  | number value token => exact .of_leavesAlone fun own state => rfl
  | var found token =>
    simp only [Expr.filled, evaluate]
    exact .of_leavesAlone (leavesAlone_found _ _ _)
  | const found token =>
    simp only [Expr.filled, evaluate]
    exact .of_leavesAlone (leavesAlone_found _ _ _)
  | unary sign operand token =>
    simp only [Expr.filled, evaluate, Expr.callCount_unary]
    exact (evaluate_drawsInOrder draws operand).bind_quiet fun _ own state => rfl
  | binary operator left right token =>
    simp only [Expr.filled, evaluate, Expr.callCount_binary]
    exact (evaluate_drawsInOrder draws left).bind fun _ =>
      (evaluate_drawsInOrder draws right).bind_quiet fun _ own state => rfl
  | call called arguments token =>
    by_cases same : called = name
    · rw [same]
      exact call_drawsInOrder draws arguments token
    · simp only [Expr.filled, if_neg same, evaluate, Expr.callCount_call_other same,
        Expr.length_filledAll]
      cases isFunction : table.function? called with
      | none => exact .of_error fun state => ⟨_, state, rfl⟩
      | some function =>
        dsimp only
        split
        · exact (evaluateAll_drawsInOrder draws arguments).bind_quiet fun values =>
            leavesAlone_apply (draws.others called function same isFunction values)
        · exact .of_error fun state => ⟨_, state, rfl⟩
  | bare => exact .of_error fun state => ⟨_, state, rfl⟩

/-- The evaluation of trees makes their calls from left to right. -/
theorem evaluateAll_drawsInOrder (draws : table.DrawsFrom name part draw) (trees : List Expr) :
    DrawsInOrder part draw (Expr.callCountOfAll trees name) (evaluateAll table environment trees)
      fun values => evaluateAll table environment (Expr.filledAll trees name values) := by
  cases trees with
  | nil => exact .of_leavesAlone fun own state => rfl
  | cons first rest =>
    simp only [Expr.filledAll, evaluateAll, Expr.callCountOfAll_cons]
    exact (evaluate_drawsInOrder draws first).bind fun _ =>
      (evaluateAll_drawsInOrder draws rest).bind_quiet fun _ own state => rfl

end

/-! ### Evaluating twice -/

/-- If a tree has a value, its evaluation draws one number for every call of the function that
draws, in a row from the present state. It gives what the tree with these numbers in place of the
calls gives, whose evaluation neither depends on the state that the numbers are drawn from nor
changes it. A second evaluation has a value too, and its numbers are those that come next. -/
theorem drawn_in_order (draws : table.DrawsFrom name part draw) (environment : Environment)
    (tree : Expr) {state after : State} {value : Float}
    (ran : (evaluate table environment tree).run state = (.ok value, after)) :
    let count := tree.callCount name
    let block := drawn draw count (part.get state)
    part.get after = block.2 ∧
      (∀ own, (evaluate table environment (tree.filled name block.1)).run (part.set own state) =
        (.ok value, part.set own after)) ∧
      ∃ again last, (evaluate table environment tree).run after = (.ok again, last) ∧
        let both := drawn draw (count + count) (part.get state)
        part.get last = both.2 ∧ block.1 = both.1.take count ∧
          ∀ own, (evaluate table environment (tree.filled name (both.1.drop count))).run
              (part.set own after) = (.ok again, part.set own last) := by
  intro count block
  obtain ⟨reached, same⟩ := evaluate_drawsInOrder draws tree state value after ran
  have fails := evaluate_failsWith table environment tree
  rw [fails.eq_none ran] at fails
  obtain ⟨again, last, ranAgain⟩ := fails after
  obtain ⟨left, sameAgain⟩ := evaluate_drawsInOrder draws tree after again last ranAgain
  rw [reached] at left sameAgain
  refine ⟨reached, same, again, last, ranAgain, ?_⟩
  intro both
  refine ⟨?_, (take_drawn_add draw count count (part.get state)).symm, ?_⟩
  · show _ = (drawn draw (count + count) (part.get state)).2
    rw [drawn_add]
    exact left
  · show ∀ own, (evaluate table environment (tree.filled name
      ((drawn draw (count + count) (part.get state)).1.drop count))).run _ = _
    rw [drop_drawn_add]
    exact sameAgain

end

/-- Random numbers from a counter, beside a function that counts its own calls, in
`scaled(random()) * 0 - max(random(), 2) / random()`. -/
theorem drawn_in_order_counter :
    let part : Part (Nat × Nat) Nat :=
      ⟨Prod.fst, fun own state => (own, state.2), fun _ _ => rfl, fun _ => rfl, fun _ _ _ => rfl⟩
    let draw : StateM Nat Float := fun count => (Float.ofNat (count + 1), count + 1)
    let scaled (values : List Float) : StateM (Nat × Nat) Float := fun state =>
      (values.headD 0.0 * Float.ofNat (state.2 + 1), (state.1, state.2 + 1))
    let standard : SymbolTable (Nat × Nat) := standardTable (part.lift draw)
    let table : SymbolTable (Nat × Nat) :=
      { standard with functions := enter standard.functions "scaled" ⟨1, scaled⟩ }
    let random : Expr := .call "random" []
    let tree : Expr := .binary .subtract
      (.binary .multiply (.call "scaled" [random]) (.number 0.0))
      (.binary .divide (.call "max" [random, .number 2.0]) random)
    let value : Float :=
      Float.ofNat 1 * Float.ofNat 1 * 0.0 - greater (Float.ofNat 2) 2.0 / Float.ofNat 3
    let environment : Environment := fun _ => none
    table.DrawsFrom "random" part draw ∧
      (evaluate table environment tree).run (0, 0) = (.ok value, (3, 1)) ∧
      tree.callCount "random" = 3 ∧
      (∀ own, (evaluate table environment
          (tree.filled "random" [Float.ofNat 1, Float.ofNat 2, Float.ofNat 3])).run (own, 0) =
        (.ok value, (own, 1))) ∧
      ∃ again last, (evaluate table environment tree).run (3, 1) = (.ok again, last) ∧
        last.1 = 6 ∧
          ∀ own, (evaluate table environment
              (tree.filled "random" [Float.ofNat 4, Float.ofNat 5, Float.ofNat 6])).run (own, 1) =
            (.ok again, (own, last.2)) := by
  intro part draw scaled standard table random tree value environment
  have draws : table.DrawsFrom "random" part draw :=
    (standardTable_drawsFrom part draw).enter (by decide) fun values own state => rfl
  have ran : (evaluate table environment tree).run (0, 0) = (.ok value, (3, 1)) := rfl
  obtain ⟨-, same, again, last, ranAgain, left, -, sameAgain⟩ :=
    drawn_in_order draws environment tree ran
  exact ⟨draws, ran, rfl, same, again, last, ranAgain, left, sameAgain⟩

end DirectionField
