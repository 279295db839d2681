/-
This file says how the sampling and the drawing of a field end. What makes an expression fail is
never the value of a variable but only whether it is bound, and every grid point binds the same two.
So the first grid point decides for all of them, and what keeps a field from being drawn can be told
beforehand.

A component that has been read over a table has a value at every point if the table has no variables
but the coordinates.
-/

import DirectionField.Proofs.Nodes
import DirectionField.Proofs.Steps

namespace DirectionField

/-! ### How actions end -/

/-- What is printed when an action fails: the report of a fault, and nothing about any other
failure. -/
def Failure.announcement : Failure → String
  | .fault cause => cause.diagnostic.report ++ "\n"
  | _ => ""

/-- An action ends in the given failure, from every console, or has a result if there is none. It
prints nothing but the announcement of the failure, and what has been printed before does not matter
to it. -/
def Ends {State Result : Type} (action : Action State Result) : Option Failure → Prop
  | none => ∀ state, ∃ result after, ∀ printed,
      action.run ⟨state, printed⟩ = (.ok result, ⟨after, printed⟩)
  | some failure => ∀ state, ∃ after, ∀ printed,
      action.run ⟨state, printed⟩ = (.error failure, ⟨after, printed ++ failure.announcement⟩)

namespace Ends

variable {State Value Result : Type} {first : Action State Value} {next : Value → Action State Result}
  {failure? : Option Failure}

theorem ne_error (ends : Ends first none) {console after : Console State} {failure : Failure} :
    first.run console ≠ (.error failure, after) := by
  intro failed
  obtain ⟨result, final, ran⟩ := ends console.state
  cases (ran console.printed).symm.trans failed

/-- How an action has ended tells how it ends. -/
theorem eq_some (ends : Ends first failure?) {console after : Console State} {failure : Failure}
    (ran : first.run console = (.error failure, after)) : failure? = some failure := by
  cases failure? with
  | none => exact absurd ran ends.ne_error
  | some other =>
    obtain ⟨final, failed⟩ := ends console.state
    cases (failed console.printed).symm.trans ran
    rfl

theorem pure (result : Result) : Ends (Pure.pure result : Action State Result) none :=
  fun state => ⟨result, state, fun _ => rfl⟩

theorem throw (failure : Failure) (quiet : failure.announcement = "") :
    Ends (throw failure : Action State Result) (some failure) := by
  refine fun state => ⟨state, fun printed => ?_⟩
  rw [quiet, String.append_empty]
  rfl

theorem bind_failed {failure : Failure} (ends : Ends first (some failure)) :
    Ends (first >>= next) (some failure) := by
  intro state
  obtain ⟨after, ran⟩ := ends state
  exact ⟨after, fun printed => run_bind_of_error (ran printed)⟩

theorem bind_done (ends : Ends first none) (nextEnds : ∀ value, Ends (next value) failure?) :
    Ends (first >>= next) failure? := by
  cases failure? with
  | none =>
    intro state
    obtain ⟨value, between, ran⟩ := ends state
    obtain ⟨result, after, ranNext⟩ := nextEnds value between
    exact ⟨result, after, fun printed => (run_bind_of_ok (ran printed)).trans (ranNext printed)⟩
  | some failure =>
    intro state
    obtain ⟨value, between, ran⟩ := ends state
    obtain ⟨after, ranNext⟩ := nextEnds value between
    exact ⟨after, fun printed => (run_bind_of_ok (ran printed)).trans (ranNext printed)⟩

/-- The failure of the first step comes before that of the second one. -/
theorem bind {left right : Option Failure} (ends : Ends first left)
    (nextEnds : ∀ value, Ends (next value) right) : Ends (first >>= next) (left.or right) := by
  cases left with
  | none => exact ends.bind_done nextEnds
  | some failure => exact ends.bind_failed

/-- Something that cannot fail may be computed at the end. -/
theorem bind_pure {compute : Value → Result} (ends : Ends first failure?) :
    Ends (first >>= fun value => Pure.pure (compute value)) failure? := by
  rw [← Option.or_none (o := failure?)]
  exact ends.bind fun _ => .pure _

/-- If all elements fail in the same way, the first one decides. Without elements nothing fails. -/
theorem mapM {Element : Type} {act : Element → Action State Result} {elements : List Element}
    (empty : elements = [] → failure? = none) (each : ∀ element, Ends (act element) failure?) :
    Ends (elements.mapM act) failure? := by
  induction elements with
  | nil =>
    rw [empty rfl, List.mapM_nil]
    exact .pure []
  | cons element rest inductionHypothesis =>
    rw [List.mapM_cons]
    cases failure? with
    | some failure => exact (each element).bind_failed
    | none =>
      exact (each element).bind_done fun _ => (inductionHypothesis fun _ => rfl).bind_pure

theorem evaluating {evaluation : Evaluation State Result} {error? : Option EvaluationError}
    (fails : FailsWith evaluation error?) :
    Ends (evaluating evaluation) (error?.map fun error => .fault (.evaluating error)) := by
  cases error? with
  | none =>
    intro state
    obtain ⟨result, after, ran⟩ := fails state
    exact ⟨result, after, fun printed => run_evaluating_of_ok ran⟩
  | some error =>
    intro state
    obtain ⟨after, ran⟩ := fails state
    exact ⟨after, fun printed => run_evaluating_of_error ran⟩

end Ends

/-! ### What keeps a field from being drawn -/

/-- What keeps a field from being drawn: the first obstacle, given the error that its components
have at every point. The empty grid has no points. -/
def obstacle? (canvas : Canvas) (domain : Domain) (error? : Option EvaluationError) :
    Option Failure :=
  if domain.isUsable = false then some (.unusableDomain domain)
  else if canvas.diameter = 0 then some .noDiameter
  else if canvas.points < 0 then some (.negativeCount canvas.points)
  else if canvas.points = 0 then none
  else error?.map fun error => .fault (.evaluating error)

section

variable {State : Type} {table : SymbolTable State} {components : Components}
  {xerror? yerror? : Option EvaluationError}

/-- An expression fails in the same way at every point, or has a value at every point. -/
def FailsEverywhere (table : SymbolTable State) (tree : Expr) (error? : Option EvaluationError) :
    Prop :=
  ∀ x y, FailsWith (evaluate table (.ofPoint x y) tree) error?

theorem ends_directionAt (xfails : FailsEverywhere table components.xfunc xerror?)
    (yfails : FailsEverywhere table components.yfunc yerror?) (point : Position) :
    Ends (directionAt table components point)
      ((xerror?.or yerror?).map fun error => .fault (.evaluating error)) := by
  rw [Option.map_or]
  exact (Ends.evaluating (xfails point.x point.y)).bind fun _ =>
    (Ends.evaluating (yfails point.x point.y)).bind_pure

theorem sample_eq (table : SymbolTable State) (canvas : Canvas) (components : Components)
    (domain : Domain) :
    sample table canvas components domain =
      (pointCount canvas : Action State Nat) >>= sampleGrid table components domain := rfl

/-- All grid points are sampled in the same way, so that it only matters whether there are any. -/
theorem ends_sampleGrid (xfails : FailsEverywhere table components.xfunc xerror?)
    (yfails : FailsEverywhere table components.yfunc yerror?) (domain : Domain) (count : Nat) :
    Ends (sampleGrid table components domain count)
      (if count = 0 then none
        else (xerror?.or yerror?).map fun error => .fault (.evaluating error)) := by
  by_cases empty : count = 0
  · rw [if_pos empty, empty]
    exact .pure _
  · have nonempty (first last : Float) : spaced first last count ≠ [] :=
      List.ne_nil_of_length_pos (by rw [length_spaced]; exact Nat.pos_of_ne_zero empty)
    rw [if_neg empty]
    exact Ends.bind_pure (.mapM (fun isNil => absurd isNil (nonempty _ _)) fun y =>
      .mapM (fun isNil => absurd isNil (nonempty _ _)) fun x =>
        ends_directionAt xfails yfails ⟨x, y⟩)

/-- A field is drawn unless there is an obstacle. -/
theorem ends_draw (xfails : FailsEverywhere table components.xfunc xerror?)
    (yfails : FailsEverywhere table components.yfunc yerror?) (canvas : Canvas) (domain : Domain) :
    Ends (draw table canvas components domain) (obstacle? canvas domain (xerror?.or yerror?)) := by
  cases usable : domain.isUsable with
  | false =>
    rw [draw, obstacle?, usable]
    exact .throw (.unusableDomain domain) rfl
  | true =>
    rw [draw_of_usable usable, sample_eq, pointCount, obstacle?, usable,
      if_neg Bool.false_ne_true.symm]
    refine Ends.bind_pure ?_
    by_cases noDiameter : canvas.diameter = 0
    · rw [if_pos noDiameter, if_pos noDiameter]
      exact (Ends.throw .noDiameter rfl).bind_failed
    · rw [if_neg noDiameter, if_neg noDiameter]
      by_cases negative : canvas.points < 0
      · rw [if_pos negative, if_pos negative]
        exact (Ends.throw (.negativeCount canvas.points) rfl).bind_failed
      · rw [if_neg negative, if_neg negative]
        have whole := ends_sampleGrid xfails yfails domain canvas.points.toNat
        have isZero : canvas.points.toNat = 0 ↔ canvas.points = 0 := by omega
        simp only [isZero] at whole
        exact whole

/-! ### Components that have values -/

theorem isVariable_of_mem {level : Level} {tokens : List Token} {tree : Expr}
    (derived : Derives table level tokens tree) {name : String} (occurs : name ∈ tree.variableNames) :
    table.isVariable name = true := by
  rw [variableNames_of_derives derived] at occurs
  obtain ⟨token, -, isNamed⟩ := List.mem_filterMap.mp occurs
  exact isVariable_of_namedVariable? isNamed

/-- If a table has no variables but the coordinates, what is read over it has a value everywhere. -/
theorem failsEverywhere_of_ofText
    (coordinates : ∀ name ∈ table.variableNames, name = "x" ∨ name = "y")
    (arities : ∀ name function, table.function? name = some function → 0 ≤ function.arity)
    {text : String} {tree : Expr} (read : Expr.ofText table text = .ok tree) :
    FailsEverywhere table tree none := by
  obtain ⟨tokens, -, isTree⟩ := ofText_eq_ok_iff.mp read
  have derived := ofTokens_eq_ok_iff_derives.mp isTree
  intro x y state
  have bound : ∀ name ∈ tree.variableNames, Environment.ofPoint x y name ≠ none := by
    intro name occurs
    have isVariable := List.contains_iff_mem.mp (isVariable_of_mem derived occurs)
    rcases coordinates name isVariable with rfl | rfl
    · exact nofun
    · exact nofun
  obtain ⟨value, isValue⟩ :=
    ((failsOnlyAtUnbound_of_derives arities derived) (.ofPoint x y) state).2.2 bound
  exact ⟨value, _, Prod.ext isValue rfl⟩

end

end DirectionField
