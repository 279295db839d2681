/-
This file says which evaluations have no effect. A function is pure if a call computes its value
from the arguments and leaves the state of the functions alone. Over a table of pure functions the
outcome of an evaluation does not depend on the state, and the state stays as it is.

All standard functions are pure, except the one that draws random numbers.
-/

import DirectionField.Expr.Evaluate
import DirectionField.Symbols.Standard

namespace DirectionField

/-! ### Pure functions -/

/-- A function is pure if its calls compute their values from their arguments and do nothing else.
-/
def Function.IsPure {State : Type} (function : Function State) : Prop :=
  ∃ compute : List Float → Float, ∀ values, function.apply values = pure (compute values)

/-- All functions of a table are pure. -/
def SymbolTable.IsPure {State : Type} (table : SymbolTable State) : Prop :=
  ∀ name function, table.function? name = some function → function.IsPure

section

variable {State : Type}

theorem isPure_unary (compute : Float → Float) :
    (Function.unary compute : Function State).IsPure := by
  refine ⟨fun values => (((Function.unary compute : Function Unit).apply values).run ()).1,
    fun values => ?_⟩
  cases values with
  | nil => rfl
  | cons first rest => cases rest <;> rfl

theorem isPure_binary (compute : Float → Float → Float) :
    (Function.binary compute : Function State).IsPure := by
  refine ⟨fun values => (((Function.binary compute : Function Unit).apply values).run ()).1,
    fun values => ?_⟩
  cases values with
  | nil => rfl
  | cons first rest =>
    cases rest with
    | nil => rfl
    | cons second others => cases others <;> rfl

/-- Only the source of random numbers has an effect. -/
theorem isPure_of_standard {random : StateM State Float} {name : String}
    {function : Function State} (different : name ≠ "random")
    (isFunction : (standardTable random).function? name = some function) : function.IsPure := by
  have each : ∀ entry ∈ standardFunctions random, entry.1 ≠ "random" → entry.2.IsPure := by
    simp [standardFunctions, isPure_unary, isPure_binary]
  exact each (name, function) (SymbolTable.mem_of_function? isFunction) different

end

/-! ### Evaluations without an effect -/

/-- An evaluation does nothing but give a value, or nothing but fail with an error. -/
def IsEffectless {State Value : Type} (evaluation : Evaluation State Value) : Prop :=
  (∃ value, evaluation = pure value) ∨ ∃ error, evaluation = throw error

section

variable {State Value Result : Type}

namespace IsEffectless

theorem pure (value : Value) : IsEffectless (Pure.pure value : Evaluation State Value) :=
  Or.inl ⟨value, rfl⟩

theorem throw (error : EvaluationError) :
    IsEffectless (throw error : Evaluation State Value) :=
  Or.inr ⟨error, rfl⟩

theorem bind {first : Evaluation State Value} {next : Value → Evaluation State Result}
    (effectless : IsEffectless first) (nextEffectless : ∀ value, IsEffectless (next value)) :
    IsEffectless (first >>= next) := by
  rcases effectless with ⟨value, rfl⟩ | ⟨error, rfl⟩
  · rw [pure_bind]
    exact nextEffectless value
  · exact .throw error

theorem found (value : Option Float) (cause : EvaluationCause) (token : Option Token) :
    IsEffectless (found value cause token : Evaluation State Float) := by
  cases value with
  | none => exact .throw _
  | some value => exact .pure value

/-- What an effectless evaluation gives from one state is all that it does from any state. -/
theorem eq_pure {evaluation : Evaluation State Value} (effectless : IsEffectless evaluation)
    {state : State} {value : Value} (gives : (evaluation.run state).1 = .ok value) :
    evaluation = Pure.pure value := by
  rcases effectless with ⟨other, rfl⟩ | ⟨error, rfl⟩
  · cases gives
    rfl
  · cases gives

end IsEffectless

variable {table : SymbolTable State} {environment : Environment}

mutual

/-- Without functions that have an effect, evaluation has none. -/
theorem evaluate_isEffectless (isPure : table.IsPure) (tree : Expr) :
    IsEffectless (evaluate table environment tree) := by
  cases tree with
  | number value token => exact .pure value
  | var name token =>
    rw [evaluate]
    exact .found ..
  | const name token =>
    rw [evaluate]
    exact .found ..
  | unary sign operand token =>
    rw [evaluate]
    exact (evaluate_isEffectless isPure operand).bind fun _ => .pure _
  | binary operator left right token =>
    rw [evaluate]
    exact (evaluate_isEffectless isPure left).bind fun _ =>
      (evaluate_isEffectless isPure right).bind fun _ => .pure _
  | call name arguments token =>
    rw [evaluate]
    cases isFunction : table.function? name with
    | none => exact .throw _
    | some function =>
      obtain ⟨compute, computes⟩ := isPure name function isFunction
      dsimp only
      split
      · refine (evaluateAll_isEffectless isPure arguments).bind fun values => ?_
        rw [computes]
        exact .pure (compute values)
      · exact .throw _
  | bare => exact .throw _

theorem evaluateAll_isEffectless (isPure : table.IsPure) (trees : List Expr) :
    IsEffectless (evaluateAll table environment trees) := by
  cases trees with
  | nil => exact .pure []
  | cons first rest =>
    rw [evaluateAll]
    exact (evaluate_isEffectless isPure first).bind fun _ =>
      (evaluateAll_isEffectless isPure rest).bind fun _ => .pure _

end

end

end DirectionField
