/-
This file tells exactly when a field cannot be drawn. Whether an expression has a value depends on
the names that are bound and on nothing else: neither on their values nor on the state of the
functions. All grid points bind the same two names. So the error of a component can be told before
any point is known, and if there is one, it is met at the first grid point.
-/

import DirectionField.Proofs.Sampling
import Mathlib.Data.Rat.Floor

namespace DirectionField

/-! ### Expressions at a point -/

section

variable {State : Type} {table : SymbolTable State}

/-- An environment binds the two coordinates, and nothing else. -/
def BindsPoint (environment : Environment) : Prop :=
  ∀ name, (environment name).isSome = true ↔ name = "x" ∨ name = "y"

theorem bindsPoint_ofPoint (x y : Float) : BindsPoint (.ofPoint x y) := by
  intro name
  unfold Environment.ofPoint
  by_cases isX : name = "x"
  · simp [isX]
  · by_cases isY : name = "y"
    · simp [isY]
    · simp [isX, isY]

/-- Environments that bind the same names find the same nodes at fault. -/
theorem faultOf?_congr {first second : Environment}
    (same : ∀ name, (first name).isSome = (second name).isSome) :
    faultOf? table first = faultOf? table second := by
  funext node
  cases node with
  | var name token => rw [faultOf?, faultOf?, same name]
  | number _ _ | const _ _ | unary _ _ _ | binary _ _ _ _ | call _ _ _ | bare => rfl

/-- The error that an expression has at a point. It is the same at all points. -/
def pointError? (table : SymbolTable State) (tree : Expr) : Option EvaluationError :=
  tree.nodes.findSome? (faultOf? table (.ofPoint 0.0 0.0))

theorem failsWith_pointError? {environment : Environment} (binds : BindsPoint environment)
    (tree : Expr) : FailsWith (evaluate table environment tree) (pointError? table tree) := by
  have same : ∀ name, (environment name).isSome = (Environment.ofPoint 0.0 0.0 name).isSome :=
    fun name => Bool.eq_iff_iff.mpr ((binds name).trans (bindsPoint_ofPoint 0.0 0.0 name).symm)
  rw [pointError?, ← faultOf?_congr same]
  exact evaluate_failsWith table environment tree

theorem failsEverywhere_pointError? (tree : Expr) :
    FailsEverywhere table tree (pointError? table tree) :=
  fun x y => failsWith_pointError? (bindsPoint_ofPoint x y) tree

/-- What has a value in one environment that binds the coordinates has a value in all of them. -/
theorem exists_value_of_bindsPoint {first second : Environment} (binds : BindsPoint first)
    (others : BindsPoint second) {tree : Expr} {state after : State} {value : Float}
    (ran : (evaluate table first tree).run state = (.ok value, after)) (other : State) :
    ∃ result final, (evaluate table second tree).run other = (.ok result, final) := by
  have fails : FailsWith (evaluate table second tree) _ := failsWith_pointError? others tree
  rw [(failsWith_pointError? binds tree).eq_none ran] at fails
  exact fails other

end

/-! ### The number of grid points -/

/-- Division rounded down is the floor of the quotient, for divisors of either sign. -/
theorem fdiv_eq_floor (dividend divisor : Int) :
    dividend.fdiv divisor = ⌊(dividend : ℚ) / divisor⌋ := by
  obtain ⟨size, rfl | rfl⟩ := divisor.eq_nat_or_neg
  · rw [Int.fdiv_eq_ediv_of_nonneg _ (Int.natCast_nonneg size), Int.cast_natCast,
      Rat.floor_intCast_div_natCast]
  · have negated : ((dividend : ℚ) / ((-size : Int) : ℚ)) = ((-dividend : Int) : ℚ) / (size : ℚ) := by
      rw [Int.cast_neg, Int.cast_neg, Int.cast_natCast, div_neg, neg_div]
    rw [negated, Rat.floor_intCast_div_natCast,
      ← Int.fdiv_eq_ediv_of_nonneg _ (Int.natCast_nonneg size), ← Int.neg_fdiv_neg (-dividend),
      Int.neg_neg]

theorem points_eq_floor (canvas : Canvas) :
    canvas.points = ⌊(canvas.size : ℚ) / canvas.diameter⌋ + 1 := by
  rw [Canvas.points, Canvas.steps, fdiv_eq_floor]

/-! ### The first grid point -/

section

variable {State Element Result : Type}

theorem run_mapM_of_first_error {act : Element → Action State Result} {first : Element}
    {rest : List Element} {console after : Console State} {failure : Failure}
    (failed : (act first).run console = (.error failure, after)) :
    ((first :: rest).mapM act).run console = (.error failure, after) := by
  rw [List.mapM_cons]
  exact run_bind_of_error failed

variable {table : SymbolTable State} {canvas : Canvas} {components : Components} {domain : Domain}

/-- The grid point in the first row and the first column. -/
def IsFirstPoint (canvas : Canvas) (domain : Domain) (point : Position) : Prop :=
  (spaced domain.x0 domain.x1 canvas.points.toNat).head? = some point.x ∧
    (spaced domain.y0 domain.y1 canvas.points.toNat).head? = some point.y

theorem exists_isFirstPoint (positive : 0 < canvas.points) (domain : Domain) :
    ∃ point, IsFirstPoint canvas domain point := by
  have exists_head (first last : Float) :
      ∃ value, (spaced first last canvas.points.toNat).head? = some value := by
    refine Option.isSome_iff_exists.mp (List.isSome_head?.mpr (List.ne_nil_of_length_pos ?_))
    rw [length_spaced]
    omega
  obtain ⟨x, isX⟩ := exists_head domain.x0 domain.x1
  obtain ⟨y, isY⟩ := exists_head domain.y0 domain.y1
  exact ⟨⟨x, y⟩, isX, isY⟩

/-- If sampling fails at the first grid point, it goes no further. -/
theorem run_draw_of_first_error {point : Position} {failure : Failure}
    {console after : Console State} (usable : domain.isUsable = true)
    (diameter : canvas.diameter ≠ 0) (nonnegative : ¬canvas.points < 0)
    (isFirst : IsFirstPoint canvas domain point)
    (failed : (directionAt table components point).run console = (.error failure, after)) :
    (draw table canvas components domain).run console = (.error failure, after) := by
  obtain ⟨xs, columns⟩ := List.head?_eq_some_iff.mp isFirst.1
  obtain ⟨ys, rows⟩ := List.head?_eq_some_iff.mp isFirst.2
  rw [draw_of_usable usable, sample_eq, pointCount, if_neg diameter, if_neg nonnegative]
  show (sampleGrid table components domain _ >>= _).run console = _
  rw [sampleGrid, columns, rows]
  exact run_bind_of_error (run_bind_of_error
    (run_mapM_of_first_error (run_mapM_of_first_error failed)))

/-- A fault is an obstacle only if there is a grid and it has points. -/
theorem of_obstacle?_eq_fault {error? : Option EvaluationError} {fault : Fault}
    (isFault : obstacle? canvas domain error? = some (.fault fault)) :
    domain.isUsable = true ∧ canvas.diameter ≠ 0 ∧ 0 < canvas.points ∧
      error?.map (fun error => Failure.fault (.evaluating error)) = some (.fault fault) := by
  unfold obstacle? at isFault
  split at isFault
  · cases isFault
  · next usable =>
    split at isFault
    · cases isFault
    · next diameter =>
      split at isFault
      · cases isFault
      · next nonnegative =>
        split at isFault
        · cases isFault
        · next nonzero =>
          exact ⟨eq_true_of_ne_false usable, diameter, by omega, isFault⟩

/-- If a component has no value, this is found out at the first grid point, and no other one is
sampled. -/
theorem exists_first_error {fault : Fault} {console after : Console State}
    (failed : (draw table canvas components domain).run console = (.error (.fault fault), after)) :
    ∃ point, IsFirstPoint canvas domain point ∧
      (directionAt table components point).run console = (.error (.fault fault), after) := by
  have xfails : FailsEverywhere table components.xfunc _ := failsEverywhere_pointError? _
  have yfails : FailsEverywhere table components.yfunc _ := failsEverywhere_pointError? _
  obtain ⟨usable, diameter, positive, isFault⟩ :=
    of_obstacle?_eq_fault ((ends_draw xfails yfails canvas domain).eq_some failed)
  obtain ⟨point, isFirst⟩ := exists_isFirstPoint positive domain
  have ends := ends_directionAt xfails yfails point
  rw [isFault] at ends
  obtain ⟨final, ran⟩ := ends console.state
  have here := ran console.printed
  have whole := run_draw_of_first_error usable diameter (by omega) isFirst here
  cases whole.symm.trans failed
  exact ⟨point, isFirst, here⟩

end

/-! ### Rendering -/

section

variable {State : Type} {table : SymbolTable State}

/-- What keeps a field with the given components from being drawn. The first component comes first.
-/
def obstacleTo? (table : SymbolTable State) (canvas : Canvas) (components : Components)
    (domain : Domain) : Option Failure :=
  obstacle? canvas domain
    ((pointError? table components.xfunc).or (pointError? table components.yfunc))

theorem ends_draw_obstacleTo? (table : SymbolTable State) (canvas : Canvas)
    (components : Components) (domain : Domain) :
    Ends (draw table canvas components domain) (obstacleTo? table canvas components domain) :=
  ends_draw (failsEverywhere_pointError? _) (failsEverywhere_pointError? _) canvas domain

/-- How rendering on given axes ends: with a picture on them, or with a failure that leaves them as
they are and of which no more than its announcement is printed. -/
def Renders (session : Session State) (axes : Axes) (outcome : Except Failure Unit × Session State) :
    Option Failure → Prop
  | none => ∃ picture state, outcome =
      (.ok (), { session with
        axes := some { axes with picture := some picture }
        console := { session.console with state := state } })
  | some failure => ∃ state, outcome =
      (.error failure, { session with
        console := ⟨state, session.console.printed ++ failure.announcement⟩ })

theorem renders_obstacleTo? (canvas : Canvas) (components : Components) (domain : Domain)
    (session : Session State) (axes : Axes) :
    Renders session axes ((render table canvas components domain axes).run session)
      (obstacleTo? table canvas components domain) := by
  have ends := ends_draw_obstacleTo? table canvas components domain
  cases obstacle : obstacleTo? table canvas components domain with
  | none =>
    rw [obstacle] at ends
    obtain ⟨picture, state, ran⟩ := ends session.console.state
    exact ⟨picture, state, run_render_of_ok session (ran session.console.printed)⟩
  | some failure =>
    rw [obstacle] at ends
    obtain ⟨state, ran⟩ := ends session.console.state
    exact ⟨state, run_render_of_error session (ran session.console.printed)⟩

end

/-- Rendering on given axes fails exactly if the domain is not usable, or else if vectors have no
diameter, or else if the number of grid points in a row is negative, or else if there are grid
points and a component has no value where just the coordinates are bound. The axes then keep what is
on them. Which values the coordinates have makes no difference, nor does the state of the functions,
so that a component without a value is found out at the first grid point. -/
theorem renders_unless_obstacle {State : Type} (table : SymbolTable State) (canvas : Canvas)
    (components : Components) (domain : Domain) :
    canvas.points = ⌊(canvas.size : ℚ) / canvas.diameter⌋ + 1 ∧
      (∀ environment, BindsPoint environment → ∀ tree,
        FailsWith (evaluate table environment tree) (pointError? table tree)) ∧
      (∀ tree first other, BindsPoint first → BindsPoint other →
        ∀ state value after, (evaluate table first tree).run state = (.ok value, after) →
          ∀ state, ∃ value after, (evaluate table other tree).run state = (.ok value, after)) ∧
      (∀ (session : Session State) axes,
        let given := { session with axes := some axes }
        Renders given axes ((render table canvas components domain axes).run given)
          (obstacleTo? table canvas components domain)) ∧
      ∀ session axes fault after,
        (render table canvas components domain axes).run session = (.error (.fault fault), after) →
          ∃ point, IsFirstPoint canvas domain point ∧
            (directionAt table components point).run session.console =
              (.error (.fault fault), after.console) := by
  refine ⟨points_eq_floor canvas, fun environment binds tree => failsWith_pointError? binds tree,
    fun tree first other binds others state value after ran state' =>
      exists_value_of_bindsPoint binds others ran state', fun session axes => ?_,
    fun session axes fault after failed => ?_⟩
  · exact renders_obstacleTo? canvas components domain _ axes
  · cases ran : (draw table canvas components domain).run session.console with
    | mk outcome console =>
      cases outcome with
      | ok picture =>
        rw [run_render_of_ok session ran] at failed
        cases failed
      | error failure =>
        rw [run_render_of_error session ran] at failed
        cases failed
        exact exists_first_error ran

/-- A grid without points is drawn even if its components have no value. -/
example : obstacle? ⟨10, -20⟩ ⟨0.0, 1.0, 0.0, 1.0⟩ (some ⟨.bareNode, none⟩) = none := by decide

end DirectionField
