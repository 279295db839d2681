/-
This file proves that a field is sampled and drawn in one and the same order. Sampling goes through
the rows, and in a row through the columns, and evaluates both components before it goes on. Drawing
puts the coordinates of the grid together with the directions. Both number the grid points alike: a
point has the number of its column as the remainder, and that of its row as the quotient, by the
number of points in a row.

Rows of points and pairs of evaluations are blocks of one length. What stands at a number in a row
of such blocks is told once, and all that is numbered is told by it.
-/

import DirectionField.Proofs.Lengths
import DirectionField.Proofs.Sampling

namespace DirectionField

/-! ### Blocks of one length -/

section

variable {Element Value : Type} {block : Element → List Value} {elements : List Element}
  {width : Nat}

theorem length_flatMap_of_length (same : ∀ element ∈ elements, (block element).length = width) :
    (elements.flatMap block).length = elements.length * width := by
  rw [List.length_flatMap, List.map_congr_left same, List.map_const', List.sum_replicate_nat]

/-- Value `i` of all is value `i % width` of block `i / width`. -/
theorem getElem?_flatMap_of_length (positive : 0 < width)
    (same : ∀ element ∈ elements, (block element).length = width) (i : Nat) :
    (elements.flatMap block)[i]? =
      elements[i / width]?.bind fun element => (block element)[i % width]? := by
  induction elements generalizing i with
  | nil => rfl
  | cons first rest inductionHypothesis =>
    obtain ⟨isFirst, areRest⟩ := List.forall_mem_cons.mp same
    rw [List.flatMap_cons]
    by_cases inFirst : i < width
    · rw [List.getElem?_append_left (by rw [isFirst]; exact inFirst), Nat.div_eq_of_lt inFirst,
        Nat.mod_eq_of_lt inFirst]
      rfl
    · have beyond : width ≤ i := Nat.le_of_not_lt inFirst
      rw [List.getElem?_append_right (by rw [isFirst]; exact beyond), isFirst,
        inductionHypothesis areRest, Nat.div_eq_sub_div positive beyond,
        Nat.mod_eq_sub_mod beyond]
      rfl

end

/-! ### One action for every element -/

section

variable {State Element Result : Type} {act : Element → Action State Result}
  {console after : Console State}

theorem run_mapM_cons_eq_ok_iff {first : Element} {rest : List Element} {results : List Result} :
    ((first :: rest).mapM act).run console = (.ok results, after) ↔
      ∃ result between others, (act first).run console = (.ok result, between) ∧
        (rest.mapM act).run between = (.ok others, after) ∧ results = result :: others := by
  rw [List.mapM_cons]
  constructor
  · intro ran
    obtain ⟨result, between, firstRan, restRan⟩ := run_bind_eq_ok_iff.mp ran
    obtain ⟨others, final, othersRan, isList⟩ := run_bind_eq_ok_iff.mp restRan
    cases isList
    exact ⟨result, between, others, firstRan, othersRan, rfl⟩
  · rintro ⟨result, between, others, firstRan, othersRan, rfl⟩
    exact (run_bind_of_ok firstRan).trans (run_bind_of_ok othersRan)

theorem length_of_run_mapM {elements : List Element} {results : List Result}
    (ran : (elements.mapM act).run console = (.ok results, after)) :
    results.length = elements.length := by
  induction elements generalizing results console with
  | nil =>
    cases ran
    rfl
  | cons first rest inductionHypothesis =>
    obtain ⟨result, between, others, -, othersRan, rfl⟩ := run_mapM_cons_eq_ok_iff.mp ran
    rw [List.length_cons, inductionHypothesis othersRan, List.length_cons]

variable {Row : Type} {rowOf : Row → List Element}

/-- Acting row by row is acting on all elements in a row. The rows of results are as long as those
of the elements. -/
theorem run_mapM_rows {rows : List Row} {results : List (List Result)} {width : Nat}
    (same : ∀ row ∈ rows, (rowOf row).length = width)
    (ran : (rows.mapM fun row => (rowOf row).mapM act).run console = (.ok results, after)) :
    ((rows.flatMap rowOf).mapM act).run console = (.ok results.flatten, after) ∧
      ∀ row ∈ results, row.length = width := by
  induction rows generalizing results console with
  | nil =>
    cases ran
    exact ⟨rfl, nofun⟩
  | cons first rest inductionHypothesis =>
    obtain ⟨isFirst, areRest⟩ := List.forall_mem_cons.mp same
    obtain ⟨row, between, others, rowRan, othersRan, rfl⟩ := run_mapM_cons_eq_ok_iff.mp ran
    obtain ⟨flat, lengths⟩ := inductionHypothesis areRest othersRan
    refine ⟨?_, List.forall_mem_cons.mpr ⟨(length_of_run_mapM rowRan).trans isFirst, lengths⟩⟩
    rw [List.flatMap_cons, List.mapM_append]
    exact (run_bind_of_ok rowRan).trans (run_bind_of_ok flat)

end

/-! ### Evaluations at points -/

/-- An expression that is evaluated, and the point at which it is. -/
structure Visit where
  tree : Expr
  point : Position
deriving Repr, Inhabited

/-- All points of a grid, row by row. -/
def gridPoints (xs ys : List Float) : List Position :=
  ys.flatMap fun y => xs.map fun x => ⟨x, y⟩

/-- What is evaluated at points: both components at each, the first component first. -/
def Components.visits (components : Components) (points : List Position) : List Visit :=
  points.flatMap fun point => [⟨components.xfunc, point⟩, ⟨components.yfunc, point⟩]

section

variable {State : Type}

/-- Evaluate in a row. -/
def visitAll (table : SymbolTable State) (visits : List Visit) : Evaluation State (List Float) :=
  visits.mapM fun visit => evaluate table (.ofPoint visit.point.x visit.point.y) visit.tree

theorem length_visits (components : Components) (points : List Position) :
    (components.visits points).length = points.length * 2 :=
  length_flatMap_of_length fun _ _ => rfl

theorem visitAll_cons (table : SymbolTable State) (visit : Visit) (rest : List Visit) :
    visitAll table (visit :: rest) =
      evaluate table (.ofPoint visit.point.x visit.point.y) visit.tree >>= fun value =>
        visitAll table rest >>= fun values => pure (value :: values) :=
  List.mapM_cons

variable {table : SymbolTable State} {components : Components} {console after : Console State}

theorem run_directionAt_eq_ok_iff {point : Position} {direction : Direction} :
    (directionAt table components point).run console = (.ok direction, after) ↔
      ∃ u v between,
        (evaluate table (.ofPoint point.x point.y) components.xfunc).run console.state =
            (.ok u, between) ∧
          (evaluate table (.ofPoint point.x point.y) components.yfunc).run between =
            (.ok v, after.state) ∧
          after.printed = console.printed ∧ direction = directionOf u v := by
  constructor
  · intro ran
    obtain ⟨u, middle, xran, ran⟩ := run_bind_eq_ok_iff.mp ran
    obtain ⟨v, final, yran, ran⟩ := run_bind_eq_ok_iff.mp ran
    cases ran
    obtain ⟨xevaluated, xquiet⟩ := run_evaluating_eq_ok_iff.mp xran
    obtain ⟨yevaluated, yquiet⟩ := run_evaluating_eq_ok_iff.mp yran
    exact ⟨u, v, middle.state, xevaluated, yevaluated, yquiet.trans xquiet, rfl⟩
  · rintro ⟨u, v, between, xevaluated, yevaluated, quiet, rfl⟩
    have xran : (evaluating (evaluate table (.ofPoint point.x point.y) components.xfunc)).run
        console = (.ok u, ⟨between, console.printed⟩) := run_evaluating_eq_ok_iff.mpr ⟨xevaluated, rfl⟩
    have yran : (evaluating (evaluate table (.ofPoint point.x point.y) components.yfunc)).run
        ⟨between, console.printed⟩ = (.ok v, after) := run_evaluating_eq_ok_iff.mpr ⟨yevaluated, quiet⟩
    exact (run_bind_of_ok xran).trans (run_bind_of_ok yran)

/-- The values of both components, vector by vector. -/
def valuesOf (vectors : List (Float × Float)) : List Float :=
  vectors.flatMap fun vector => [vector.1, vector.2]

theorem length_valuesOf (vectors : List (Float × Float)) :
    (valuesOf vectors).length = vectors.length * 2 :=
  length_flatMap_of_length fun _ _ => rfl

/-- The directions at points come from the values of both components at each of them, evaluated in
a row. -/
theorem run_visits_of_directions {points : List Position} {directions : List Direction}
    (ran : (points.mapM (directionAt table components)).run console = (.ok directions, after)) :
    ∃ vectors,
      (visitAll table (components.visits points)).run console.state =
          (.ok (valuesOf vectors), after.state) ∧
        after.printed = console.printed ∧
        directions = vectors.map fun vector => directionOf vector.1 vector.2 := by
  induction points generalizing console directions with
  | nil =>
    cases ran
    exact ⟨[], rfl, rfl, rfl⟩
  | cons point rest inductionHypothesis =>
    obtain ⟨direction, between, others, directionRan, othersRan, rfl⟩ :=
      run_mapM_cons_eq_ok_iff.mp ran
    obtain ⟨u, v, middle, xran, yran, quiet, rfl⟩ := run_directionAt_eq_ok_iff.mp directionRan
    obtain ⟨vectors, visited, othersQuiet, rfl⟩ := inductionHypothesis othersRan
    refine ⟨(u, v) :: vectors, ?_, othersQuiet.trans quiet, rfl⟩
    -- Both evaluations at the first point come before those at the other points.
    show (visitAll table (⟨components.xfunc, point⟩ :: ⟨components.yfunc, point⟩ ::
      components.visits rest)).run console.state = _
    rw [visitAll_cons, run_bind_of_ok xran, visitAll_cons, bind_assoc, run_bind_of_ok yran,
      bind_assoc, run_bind_of_ok visited]
    rfl

end

/-! ### Numbers of grid points -/

/-- The direction in a row and a column. -/
def SampledField.direction? (field : SampledField) (row column : Nat) : Option Direction :=
  field.directions[row]?.bind fun directions => directions[column]?

/-- A field has the same number of rows and of columns, and a direction where they meet. -/
structure SampledField.IsSquare (field : SampledField) (count : Nat) : Prop where
  columns : field.xs.length = count
  rows : field.ys.length = count
  directionRows : field.directions.length = count
  directionColumns : ∀ row ∈ field.directions, row.length = count

section

variable {xs ys : List Float} {count : Nat}

theorem length_gridPoints (columns : xs.length = count) (rows : ys.length = count) :
    (gridPoints xs ys).length = count * count := by
  rw [gridPoints, length_flatMap_of_length fun y _ => (List.length_map _).trans columns, rows]

theorem getElem?_gridPoints (columns : xs.length = count) (positive : 0 < count) {i : Nat}
    {x y : Float} (isX : xs[i % count]? = some x) (isY : ys[i / count]? = some y) :
    (gridPoints xs ys)[i]? = some ⟨x, y⟩ := by
  rw [gridPoints, getElem?_flatMap_of_length positive fun y _ => (List.length_map _).trans columns,
    isY, Option.bind_some, List.getElem?_map, isX, Option.map_some]

variable {field : SampledField}

/-- Every number of a grid point is that of a column and a row. -/
theorem exists_coordinates (square : field.IsSquare count) {i : Nat}
    (isNumber : i < count * count) :
    0 < count ∧ ∃ x y, field.xs[i % count]? = some x ∧ field.ys[i / count]? = some y := by
  have positive : 0 < count := Nat.pos_of_mul_pos_left (Nat.zero_lt_of_lt isNumber)
  have isColumn : i % count < field.xs.length := by
    rw [square.columns]
    exact Nat.mod_lt i positive
  have isRow : i / count < field.ys.length := by
    rw [square.rows]
    exact Nat.div_lt_of_lt_mul isNumber
  exact ⟨positive, _, _, List.getElem?_eq_getElem isColumn, List.getElem?_eq_getElem isRow⟩

theorem directions_eq_flatMap : field.directions.flatten = field.directions.flatMap fun row => row :=
  List.flatMap_id.symm

theorem length_flatten_directions (square : field.IsSquare count) :
    field.directions.flatten.length = count * count := by
  rw [directions_eq_flatMap, length_flatMap_of_length square.directionColumns, square.directionRows]

theorem getElem?_flatten_directions (square : field.IsSquare count) (positive : 0 < count)
    (i : Nat) : field.directions.flatten[i]? = field.direction? (i / count) (i % count) := by
  rw [directions_eq_flatMap, getElem?_flatMap_of_length positive square.directionColumns]
  rfl

/-- The samples of a row with the given coordinate. -/
def samplesOfRow (xs : List Float) (row : Float × List Direction) : List (Position × Direction) :=
  (xs.zip row.2).map fun sample => (⟨sample.1, row.1⟩, sample.2)

theorem samples_eq_flatMap :
    field.samples = (field.ys.zip field.directions).flatMap (samplesOfRow field.xs) :=
  rfl

theorem length_samplesOfRow (square : field.IsSquare count) :
    ∀ row ∈ field.ys.zip field.directions, (samplesOfRow field.xs row).length = count := by
  intro row member
  rw [samplesOfRow, List.length_map, List.length_zip, square.columns,
    square.directionColumns row.2 (List.of_mem_zip member).2, Nat.min_self]

theorem length_samples (square : field.IsSquare count) :
    field.samples.length = count * count := by
  rw [samples_eq_flatMap, length_flatMap_of_length (length_samplesOfRow square), List.length_zip,
    square.rows, square.directionRows, Nat.min_self]

theorem getElem?_samples (square : field.IsSquare count) (positive : 0 < count) {i : Nat}
    {x y : Float} {direction : Direction} (isX : field.xs[i % count]? = some x)
    (isY : field.ys[i / count]? = some y)
    (isDirection : field.direction? (i / count) (i % count) = some direction) :
    field.samples[i]? = some (⟨x, y⟩, direction) := by
  obtain ⟨row, isRow, inRow⟩ := Option.bind_eq_some_iff.mp isDirection
  have rowFound : (field.ys.zip field.directions)[i / count]? = some (y, row) :=
    List.getElem?_zip_eq_some.mpr ⟨isY, isRow⟩
  have found : (field.xs.zip row)[i % count]? = some (x, direction) :=
    List.getElem?_zip_eq_some.mpr ⟨isX, inRow⟩
  rw [samples_eq_flatMap, getElem?_flatMap_of_length positive (length_samplesOfRow square),
    rowFound, Option.bind_some, samplesOfRow, List.getElem?_map, found, Option.map_some]

end

section

variable {Element Value : Type} {first second : Element → Value} {elements : List Element}

/-- Pairs in a row alternate. -/
theorem getElem?_flatMap_pair {i : Nat} {element : Element} (isElement : elements[i]? = some element) :
    (elements.flatMap fun element => [first element, second element])[2 * i]? =
        some (first element) ∧
      (elements.flatMap fun element => [first element, second element])[2 * i + 1]? =
        some (second element) := by
  have numbered (place : Nat) :
      (elements.flatMap fun element => [first element, second element])[place]? =
        elements[place / 2]?.bind fun element => [first element, second element][place % 2]? :=
    getElem?_flatMap_of_length Nat.two_pos (fun _ _ => rfl) place
  constructor
  · rw [numbered, show 2 * i / 2 = i by omega, show 2 * i % 2 = 0 by omega, isElement]
    rfl
  · rw [numbered, show (2 * i + 1) / 2 = i by omega, show (2 * i + 1) % 2 = 1 by omega, isElement]
    rfl

end

/-! ### Sampling and drawing -/

section

variable {State : Type} {table : SymbolTable State} {canvas : Canvas} {components : Components}
  {domain : Domain} {console after : Console State} {field : SampledField} {count : Nat}

theorem pointCount_eq_ok_iff :
    pointCount canvas = .ok count ↔ canvas.diameter ≠ 0 ∧ canvas.points = count := by
  rw [pointCount]
  by_cases noDiameter : canvas.diameter = 0
  · rw [if_pos noDiameter]
    refine iff_of_false ?_ fun given => given.1 noDiameter
    intro counted
    cases counted
  · rw [if_neg noDiameter]
    by_cases negative : canvas.points < 0
    · rw [if_pos negative]
      refine iff_of_false ?_ fun given => by omega
      intro counted
      cases counted
    · rw [if_neg negative, Except.ok.injEq]
      omega

/-- Sampling is sampling the grid of the canvas. -/
theorem exists_sampleGrid
    (sampled : (sample table canvas components domain).run console = (.ok field, after)) :
    ∃ count : Nat, canvas.points = count ∧
      (sampleGrid table components domain count).run console = (.ok field, after) := by
  rw [sample_eq] at sampled
  cases counted : pointCount canvas with
  | error failure =>
    rw [counted] at sampled
    cases sampled
  | ok count =>
    rw [counted] at sampled
    exact ⟨count, (pointCount_eq_ok_iff.mp counted).2, sampled⟩

/-- Sampling a grid fills its rows with the directions at its points. -/
theorem directions_of_sampleGrid
    (sampled : (sampleGrid table components domain count).run console = (.ok field, after)) :
    field.IsSquare count ∧ field.xs = spaced domain.x0 domain.x1 count ∧
      field.ys = spaced domain.y0 domain.y1 count ∧
      ((gridPoints field.xs field.ys).mapM (directionAt table components)).run console =
        (.ok field.directions.flatten, after) := by
  obtain ⟨directions, final, ran, isField⟩ := run_bind_eq_ok_iff.mp sampled
  cases isField
  let xs := spaced domain.x0 domain.x1 count
  let ys := spaced domain.y0 domain.y1 count
  have columns : xs.length = count := length_spaced _ _ _
  have rows : ys.length = count := length_spaced _ _ _
  have asPoints (y : Float) : (xs.mapM fun x => directionAt table components ⟨x, y⟩) =
      (xs.map fun x => ⟨x, y⟩).mapM (directionAt table components) := by
    rw [List.mapM_map]
    rfl
  have rowwise : (ys.mapM fun y => (xs.map fun x => ⟨x, y⟩).mapM (directionAt table components)).run
      console = (.ok directions, after) := by
    rw [← funext asPoints]
    exact ran
  obtain ⟨flat, lengths⟩ := run_mapM_rows (fun y _ => (List.length_map _).trans columns) rowwise
  exact ⟨⟨columns, rows, (length_of_run_mapM ran).trans rows, lengths⟩, rfl, rfl, flat⟩

theorem length_segments (square : field.IsSquare count) :
    (pictureOf canvas domain field).segments.length = count * count :=
  (List.length_map _).trans (length_samples square)

theorem length_dots (square : field.IsSquare count) :
    (pictureOf canvas domain field).dots.length = count * count :=
  (List.length_map _).trans (length_segments square)

/-- A segment and a dot are drawn for every sample, in the order of the samples. -/
theorem getElem?_segments {i : Nat} {start : Position} {direction : Direction}
    (isSample : field.samples[i]? = some (start, direction)) :
    let segment := segmentOf canvas domain start direction
    (pictureOf canvas domain field).segments[i]? = some segment ∧
      (pictureOf canvas domain field).dots[i]? = some segment.tip := by
  intro segment
  have found : (pictureOf canvas domain field).segments[i]? = some segment := by
    rw [pictureOf, List.getElem?_map, isSample]
    rfl
  refine ⟨found, ?_⟩
  show ((pictureOf canvas domain field).segments.map (·.tip))[i]? = _
  rw [List.getElem?_map, found]
  rfl

/-- If a field has been sampled, with any number of points in a row, both components have been
evaluated at every grid point, and nothing else has been evaluated: the evaluations follow each
other on the state of the functions, two for each point, the first component first. The grid points
are numbered row by row. The direction at a point is made of its two values, each divided by the
length of both, and a vector without a length stays zero. Where the domain is usable, the field is
drawn with one segment and one dot for each point, in the same order: the segment leads from the
point along its direction, by two pixels more than half a diameter, each component in the scale of
its own axis, and the dot is at its end. -/
theorem drawn_as_sampled
    (sampled : (sample table canvas components domain).run console = (.ok field, after)) :
    ∃ count : Nat, canvas.points = count ∧
      let xs := spaced domain.x0 domain.x1 count
      let ys := spaced domain.y0 domain.y1 count
      let visits := components.visits (gridPoints xs ys)
      let picture := pictureOf canvas domain field
      field.xs = xs ∧ field.ys = ys ∧ field.IsSquare count ∧
        visits.length = 2 * count * count ∧
        picture.segments.length = count * count ∧ picture.dots.length = count * count ∧
        (domain.isUsable = true → ∀ (session : Session State) axes, session.console = console →
          (render table canvas components domain axes).run session =
            (.ok (), { session with
              axes := some { axes with picture := some picture }
              console := after })) ∧
        ∃ values, (visitAll table visits).run console.state = (.ok values, after.state) ∧
          after.printed = console.printed ∧ values.length = 2 * count * count ∧
          ∀ i < count * count, ∃ x y u v,
            xs[i % count]? = some x ∧ ys[i / count]? = some y ∧
              visits[2 * i]? = some ⟨components.xfunc, ⟨x, y⟩⟩ ∧ values[2 * i]? = some u ∧
              visits[2 * i + 1]? = some ⟨components.yfunc, ⟨x, y⟩⟩ ∧ values[2 * i + 1]? = some v ∧
              let length := lengthOf u v
              let direction : Direction :=
                if length != 0.0 then ⟨u / length, v / length⟩ else ⟨0.0, 0.0⟩
              let radius := halfOf canvas.diameter + 2.0
              let tip : Position :=
                ⟨x + direction.u * radius * (domain.x1 - domain.x0) / Float.ofInt canvas.size,
                  y + direction.v * radius * (domain.y1 - domain.y0) / Float.ofInt canvas.size⟩
              IsLength u v length ∧
                field.direction? (i / count) (i % count) = some direction ∧
                picture.segments[i]? = some ⟨⟨x, y⟩, tip⟩ ∧ picture.dots[i]? = some tip := by
  obtain ⟨count, isCount, ran⟩ := exists_sampleGrid sampled
  -- From rows of points to points in a row, and from these to evaluations in a row.
  obtain ⟨square, isXs, isYs, directionsRan⟩ := directions_of_sampleGrid ran
  obtain ⟨vectors, visited, quiet, areDirections⟩ := run_visits_of_directions directionsRan
  have vectorCount : vectors.length = count * count := by
    rw [← length_flatten_directions square, areDirections, List.length_map]
  have pairCount : count * count * 2 = 2 * count * count := by
    rw [Nat.mul_comm, Nat.mul_assoc]
  refine ⟨count, isCount, ?_⟩
  rw [← isXs, ← isYs]
  intro xs ys visits picture
  refine ⟨rfl, rfl, square, ?_, length_segments square, length_dots square, ?_, valuesOf vectors,
    visited, quiet, ?_, ?_⟩
  · rw [length_visits, length_gridPoints square.columns square.rows, pairCount]
  · rintro usable session axes rfl
    exact run_render_of_ok session (run_draw_eq_ok_iff.mpr ⟨usable, field, sampled, rfl⟩)
  · rw [length_valuesOf, vectorCount, pairCount]
  · intro i isNumber
    obtain ⟨positive, x, y, isX, isY⟩ := exists_coordinates square isNumber
    have isPoint := getElem?_gridPoints square.columns positive isX isY
    obtain ⟨⟨u, v⟩, isVector⟩ : ∃ vector, vectors[i]? = some vector :=
      ⟨_, List.getElem?_eq_getElem (by rw [vectorCount]; exact isNumber)⟩
    obtain ⟨xvisit, yvisit⟩ := getElem?_flatMap_pair isPoint
    obtain ⟨isU, isV⟩ := getElem?_flatMap_pair isVector
    have isDirection : field.direction? (i / count) (i % count) = some (directionOf u v) := by
      rw [← getElem?_flatten_directions square positive, areDirections, List.getElem?_map, isVector]
      rfl
    obtain ⟨segment, dot⟩ := getElem?_segments (getElem?_samples square positive isX isY isDirection)
    exact ⟨x, y, u, v, isX, isY, xvisit, isU, yvisit, isV, isLength_lengthOf u v, isDirection,
      segment, dot⟩

end

/-- A run with a value is told by the value and the state at its end. -/
theorem eq_of_toOption {Error Value State : Type} {outcome : Except Error Value × State}
    {value : Value} {state : State} (isValue : outcome.1.toOption = some value)
    (isState : outcome.2 = state) : outcome = (.ok value, state) := by
  obtain ⟨result, final⟩ := outcome
  cases isState
  cases result with
  | error _ => cases isValue
  | ok _ =>
    cases isValue
    rfl

/-- Vectors that lead away from the middle are sampled at nine points. A counter makes them longer
from one point to the next, and the second component takes the call of the first one into account.
-/
theorem drawn_as_sampled_counter :
    let table : SymbolTable Nat :=
      ⟨["x", "y"], [], [("next", .drawing fun count => (Float.ofNat (count + 1), count + 1))]⟩
    let next : Expr := .call "next" []
    let components : Components :=
      ⟨.binary .multiply (.var "x") next,
        .binary .multiply (.var "y") (.binary .subtract next (.number 1.0))⟩
    let canvas : Canvas := ⟨8, 4⟩
    let domain : Domain := ⟨-4.0, 4.0, -3.0, 3.0⟩
    let field : SampledField :=
      ⟨[-4.0, 0.0, 4.0], [-3.0, 0.0, 3.0],
        [[⟨-0.8, -0.6⟩, ⟨0.0, -1.0⟩, ⟨0.8, -0.6⟩],
          [⟨-1.0, 0.0⟩, ⟨0.0, 0.0⟩, ⟨1.0, 0.0⟩],
          [⟨-0.8, 0.6⟩, ⟨0.0, 1.0⟩, ⟨0.8, 0.6⟩]]⟩
    let values : List Float :=
      [-4.0, -3.0, 0.0, -9.0, 20.0, -15.0, -28.0, 0.0, 0.0, 0.0, 44.0, 0.0, -52.0, 39.0, 0.0, 45.0,
        68.0, 51.0]
    let segments : List Segment :=
      [⟨⟨-4.0, -3.0⟩, ⟨-7.2, -4.8⟩⟩, ⟨⟨0.0, -3.0⟩, ⟨0.0, -6.0⟩⟩, ⟨⟨4.0, -3.0⟩, ⟨7.2, -4.8⟩⟩,
        ⟨⟨-4.0, 0.0⟩, ⟨-8.0, 0.0⟩⟩, ⟨⟨0.0, 0.0⟩, ⟨0.0, 0.0⟩⟩, ⟨⟨4.0, 0.0⟩, ⟨8.0, 0.0⟩⟩,
        ⟨⟨-4.0, 3.0⟩, ⟨-7.2, 4.8⟩⟩, ⟨⟨0.0, 3.0⟩, ⟨0.0, 6.0⟩⟩, ⟨⟨4.0, 3.0⟩, ⟨7.2, 4.8⟩⟩]
    let picture := pictureOf canvas domain field
    (sample table canvas components domain).run ⟨0, ""⟩ = (.ok field, ⟨18, ""⟩) ∧
      picture.segments = segments ∧ picture.dots = picture.segments.map (·.tip) ∧
      (∀ (session : Session Nat) axes, session.console = ⟨0, ""⟩ →
        (render table canvas components domain axes).run session =
          (.ok (), { session with
            axes := some { axes with picture := some picture }
            console := ⟨18, ""⟩ })) ∧
      (visitAll table (components.visits (gridPoints field.xs field.ys))).run 0 =
        (.ok values, 18) ∧
      IsLength 68.0 51.0 85.0 := by
  intro table next components canvas domain field values segments picture
  have sampled : (sample table canvas components domain).run ⟨0, ""⟩ = (.ok field, ⟨18, ""⟩) :=
    eq_of_toOption (by decide +kernel) (by decide +kernel)
  have evaluated : (visitAll table (components.visits (gridPoints field.xs field.ys))).run 0 =
      (.ok values, 18) :=
    eq_of_toOption (by decide +kernel) (by decide +kernel)
  obtain ⟨count, isCount, isXs, isYs, -, -, -, -, rendered, _, visited, -, -, numbered⟩ :=
    drawn_as_sampled sampled
  have isThree : count = 3 := Int.ofNat.inj isCount.symm
  subst isThree
  rw [← isXs, ← isYs] at visited
  cases evaluated.symm.trans visited
  obtain ⟨x, y, u, v, -, -, -, isU, -, isV, isLength, -⟩ := numbered 8 (by decide)
  cases isU
  cases isV
  have eightyFive : lengthOf 68.0 51.0 = 85.0 := by decide +kernel
  rw [eightyFive] at isLength
  have usable : domain.isUsable = true := by decide +kernel
  have drawn : picture.segments = segments := by decide +kernel
  exact ⟨sampled, drawn, rfl, rendered usable, evaluated, isLength⟩

end DirectionField
