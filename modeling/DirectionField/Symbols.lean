/-
This file holds symbol tables: the names that an expression may use, as variables, as constants or
as functions. A function may read and change a state, so that a counter or a source of random
numbers is a function like any other.
-/

namespace DirectionField

/-! ### Functions -/

/-- A function of the table: the number of arguments of every call, and what a call does. -/
structure Function (State : Type) where
  arity : Int
  apply : List Float → StateM State Float

namespace Function

variable {State : Type}

/-- A function without arguments that draws its value from the state. -/
def drawing (draw : StateM State Float) : Function State :=
  ⟨0, fun _ => draw⟩

/-- A function of one argument. A call with another number of arguments has no value. -/
def unary (compute : Float → Float) : Function State where
  arity := 1
  apply
    | [only] => pure (compute only)
    | _ => pure (0.0 / 0.0)

/-- A function of two arguments. A call with another number of arguments has no value. -/
def binary (compute : Float → Float → Float) : Function State where
  arity := 2
  apply
    | [first, second] => pure (compute first second)
    | _ => pure (0.0 / 0.0)

end Function

/-! ### Tables -/

/-- What an occurrence of a name refers to. -/
inductive Reference
  | var
  | const
  | function (arity : Int)
deriving DecidableEq, Repr, Inhabited

/-- The names that expressions may use, in the order in which they are listed. -/
structure SymbolTable (State : Type) where
  variableNames : List String
  constants : List (String × Float)
  functions : List (String × Function State)

/-- Enter a value under a name. A name that is already entered keeps its place and takes the new
value. -/
def enter {Value : Type} (entries : List (String × Value)) (name : String) (value : Value) :
    List (String × Value) :=
  if (entries.lookup name).isSome then
    entries.map fun entry => if entry.1 = name then (name, value) else entry
  else
    entries ++ [(name, value)]

theorem lookup_enter_other {Value : Type} (entries : List (String × Value)) {name other : String}
    (value : Value) (different : other ≠ name) :
    (enter entries name value).lookup other = entries.lookup other := by
  have absent : (other == name) = false := beq_false_of_ne different
  unfold enter
  split
  · next entered =>
    clear entered
    induction entries with
    | nil => rfl
    | cons entry rest inductionHypothesis =>
      by_cases same : entry.1 = name
      · rw [List.map_cons, if_pos same, List.lookup_cons, List.lookup_cons, same, absent]
        exact inductionHypothesis
      · rw [List.map_cons, if_neg same, List.lookup_cons, List.lookup_cons, inductionHypothesis]
  · rw [List.lookup_append, List.lookup_cons, absent]
    exact Option.or_none

theorem lookup_enter_self {Value : Type} (entries : List (String × Value)) (name : String)
    (value : Value) :
    (enter entries name value).lookup name = some value := by
  unfold enter
  split
  · next entered =>
    induction entries with
    | nil => cases entered
    | cons entry rest inductionHypothesis =>
      by_cases same : entry.1 = name
      · rw [List.map_cons, if_pos same, List.lookup_cons, beq_self_eq_true]
      · have absent : (name == entry.1) = false := beq_false_of_ne (Ne.symm same)
        rw [List.lookup_cons, absent] at entered
        rw [List.map_cons, if_neg same, List.lookup_cons, absent]
        exact inductionHypothesis entered
  · next fresh =>
    rw [List.lookup_append, Option.not_isSome_iff_eq_none.mp fresh, List.lookup_cons,
      beq_self_eq_true]
    rfl

namespace SymbolTable

variable {State : Type}

/-- The table with the given entries, each name being entered in turn. -/
def ofEntries (variableNames : List String) (constants : List (String × Float))
    (functions : List (String × Function State)) : SymbolTable State where
  variableNames := variableNames
  constants := constants.foldl (fun entries entry => enter entries entry.1 entry.2) []
  functions := functions.foldl (fun entries entry => enter entries entry.1 entry.2) []

/-- Whether a name is a variable. -/
def isVariable (table : SymbolTable State) (name : String) : Bool :=
  table.variableNames.contains name

/-- The value of a constant. -/
def constant? (table : SymbolTable State) (name : String) : Option Float :=
  table.constants.lookup name

/-- The function of a name. -/
def function? (table : SymbolTable State) (name : String) : Option (Function State) :=
  table.functions.lookup name

theorem mem_of_function? {table : SymbolTable State} {name : String} {function : Function State}
    (isFunction : table.function? name = some function) : (name, function) ∈ table.functions := by
  obtain ⟨before, after, split, -⟩ := List.lookup_eq_some_iff.mp isFunction
  rw [split]
  exact List.mem_append_right before (List.mem_cons_self ..)

/-- What a name refers to: a variable before a constant, and a constant before a function. -/
def resolve? (table : SymbolTable State) (name : String) : Option Reference :=
  if table.isVariable name then
    some .var
  else if (table.constant? name).isSome then
    some .const
  else
    (table.function? name).map fun function => .function function.arity

theorem resolve?_eq_var_iff {table : SymbolTable State} {name : String} :
    table.resolve? name = some .var ↔ table.isVariable name = true := by
  unfold resolve?
  split
  · next isVariable => simp [isVariable]
  · next notVariable => split <;> simp [notVariable]

theorem resolve?_eq_const_iff {table : SymbolTable State} {name : String} :
    table.resolve? name = some .const ↔
      table.isVariable name = false ∧ (table.constant? name).isSome = true := by
  unfold resolve?
  split
  · next isVariable => simp [isVariable]
  · next notVariable =>
    split
    · next isConstant => simp [notVariable, isConstant]
    · next notConstant => simp [notConstant]

theorem resolve?_eq_function_iff {table : SymbolTable State} {name : String} {arity : Int} :
    table.resolve? name = some (.function arity) ↔
      table.isVariable name = false ∧ table.constant? name = none ∧
        ∃ function, table.function? name = some function ∧ function.arity = arity := by
  unfold resolve?
  split
  · next isVariable => simp [isVariable]
  · next notVariable =>
    split
    · next isConstant => simp [Option.ne_none_iff_isSome.mpr isConstant]
    · next notConstant =>
      simp [notVariable, Option.not_isSome_iff_eq_none.mp notConstant, Option.map_eq_some_iff]

/-- Names with commas between them. -/
def listed (names : List String) : String :=
  String.intercalate ", " names

/-- The listing of all names, one line for each kind. -/
def listing (table : SymbolTable State) : String :=
  "Variables: " ++ listed table.variableNames ++ "\n" ++
  "Constants: " ++ listed (table.constants.map (·.1)) ++ "\n" ++
  "Functions: " ++ listed (table.functions.map (·.1)) ++ "\n"

end SymbolTable

end DirectionField
