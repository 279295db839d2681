/-
This file holds the standard symbol table: the coordinates `x` and `y`, the constants `pi` and `e`,
and the elementary functions. The source of random numbers is left open.
-/

import DirectionField.Symbols

namespace DirectionField

/-! ### Functions that are not elementary operations of doubles -/

/-- The nearest integer, and the greater one halfway between two. -/
def roundHalfUp (number : Float) : Float :=
  let below := number.floor
  if number - below ≥ 0.5 then below + 1.0 else below

/-- The greater of two numbers. What is not a number prevails. -/
def greater (left right : Float) : Float :=
  if left.isNaN || right.isNaN then 0.0 / 0.0 else if left < right then right else left

/-- The lesser of two numbers. What is not a number prevails. -/
def lesser (left right : Float) : Float :=
  if left.isNaN || right.isNaN then 0.0 / 0.0 else if right < left then right else left

/-! ### The table -/

/-- The functions that every expression may call, given what a call of `random` draws. -/
def standardFunctions {State : Type} (random : StateM State Float) :
    List (String × Function State) :=
  [("abs", .unary Float.abs),
   ("acos", .unary Float.acos),
   ("acosh", .unary Float.acosh),
   ("asin", .unary Float.asin),
   ("asinh", .unary Float.asinh),
   ("atan2", .binary Float.atan2),
   ("atan", .unary Float.atan),
   ("atanh", .unary Float.atanh),
   ("ceil", .unary Float.ceil),
   ("cos", .unary Float.cos),
   ("floor", .unary Float.floor),
   ("ln", .unary Float.log),
   ("log2", .unary Float.log2),
   ("log", .unary Float.log10),
   ("max", .binary greater),
   ("min", .binary lesser),
   ("random", .drawing random),
   ("round", .unary roundHalfUp),
   ("sin", .unary Float.sin),
   ("sqrt", .unary Float.sqrt),
   ("tan", .unary Float.tan)]

/-- The standard symbol table, given what a call of `random` draws. -/
def standardTable {State : Type} (random : StateM State Float) : SymbolTable State where
  variableNames := ["x", "y"]
  constants := [("pi", 3.141592653589793), ("e", 2.718281828459045)]
  functions := standardFunctions random

/-- No standard function has a negative arity. -/
theorem zero_le_arity_of_standard {State : Type} {random : StateM State Float} {name : String}
    {function : Function State}
    (isFunction : (standardTable random).function? name = some function) : 0 ≤ function.arity := by
  have all : (standardFunctions random).all (fun entry => 0 ≤ entry.2.arity) = true := rfl
  exact of_decide_eq_true
    (List.all_eq_true.mp all (name, function) (SymbolTable.mem_of_function? isFunction))

end DirectionField
