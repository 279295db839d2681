/-
This file holds the grammar of expressions, in five layers. It says which token lists are
expressions and what their trees are, without saying how they are read. Every node keeps the token
that it stands for: an operator, a sign, a number, or the name of a variable, constant or function.

The layers of the five operators are treated alike from then on. A phrase of one layer is a phrase
of every looser one, and an operator takes a phrase of its left layer and a phrase of its right one.
-/

import DirectionField.Expr
import DirectionField.Symbols

namespace DirectionField

/-! ### Lists with commas -/

/-- A token list consists of the given parts, with a comma in front of each. -/
inductive Preceded : List (List Token) → List Token → Prop
  | nil : Preceded [] []
  | cons {comma : Token} {part tokens : List Token} {parts : List (List Token)}
      (isComma : comma.isMark .comma) (others : Preceded parts tokens) :
      Preceded (part :: parts) (comma :: part ++ tokens)

/-- A token list consists of the given parts, with commas between them. -/
inductive Separated : List (List Token) → List Token → Prop
  | nil : Separated [] []
  | cons {part tokens : List Token} {parts : List (List Token)}
      (others : Preceded parts tokens) : Separated (part :: parts) (part ++ tokens)

section

variable {Result : Type} {gather : Expr → List Result} {extract : Token → Option Result}
  {arguments : List (List Token × Expr)} {tokens : List Token}

/-- If commas give nothing, what the parts of a list give is what the whole list gives. -/
theorem flatMap_of_preceded (quiet : ∀ comma : Token, comma.isMark .comma → extract comma = none)
    (preceded : Preceded (arguments.map Prod.fst) tokens)
    (each : ∀ argument ∈ arguments, gather argument.2 = argument.1.filterMap extract) :
    (arguments.map Prod.snd).flatMap gather = tokens.filterMap extract := by
  induction arguments generalizing tokens with
  | nil =>
    cases preceded
    rfl
  | cons argument rest inductionHypothesis =>
    obtain ⟨first, remaining⟩ := List.forall_mem_cons.mp each
    cases preceded with
    | cons isComma others =>
      rw [List.map_cons, List.flatMap_cons, first, inductionHypothesis others remaining,
        List.cons_append, List.filterMap_cons_none (quiet _ isComma), List.filterMap_append]

theorem flatMap_of_separated (quiet : ∀ comma : Token, comma.isMark .comma → extract comma = none)
    (separated : Separated (arguments.map Prod.fst) tokens)
    (each : ∀ argument ∈ arguments, gather argument.2 = argument.1.filterMap extract) :
    (arguments.map Prod.snd).flatMap gather = tokens.filterMap extract := by
  cases arguments with
  | nil =>
    cases separated
    rfl
  | cons argument rest =>
    obtain ⟨first, remaining⟩ := List.forall_mem_cons.mp each
    cases separated with
    | cons others =>
      rw [List.map_cons, List.flatMap_cons, first, flatMap_of_preceded quiet others remaining,
        List.filterMap_append]

end

/-! ### The grammar -/

/-- The layers of the grammar, from the loosest to the tightest. -/
inductive Level
  | sum
  | product
  | power
  | signed
  | primary
deriving DecidableEq, Repr, Inhabited

/-- A token list is a phrase of a layer, with the given tree. -/
inductive Derives {State : Type} (table : SymbolTable State) : Level → List Token → Expr → Prop
  /-- A sum is a sum, a plus or a minus, and a product. -/
  | sum {left right : List Token} {token : Token} {operator : Operator} {leftTree rightTree : Expr}
      (isOperator : token.operator? = some operator)
      (isSum : operator = .add ∨ operator = .subtract)
      (fromLeft : Derives table .sum left leftTree)
      (fromRight : Derives table .product right rightTree) :
      Derives table .sum (left ++ token :: right) (.binary operator leftTree rightTree token)
  /-- A product is a sum. -/
  | ofProduct {tokens : List Token} {tree : Expr} (phrase : Derives table .product tokens tree) :
      Derives table .sum tokens tree
  /-- A product is a product, a star or a slash, and a power. -/
  | product {left right : List Token} {token : Token} {operator : Operator}
      {leftTree rightTree : Expr} (isOperator : token.operator? = some operator)
      (isProduct : operator = .multiply ∨ operator = .divide)
      (fromLeft : Derives table .product left leftTree)
      (fromRight : Derives table .power right rightTree) :
      Derives table .product (left ++ token :: right) (.binary operator leftTree rightTree token)
  /-- A power is a product. -/
  | ofPower {tokens : List Token} {tree : Expr} (phrase : Derives table .power tokens tree) :
      Derives table .product tokens tree
  /-- A power is a signed primary, a caret, and a power. -/
  | power {left right : List Token} {token : Token} {leftTree rightTree : Expr}
      (isOperator : token.operator? = some .power)
      (fromLeft : Derives table .signed left leftTree)
      (fromRight : Derives table .power right rightTree) :
      Derives table .power (left ++ token :: right) (.binary .power leftTree rightTree token)
  /-- A signed primary is a power. -/
  | ofSigned {tokens : List Token} {tree : Expr} (phrase : Derives table .signed tokens tree) :
      Derives table .power tokens tree
  /-- A signed primary may have any number of signs in front. -/
  | signed {token : Token} {tokens : List Token} {sign : Sign} {tree : Expr}
      (isSign : token.sign? = some sign) (phrase : Derives table .signed tokens tree) :
      Derives table .signed (token :: tokens) (.unary sign tree token)
  /-- A signed primary may have no sign. -/
  | ofPrimary {tokens : List Token} {tree : Expr} (phrase : Derives table .primary tokens tree) :
      Derives table .signed tokens tree
  /-- A number is a primary. -/
  | number {token : Token} {value : Float} (isNumber : token.lexeme = .number value) :
      Derives table .primary [token] (.number value token)
  /-- The name of a variable is a primary. -/
  | var {token : Token} {name : String} (isName : token.lexeme = .name name)
      (isVariable : table.isVariable name = true) :
      Derives table .primary [token] (.var name token)
  /-- The name of a constant that is no variable is a primary. -/
  | const {token : Token} {name : String} (isName : token.lexeme = .name name)
      (notVariable : table.isVariable name = false)
      (isConstant : (table.constant? name).isSome = true) :
      Derives table .primary [token] (.const name token)
  /-- The name of a function that is neither a variable nor a constant is a primary together with
  as many arguments as the arity says, in brackets and with commas between them. -/
  | call {token opening closing : Token} {inside : List Token} {name : String}
      {function : Function State} {arguments : List (List Token × Expr)}
      (isName : token.lexeme = .name name) (notVariable : table.isVariable name = false)
      (notConstant : table.constant? name = none)
      (isFunction : table.function? name = some function)
      (isOpening : opening.isMark .opening) (isClosing : closing.isMark .closing)
      (count : arguments.length = function.arity.toNat)
      (separated : Separated (arguments.map Prod.fst) inside)
      (each : ∀ argument ∈ arguments, Derives table .sum argument.1 argument.2) :
      Derives table .primary (token :: opening :: inside ++ [closing])
        (.call name (arguments.map Prod.snd) token)
  /-- A sum in brackets is a primary. -/
  | brackets {opening closing : Token} {inside : List Token} {tree : Expr}
      (isOpening : opening.isMark .opening) (isClosing : closing.isMark .closing)
      (phrase : Derives table .sum inside tree) :
      Derives table .primary (opening :: inside ++ [closing]) tree

/-! ### Layers -/

namespace Level

/-- Tighter layers have greater ranks. -/
def rank : Level → Nat
  | sum => 1
  | product => 2
  | power => 3
  | signed => 4
  | primary => 5

/-- The next tighter layer. -/
def tighter : Level → Level
  | sum => product
  | product => power
  | power => signed
  | signed | primary => primary

theorem rank_sum_le (level : Level) : sum.rank ≤ level.rank := by
  cases level <;> decide

theorem rank_le_primary (level : Level) : level.rank ≤ primary.rank := by
  cases level <;> decide

theorem eq_or_tighter {low high : Level} (looser : low.rank ≤ high.rank) :
    low = high ∨ low.tighter.rank ≤ high.rank ∧ low.rank < low.tighter.rank := by
  revert looser
  cases low <;> cases high <;> decide

end Level

namespace Operator

/-- The layer of an operation. -/
def level : Operator → Level
  | add | subtract => .sum
  | multiply | divide => .product
  | power => .power

/-- The layer of the left operand of an operator. -/
def leftLevel : Operator → Level
  | add | subtract => .sum
  | multiply | divide => .product
  | power => .signed

/-- The layer of the right operand of an operator. -/
def rightLevel : Operator → Level
  | add | subtract => .product
  | multiply | divide | power => .power

theorem rank_level (operator : Operator) : operator.level.rank = operator.strength := by
  cases operator <;> rfl

end Operator

section

variable {State : Type} {table : SymbolTable State}

namespace Derives

theorem ofTighter {level : Level} {tokens : List Token} {tree : Expr}
    (phrase : Derives table level.tighter tokens tree) : Derives table level tokens tree := by
  cases level with
  | sum => exact .ofProduct phrase
  | product => exact .ofPower phrase
  | power => exact .ofSigned phrase
  | signed => exact .ofPrimary phrase
  | primary => exact phrase

/-- A phrase of one layer is a phrase of every looser one. -/
theorem loosen {low high : Level} {tokens : List Token} {tree : Expr}
    (phrase : Derives table high tokens tree) (looser : low.rank ≤ high.rank) :
    Derives table low tokens tree := by
  rcases Level.eq_or_tighter looser with rfl | ⟨between, closer⟩
  · exact phrase
  · exact ofTighter (loosen phrase between)
termination_by high.rank - low.rank
decreasing_by omega

/-- An operator takes a phrase of its left layer and a phrase of its right one. -/
theorem binary {left right : List Token} {token : Token} {operator : Operator}
    {leftTree rightTree : Expr} (isOperator : token.operator? = some operator)
    (fromLeft : Derives table operator.leftLevel left leftTree)
    (fromRight : Derives table operator.rightLevel right rightTree) :
    Derives table operator.level (left ++ token :: right)
      (.binary operator leftTree rightTree token) := by
  cases operator with
  | add => exact .sum isOperator (Or.inl rfl) fromLeft fromRight
  | subtract => exact .sum isOperator (Or.inr rfl) fromLeft fromRight
  | multiply => exact .product isOperator (Or.inl rfl) fromLeft fromRight
  | divide => exact .product isOperator (Or.inr rfl) fromLeft fromRight
  | power => exact .power isOperator fromLeft fromRight

end Derives

/-! ### Argument lists -/

variable (table) in
/-- A token list consists of the given number of expressions, with a comma in front of each. -/
def DerivesOthers (count : Nat) (tokens : List Token) (trees : List Expr) : Prop :=
  ∃ arguments : List (List Token × Expr), arguments.length = count ∧
    arguments.map Prod.snd = trees ∧ Preceded (arguments.map Prod.fst) tokens ∧
      ∀ argument ∈ arguments, Derives table .sum argument.1 argument.2

variable (table) in
/-- A token list consists of the given number of expressions, with commas between them. -/
def DerivesArguments (count : Nat) (tokens : List Token) (trees : List Expr) : Prop :=
  ∃ arguments : List (List Token × Expr), arguments.length = count ∧
    arguments.map Prod.snd = trees ∧ Separated (arguments.map Prod.fst) tokens ∧
      ∀ argument ∈ arguments, Derives table .sum argument.1 argument.2

theorem DerivesOthers.zero : DerivesOthers table 0 [] [] :=
  ⟨[], rfl, rfl, .nil, nofun⟩

theorem DerivesOthers.succ {comma : Token} {part tokens : List Token} {tree : Expr}
    {trees : List Expr} {more : Nat} (isComma : comma.isMark .comma)
    (first : Derives table .sum part tree) (others : DerivesOthers table more tokens trees) :
    DerivesOthers table (more + 1) (comma :: part ++ tokens) (tree :: trees) := by
  obtain ⟨arguments, rfl, rfl, preceded, each⟩ := others
  exact ⟨(part, tree) :: arguments, rfl, rfl, .cons isComma preceded,
    List.forall_mem_cons.mpr ⟨first, each⟩⟩

theorem DerivesArguments.zero : DerivesArguments table 0 [] [] :=
  ⟨[], rfl, rfl, .nil, nofun⟩

theorem DerivesArguments.succ {part tokens : List Token} {tree : Expr} {trees : List Expr}
    {more : Nat} (first : Derives table .sum part tree)
    (others : DerivesOthers table more tokens trees) :
    DerivesArguments table (more + 1) (part ++ tokens) (tree :: trees) := by
  obtain ⟨arguments, rfl, rfl, preceded, each⟩ := others
  exact ⟨(part, tree) :: arguments, rfl, rfl, .cons preceded,
    List.forall_mem_cons.mpr ⟨first, each⟩⟩

/-- A call of the function that a name refers to. -/
theorem Derives.callOf {token opening closing : Token} {inside : List Token} {name : String}
    {arity : Int} {trees : List Expr} (isName : token.lexeme = .name name)
    (isFunction : table.resolve? name = some (.function arity))
    (isOpening : opening.isMark .opening) (isClosing : closing.isMark .closing)
    (arguments : DerivesArguments table arity.toNat inside trees) :
    Derives table .primary (token :: opening :: inside ++ [closing]) (.call name trees token) := by
  obtain ⟨notVariable, notConstant, function, found, rfl⟩ :=
    SymbolTable.resolve?_eq_function_iff.mp isFunction
  obtain ⟨arguments, count, rfl, separated, each⟩ := arguments
  exact .call isName notVariable notConstant found isOpening isClosing count separated each

end

end DirectionField
