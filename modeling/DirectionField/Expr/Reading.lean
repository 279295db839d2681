/-
This file reads expressions from token lists. An expression is a chain of operands with operators
between them; an operand is a number, a name, a call, an expression in brackets, or a signed
operand. Chains are folded by the strength of their operators, from left to right.

Every reading hands on the tokens that it leaves unread, and a proof that they are few enough. That
proof is what the recursion ends by. A reading that gets stuck says what it wanted and hands on the
tokens from the first impossible one on.
-/

import DirectionField.Diagnostic
import DirectionField.Expr
import DirectionField.Symbols

namespace DirectionField

/-! ### Readings -/

/-- What the next token has to be. -/
inductive Wanted
  | operand
  | knownName
  | opening
  | closing
  | comma
  | finish
deriving DecidableEq, Repr, Inhabited

/-- A reading that got stuck: what it wanted, and the tokens that were unread then. -/
structure Stuck where
  wanted : Wanted
  unread : List Token
deriving DecidableEq, Repr, Inhabited

/-- A reading that succeeded: its result, and the unread tokens, of which there are fewer than the
limit. -/
structure Reading (Result : Type) (limit : Nat) where
  result : Result
  unread : List Token
  within : unread.length < limit

/-- Read a mark. -/
def readMark (kind : Mark) (wanted : Wanted) (tokens : List Token) :
    Except Stuck (Reading Unit tokens.length) :=
  match tokens with
  | [] => throw ⟨wanted, []⟩
  | token :: rest =>
    if token.isMark kind then
      return ⟨(), rest, Nat.lt_succ_self _⟩
    else
      throw ⟨wanted, token :: rest⟩

/-! ### The limit of a chain -/

/-- The operator at the front of a token list. -/
def frontOperator? (tokens : List Token) : Option Operator :=
  tokens.head?.bind Token.operator?

/-- The limit of the tokens that a chain leaves unread. A chain that starts with an operator of at
least the given strength takes the operator and a right operand; any other may take nothing. -/
def chainLimit (least : Nat) (tokens : List Token) : Nat :=
  match frontOperator? tokens with
  | some operator => if least ≤ operator.strength then tokens.length - 1 else tokens.length + 1
  | none => tokens.length + 1

theorem chainLimit_of_le {least : Nat} {token : Token} {rest : List Token} {operator : Operator}
    (isOperator : token.operator? = some operator) (enough : least ≤ operator.strength) :
    chainLimit least (token :: rest) = rest.length := by
  simp [chainLimit, frontOperator?, isOperator, enough]

theorem lt_chainLimit_of_lt {least : Nat} {token : Token} {rest : List Token}
    {operator : Operator} (isOperator : token.operator? = some operator)
    (weaker : operator.strength < least) :
    (token :: rest).length < chainLimit least (token :: rest) := by
  simp [chainLimit, frontOperator?, isOperator, Nat.not_le_of_lt weaker]

theorem lt_chainLimit_of_none (least : Nat) {tokens : List Token}
    (isNone : frontOperator? tokens = none) :
    tokens.length < chainLimit least tokens := by
  simp [chainLimit, isNone]

theorem chainLimit_le (least : Nat) (tokens : List Token) :
    chainLimit least tokens ≤ tokens.length + 1 := by
  unfold chainLimit
  split
  · split <;> omega
  · exact Nat.le_refl _

/-! ### Expressions -/

section

variable {State : Type} (table : SymbolTable State)

mutual

/-- Read an operand and all operators and operands that follow it. -/
def readExpression (tokens : List Token) : Except Stuck (Reading Expr tokens.length) := do
  let ⟨first, others, _⟩ ← readOperand tokens
  let ⟨whole, unread, _⟩ ← readChain 0 first others
  return ⟨whole, unread, by have := chainLimit_le 0 others; omega⟩
termination_by 4 * tokens.length + 2

/-- Read an operand: what stands on one side of an operator. -/
def readOperand (tokens : List Token) : Except Stuck (Reading Expr tokens.length) :=
  match tokens with
  | [] => throw ⟨.operand, []⟩
  | token :: rest =>
    match token.lexeme with
    | .number value => return ⟨.number value token, rest, Nat.lt_succ_self _⟩
    | .name name =>
      match table.resolve? name with
      | none => throw ⟨.knownName, token :: rest⟩
      | some .var => return ⟨.var name token, rest, Nat.lt_succ_self _⟩
      | some .const => return ⟨.const name token, rest, Nat.lt_succ_self _⟩
      | some (.function arity) => do
        let ⟨_, unread, _⟩ ← readMark .opening .opening rest
        let ⟨arguments, unread, _⟩ ← readArguments arity.toNat unread
        let ⟨_, unread, _⟩ ← readMark .closing .closing unread
        return ⟨.call name arguments token, unread, by simp only [List.length_cons]; omega⟩
    | .mark .opening _ => do
      let ⟨inner, unread, _⟩ ← readExpression rest
      let ⟨_, unread, _⟩ ← readMark .closing .closing unread
      return ⟨inner, unread, by simp only [List.length_cons]; omega⟩
    | .mark kind _ =>
      match kind.sign? with
      | none => throw ⟨.operand, token :: rest⟩
      | some sign => do
        let ⟨operand, unread, _⟩ ← readOperand rest
        return ⟨.unary sign operand token, unread, by simp only [List.length_cons]; omega⟩
termination_by 4 * tokens.length + 1

/-- Read the given number of arguments, with commas between them. -/
def readArguments (count : Nat) (tokens : List Token) :
    Except Stuck (Reading (List Expr) (tokens.length + 1)) :=
  match count with
  | 0 => return ⟨[], tokens, Nat.lt_succ_self _⟩
  | more + 1 => do
    let ⟨first, unread, _⟩ ← readExpression tokens
    let ⟨others, unread, _⟩ ← readOtherArguments more unread
    return ⟨first :: others, unread, by omega⟩
termination_by 4 * tokens.length + 3

/-- Read the given number of further arguments, with a comma before each. -/
def readOtherArguments (count : Nat) (tokens : List Token) :
    Except Stuck (Reading (List Expr) (tokens.length + 1)) :=
  match count with
  | 0 => return ⟨[], tokens, Nat.lt_succ_self _⟩
  | more + 1 => do
    let ⟨_, unread, _⟩ ← readMark .comma .comma tokens
    let ⟨next, unread, _⟩ ← readExpression unread
    let ⟨others, unread, _⟩ ← readOtherArguments more unread
    return ⟨next :: others, unread, by omega⟩
termination_by 4 * tokens.length + 3

/-- Fold the operators of at least the given strength that follow a left operand into it. Before an
operator is folded, its right operand takes over the operators that belong to it. -/
def readChain (least : Nat) (left : Expr) (tokens : List Token) :
    Except Stuck (Reading Expr (chainLimit least tokens)) :=
  match tokens with
  | [] => return ⟨left, [], lt_chainLimit_of_none least rfl⟩
  | token :: rest =>
    match isOperator : token.operator? with
    | none => return ⟨left, token :: rest, lt_chainLimit_of_none least isOperator⟩
    | some operator =>
      if enough : least ≤ operator.strength then do
        let ⟨next, others, _⟩ ← readOperand rest
        let ⟨right, others, _⟩ ← readRight operator next others
        let ⟨whole, unread, _⟩ ← readChain least (.binary operator left right token) others
        return ⟨whole, unread, by
          have := chainLimit_le least others
          rw [chainLimit_of_le isOperator enough]
          omega⟩
      else
        return ⟨left, token :: rest, lt_chainLimit_of_lt isOperator (Nat.lt_of_not_le enough)⟩
termination_by 4 * tokens.length

/-- Fold the operators that belong to the right operand of an operator into it, as long as one
follows. -/
def readRight (operator : Operator) (right : Expr) (tokens : List Token) :
    Except Stuck (Reading Expr (tokens.length + 1)) :=
  match tokens with
  | [] => return ⟨right, [], Nat.lt_succ_self _⟩
  | token :: rest =>
    match isOperator : token.operator? with
    | none => return ⟨right, token :: rest, Nat.lt_succ_self _⟩
    | some next =>
      if operator.yieldsTo next then do
        let ⟨longer, unread, within⟩ ← readChain next.strength right (token :: rest)
        have : unread.length < rest.length :=
          Nat.lt_of_lt_of_eq within (chainLimit_of_le isOperator (Nat.le_refl _))
        let ⟨whole, unread, _⟩ ← readRight operator longer unread
        return ⟨whole, unread, by simp only [List.length_cons]; omega⟩
      else
        return ⟨right, token :: rest, Nat.lt_succ_self _⟩
termination_by 4 * tokens.length + 1

end

/-- Read a whole token list as one expression. -/
def readAll (tokens : List Token) : Except Stuck Expr := do
  match ← readExpression table tokens with
  | ⟨whole, [], _⟩ => return whole
  | ⟨_, token :: rest, _⟩ => throw ⟨.finish, token :: rest⟩

end

/-! ### Errors -/

/-- The message about a token that is not what was wanted. -/
def Wanted.messageAt (wanted : Wanted) (found : String) : String :=
  let quoted := "\"" ++ found ++ "\""
  match wanted with
  | operand => "Unexpected token " ++ quoted
  | knownName => "Unrecognized identifier " ++ quoted
  | opening => "Expected opening parenthesis, got " ++ quoted
  | closing => "Expected closing parenthesis, got " ++ quoted
  | comma => "Expected comma, got " ++ quoted
  | finish => "Expected end of expression, got " ++ quoted

/-- The message about tokens that end too early. -/
def Wanted.messageAtEnd : Wanted → String
  | operand => "Unexpected end of expression"
  | knownName => "Expected identifier"
  | opening => "Expected opening parenthesis"
  | closing => "Expected closing parenthesis"
  | comma => "Expected comma"
  | finish => "Expected end of expression"

/-- A token list that is no expression: a token is not what was wanted, or the tokens end early, at
an index of their source. -/
inductive ReadError
  | atToken (wanted : Wanted) (token : Token)
  | atEnd (wanted : Wanted) (source : String) (index : Int)
deriving DecidableEq, Repr, Inhabited

namespace ReadError

/-- The token that is not what was wanted. -/
def token? : ReadError → Option Token
  | atToken _ token => some token
  | atEnd .. => none

/-- What is said about an error of reading. -/
def diagnostic : ReadError → Diagnostic
  | atToken wanted token => .ofToken (wanted.messageAt token.lexeme.text) token
  | atEnd wanted source index => ⟨wanted.messageAtEnd, source, index, 1⟩

end ReadError

/-- The index at which a token list ends: after its last token, or after the whole source if there
is no token. -/
def endIndex (source : String) (tokens : List Token) : Int :=
  match tokens.getLast? with
  | some last => last.finish
  | none => source.length

/-- The error that a stuck reading of a token list is. -/
def Stuck.error (stuck : Stuck) (source : String) (tokens : List Token) : ReadError :=
  match stuck.unread with
  | token :: _ => .atToken stuck.wanted token
  | [] => .atEnd stuck.wanted source (endIndex source tokens)

/-- The source text of a token list is that of its first token. -/
def sourceOf (tokens : List Token) : String :=
  (tokens.head?.map Token.source).getD ""

/-- The expression that a token list stands for. The source text is where an early end is
reported. -/
def Expr.ofTokens {State : Type} (table : SymbolTable State) (tokens : List Token)
    (source : String := sourceOf tokens) : Except ReadError Expr :=
  (readAll table tokens).mapError (·.error source tokens)

end DirectionField
