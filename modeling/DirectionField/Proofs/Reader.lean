/-
This file takes the bounds off the readings of expressions. What is left is a state monad over the
unread tokens, in which every reading has an equation that says what it reads, one after the other.
-/

import DirectionField.Expr.Reading

namespace DirectionField

/-! ### Readers -/

/-- A computation that takes tokens from the front of the unread ones. -/
abbrev Reader : Type → Type :=
  StateT (List Token) (Except Stuck)

namespace Reader

variable {Result Outcome : Type}

/-- What a reading found, and what it left unread. -/
def plain {limit : Nat} (reading : Except Stuck (Reading Result limit)) :
    Except Stuck (Result × List Token) :=
  reading.map fun reading => (reading.result, reading.unread)

theorem exists_of_plain {limit : Nat} {attempt : Except Stuck (Reading Result limit)}
    {result : Result} {unread : List Token} (read : plain attempt = .ok (result, unread)) :
    ∃ reading, attempt = .ok reading ∧ reading.result = result ∧ reading.unread = unread := by
  cases attempt with
  | error stuck => cases read
  | ok reading =>
    cases read
    exact ⟨reading, rfl, rfl, rfl⟩

theorem length_lt_of_plain {limit : Nat} {attempt : Except Stuck (Reading Result limit)}
    {result : Result} {unread : List Token} (read : plain attempt = .ok (result, unread)) :
    unread.length < limit := by
  obtain ⟨reading, -, -, rfl⟩ := exists_of_plain read
  exact reading.within

theorem bind_ok {first : Reader Result} {next : Result → Reader Outcome}
    {tokens unread : List Token} {result : Result} (read : first tokens = .ok (result, unread)) :
    (first >>= next) tokens = next result unread := by
  show (first tokens >>= fun pair => next pair.1 pair.2) = _
  rw [read]
  rfl

theorem bind_error {first : Reader Result} {next : Result → Reader Outcome}
    {tokens : List Token} {stuck : Stuck} (failed : first tokens = .error stuck) :
    (first >>= next) tokens = .error stuck := by
  show (first tokens >>= fun pair => next pair.1 pair.2) = _
  rw [failed]
  rfl

/-- Readings in a row are readers in a row. -/
theorem plain_bind {limit last : Nat} {reading : Except Stuck (Reading Result limit)}
    {continuation : Reading Result limit → Except Stuck (Reading Outcome last)}
    {first : Reader Result} {next : Result → Reader Outcome} {tokens : List Token}
    (isFirst : first tokens = plain reading)
    (isNext : ∀ reading, plain (continuation reading) = next reading.result reading.unread) :
    plain (reading >>= continuation) = (first >>= next) tokens := by
  cases reading with
  | error stuck => exact (bind_error isFirst).symm
  | ok reading => exact (isNext reading).trans (bind_ok isFirst).symm

/-- Two readers in a row succeed when the second one succeeds on what the first one left. -/
theorem bind_eq_ok {first : Reader Result} {next : Result → Reader Outcome}
    {tokens unread : List Token} {outcome : Outcome}
    (read : (first >>= next) tokens = .ok (outcome, unread)) :
    ∃ result between, first tokens = .ok (result, between) ∧
      next result between = .ok (outcome, unread) := by
  cases firstRead : first tokens with
  | error stuck =>
    rw [bind_error firstRead] at read
    cases read
  | ok pair =>
    rw [bind_ok firstRead] at read
    exact ⟨pair.1, pair.2, rfl, read⟩

/-- Two readers in a row get stuck when the first one does, or the second one on what the first one
left. -/
theorem bind_eq_error {first : Reader Result} {next : Result → Reader Outcome}
    {tokens : List Token} {stuck : Stuck} (failed : (first >>= next) tokens = .error stuck) :
    first tokens = .error stuck ∨
      ∃ result between, first tokens = .ok (result, between) ∧
        next result between = .error stuck := by
  cases firstRead : first tokens with
  | error other =>
    rw [bind_error firstRead] at failed
    cases failed
    exact Or.inl rfl
  | ok pair =>
    rw [bind_ok firstRead] at failed
    exact Or.inr ⟨pair.1, pair.2, rfl, failed⟩

/-- Two continuations that agree on everything that the first reader may leave give the same. -/
theorem bind_congr_of_read {first : Reader Result} {next other : Result → Reader Outcome}
    {tokens : List Token}
    (same : ∀ result unread, first tokens = .ok (result, unread) →
      next result unread = other result unread) :
    (first >>= next) tokens = (first >>= other) tokens := by
  cases firstRead : first tokens with
  | error stuck => rw [bind_error firstRead, bind_error firstRead]
  | ok pair => rw [bind_ok firstRead, bind_ok firstRead, same pair.1 pair.2 firstRead]

/-- A first reader may be replaced together with the tokens that it reads. -/
theorem bind_congr_first {first other : Reader Result} {next : Result → Reader Outcome}
    {tokens rest : List Token} (same : first tokens = other rest) :
    (first >>= next) tokens = (other >>= next) rest := by
  show (first tokens >>= fun pair => next pair.1 pair.2) = _
  rw [same]
  rfl

/-! ### The readers of expressions -/

section

variable {State : Type} (table : SymbolTable State)

/-- Read a mark. -/
def mark (kind : Mark) (wanted : Wanted) : Reader Unit := fun tokens =>
  plain (readMark kind wanted tokens)

/-- Read an expression. -/
def expression : Reader Expr := fun tokens =>
  plain (readExpression table tokens)

/-- Read an operand. -/
def operand : Reader Expr := fun tokens =>
  plain (readOperand table tokens)

/-- Read the given number of arguments. -/
def arguments (count : Nat) : Reader (List Expr) := fun tokens =>
  plain (readArguments table count tokens)

/-- Read the given number of further arguments. -/
def others (count : Nat) : Reader (List Expr) := fun tokens =>
  plain (readOtherArguments table count tokens)

/-- Fold the operators of at least the given strength that follow a left operand. -/
def chain (least : Nat) (left : Expr) : Reader Expr := fun tokens =>
  plain (readChain table least left tokens)

/-- Fold the operators that belong to the right operand of an operator. -/
def right (operator : Operator) (first : Expr) : Reader Expr := fun tokens =>
  plain (readRight table operator first tokens)

/-- Read an operand, and fold the operators of at least the given strength that follow it. -/
def phrase (least : Nat) : Reader Expr := do
  let first ← operand table
  chain table least first

theorem expression_eq : expression table = phrase table 0 := by
  funext tokens
  unfold expression
  rw [readExpression]
  refine plain_bind rfl fun reading => ?_
  rw [← bind_pure (chain table 0 reading.result)]
  exact plain_bind rfl fun _ => rfl

theorem mark_of_isMark {kind : Mark} {token : Token} (isMark : token.isMark kind)
    (wanted : Wanted) (rest : List Token) :
    mark kind wanted (token :: rest) = .ok ((), rest) := by
  unfold mark readMark
  dsimp only
  rw [if_pos isMark]
  rfl

/-- A mark is missing at the end and in front of any other token. -/
theorem mark_of_missing {kind : Mark} {tokens : List Token}
    (missing : ∀ token, tokens.head? = some token → ¬token.isMark kind) (wanted : Wanted) :
    mark kind wanted tokens = .error ⟨wanted, tokens⟩ := by
  unfold mark readMark
  cases tokens with
  | nil => rfl
  | cons token rest =>
    dsimp only
    rw [if_neg (missing token rfl)]
    rfl

/-- Either a token list starts with a mark, or the mark is missing. -/
theorem isMark_or_missing (kind : Mark) (tokens : List Token) :
    (∃ token rest, tokens = token :: rest ∧ token.isMark kind) ∨
      ∀ token, tokens.head? = some token → ¬token.isMark kind := by
  cases tokens with
  | nil => exact Or.inr fun _ front => nomatch front
  | cons token rest =>
    by_cases isMark : token.isMark kind
    · exact Or.inl ⟨token, rest, rfl, isMark⟩
    · refine Or.inr fun other front => ?_
      cases front
      exact isMark

/-- What an operand may begin with, and what it may not. -/
inductive Beginning (token : Token) : Prop
  | number (value : Float) (isNumber : token.lexeme = .number value)
  | unknown (name : String) (isName : token.lexeme = .name name)
      (isUnknown : table.resolve? name = none)
  | var (name : String) (isName : token.lexeme = .name name)
      (isVar : table.resolve? name = some .var)
  | const (name : String) (isName : token.lexeme = .name name)
      (isConst : table.resolve? name = some .const)
  | call (name : String) (arity : Int) (isName : token.lexeme = .name name)
      (isFunction : table.resolve? name = some (.function arity))
  | opening (isOpening : token.isMark .opening)
  | signed (sign : Sign) (isSign : token.sign? = some sign)
  | other (kind : Mark) (text : String) (isMark : token.lexeme = .mark kind text)
      (notOpening : kind ≠ .opening) (notSign : kind.sign? = none)

theorem beginning (token : Token) : Beginning table token := by
  cases isLexeme : token.lexeme with
  | number value => exact .number value isLexeme
  | name name =>
    cases resolved : table.resolve? name with
    | none => exact .unknown name isLexeme resolved
    | some reference =>
      cases reference with
      | var => exact .var name isLexeme resolved
      | const => exact .const name isLexeme resolved
      | function arity => exact .call name arity isLexeme resolved
  | mark kind text =>
    have isSign (sign : Sign) (ofKind : kind.sign? = some sign) : token.sign? = some sign := by
      rw [Token.sign?, isLexeme]
      exact ofKind
    cases kind with
    | opening => exact .opening (by rw [Token.isMark, isLexeme]; rfl)
    | plus => exact .signed .plus (isSign _ rfl)
    | minus => exact .signed .minus (isSign _ rfl)
    | closing | star | slash | caret | comma => exact .other _ text isLexeme nofun rfl

theorem operand_nil : operand table [] = .error ⟨.operand, []⟩ := by
  unfold operand
  rw [readOperand]
  rfl

theorem operand_number {token : Token} {value : Float} (isNumber : token.lexeme = .number value)
    (rest : List Token) : operand table (token :: rest) = .ok (.number value token, rest) := by
  unfold operand
  rw [readOperand]
  simp only [isNumber]
  rfl

theorem operand_unknown {token : Token} {name : String} (isName : token.lexeme = .name name)
    (unknown : table.resolve? name = none) (rest : List Token) :
    operand table (token :: rest) = .error ⟨.knownName, token :: rest⟩ := by
  unfold operand
  rw [readOperand]
  simp only [isName, unknown]
  rfl

theorem operand_var {token : Token} {name : String} (isName : token.lexeme = .name name)
    (isVar : table.resolve? name = some .var) (rest : List Token) :
    operand table (token :: rest) = .ok (.var name token, rest) := by
  unfold operand
  rw [readOperand]
  simp only [isName, isVar]
  rfl

theorem operand_const {token : Token} {name : String} (isName : token.lexeme = .name name)
    (isConst : table.resolve? name = some .const) (rest : List Token) :
    operand table (token :: rest) = .ok (.const name token, rest) := by
  unfold operand
  rw [readOperand]
  simp only [isName, isConst]
  rfl

theorem operand_call {token : Token} {name : String} {arity : Int}
    (isName : token.lexeme = .name name)
    (isFunction : table.resolve? name = some (.function arity)) (rest : List Token) :
    operand table (token :: rest) =
      (do
        mark .opening .opening
        let given ← arguments table arity.toNat
        mark .closing .closing
        return .call name given token : Reader Expr) rest := by
  unfold operand
  rw [readOperand]
  simp only [isName, isFunction]
  refine plain_bind rfl fun _ => ?_
  refine plain_bind rfl fun _ => ?_
  exact plain_bind rfl fun _ => rfl

theorem operand_opening {token : Token} (isOpening : token.isMark .opening) (rest : List Token) :
    operand table (token :: rest) =
      (do
        let inner ← expression table
        mark .closing .closing
        return inner : Reader Expr) rest := by
  obtain ⟨text, isMark⟩ := Token.lexeme_of_isMark isOpening
  unfold operand
  rw [readOperand]
  simp only [isMark]
  refine plain_bind rfl fun _ => ?_
  exact plain_bind rfl fun _ => rfl

theorem operand_sign {token : Token} {sign : Sign} (isSign : token.sign? = some sign)
    (rest : List Token) :
    operand table (token :: rest) =
      (do
        let signed ← operand table
        return .unary sign signed token : Reader Expr) rest := by
  obtain ⟨kind, text, isMark, isSign⟩ := Token.lexeme_of_sign? isSign
  unfold operand
  rw [readOperand]
  cases kind <;> cases isSign <;> simp only [isMark] <;> exact plain_bind rfl fun _ => rfl

theorem operand_other {token : Token} {kind : Mark} {text : String}
    (isMark : token.lexeme = .mark kind text) (notOpening : kind ≠ .opening)
    (notSign : kind.sign? = none) (rest : List Token) :
    operand table (token :: rest) = .error ⟨.operand, token :: rest⟩ := by
  unfold operand
  rw [readOperand]
  cases kind with
  | opening => exact absurd rfl notOpening
  | plus | minus => cases notSign
  | closing | star | slash | caret | comma =>
    simp only [isMark]
    rfl

theorem arguments_zero : arguments table 0 = pure [] := by
  funext tokens
  unfold arguments
  rw [readArguments]
  rfl

theorem arguments_succ (more : Nat) :
    arguments table (more + 1) = do
      let first ← expression table
      let rest ← others table more
      return first :: rest := by
  funext tokens
  unfold arguments
  rw [readArguments]
  refine plain_bind rfl fun _ => ?_
  exact plain_bind rfl fun _ => rfl

theorem others_zero : others table 0 = pure [] := by
  funext tokens
  unfold others
  rw [readOtherArguments]
  rfl

theorem others_succ (more : Nat) :
    others table (more + 1) = do
      mark .comma .comma
      let next ← expression table
      let rest ← others table more
      return next :: rest := by
  funext tokens
  unfold others
  rw [readOtherArguments]
  refine plain_bind rfl fun _ => ?_
  refine plain_bind rfl fun _ => ?_
  exact plain_bind rfl fun _ => rfl

/-! ### Whole token lists -/

theorem readAll_of_stuck {tokens : List Token} {stuck : Stuck}
    (failed : expression table tokens = .error stuck) : readAll table tokens = .error stuck := by
  unfold expression plain at failed
  unfold readAll
  cases read : readExpression table tokens with
  | error other =>
    rw [read] at failed
    cases failed
    rfl
  | ok reading =>
    rw [read] at failed
    cases failed

theorem readAll_of_read {tokens unread : List Token} {tree : Expr}
    (read : expression table tokens = .ok (tree, unread)) :
    readAll table tokens =
      match unread with
      | [] => .ok tree
      | token :: rest => .error ⟨.finish, token :: rest⟩ := by
  unfold expression plain at read
  unfold readAll
  cases whole : readExpression table tokens with
  | error other =>
    rw [whole] at read
    cases read
  | ok reading =>
    rw [whole] at read
    cases read
    obtain ⟨result, unread, _⟩ := reading
    cases unread <;> rfl

/-- A whole list is read when an expression is read that leaves nothing unread. -/
theorem expression_of_readAll {tokens : List Token} {tree : Expr}
    (read : readAll table tokens = .ok tree) : expression table tokens = .ok (tree, []) := by
  cases whole : expression table tokens with
  | error stuck =>
    rw [readAll_of_stuck table whole] at read
    cases read
  | ok pair =>
    obtain ⟨found, unread⟩ := pair
    rw [readAll_of_read table whole] at read
    cases unread with
    | nil =>
      cases read
      rfl
    | cons token rest => cases read

end

end Reader

end DirectionField
