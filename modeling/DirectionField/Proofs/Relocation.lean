/-
This file proves that the readers of expressions take no notice of the places of tokens, and of a
table only what it says of the names that occur. If all tokens are moved to other places, every
reader takes the same tokens from the front, with the former tree whose nodes keep the moved tokens,
or it gets stuck in front of the same token. It may look names up in another table that resolves
them alike.

That a reader mirrors another one carries over to readers in a row. A single reader decides by the
lexeme of one token, which the token keeps when it is moved.
-/

import DirectionField.Proofs.EarliestError
import DirectionField.Proofs.Tree

namespace DirectionField

/-! ### Moved tokens -/

/-- A way to move tokens. A moved token keeps its lexeme. -/
structure Relocation where
  move : Token → Token
  lexeme_move : ∀ token, (move token).lexeme = token.lexeme

namespace Relocation

/-- All tokens stay where they are. -/
def stay : Relocation where
  move := id
  lexeme_move _ := rfl

/-- All tokens lose their places. -/
def displace : Relocation where
  move token := ⟨token.lexeme, "", 0, 0⟩
  lexeme_move _ := rfl

variable (relocation : Relocation)

theorem isMark_move (kind : Mark) (token : Token) :
    (relocation.move token).isMark kind = token.isMark kind := by
  rw [Token.isMark, Token.isMark, relocation.lexeme_move]

theorem sign?_move (token : Token) : (relocation.move token).sign? = token.sign? := by
  rw [Token.sign?, Token.sign?, relocation.lexeme_move]

theorem operator?_move (token : Token) : (relocation.move token).operator? = token.operator? := by
  rw [Token.operator?, Token.operator?, relocation.lexeme_move]

/-- Token lists with the same lexemes differ in the places of their tokens only. -/
theorem map_displace_eq_iff {first second : List Token} :
    first.map displace.move = second.map displace.move ↔
      first.map Token.lexeme = second.map Token.lexeme := by
  constructor
  · intro same
    have lexemes := congrArg (List.map Token.lexeme) same
    rw [List.map_map, List.map_map] at lexemes
    exact lexemes
  · intro same
    have displaced := congrArg (List.map fun lexeme => (⟨lexeme, "", 0, 0⟩ : Token)) same
    rw [List.map_map, List.map_map] at displaced
    exact displaced

end Relocation

namespace Expr

mutual

/-- A tree whose nodes keep moved tokens. -/
def relocate (relocation : Relocation) : Expr → Expr
  | number value token => number value (token.map relocation.move)
  | var name token => var name (token.map relocation.move)
  | const name token => const name (token.map relocation.move)
  | unary sign operand token =>
    unary sign (operand.relocate relocation) (token.map relocation.move)
  | binary operator left right token =>
    binary operator (left.relocate relocation) (right.relocate relocation)
      (token.map relocation.move)
  | call name arguments token =>
    call name (relocateAll relocation arguments) (token.map relocation.move)
  | bare => bare

/-- Trees whose nodes keep moved tokens. -/
def relocateAll (relocation : Relocation) : List Expr → List Expr
  | [] => []
  | first :: rest => first.relocate relocation :: relocateAll relocation rest

end

theorem map_stay (token : Option Token) : token.map Relocation.stay.move = token :=
  Option.map_id_apply

mutual

/-- A tree stays as it is if its tokens do. -/
theorem relocate_stay (tree : Expr) : tree.relocate .stay = tree := by
  cases tree with
  | number _ _ | var _ _ | const _ _ => rw [relocate, map_stay]
  | unary sign operand token => rw [relocate, relocate_stay operand, map_stay]
  | binary operator left right token =>
    rw [relocate, relocate_stay left, relocate_stay right, map_stay]
  | call name arguments token => rw [relocate, relocateAll_stay arguments, map_stay]
  | bare => rfl

theorem relocateAll_stay (trees : List Expr) : relocateAll .stay trees = trees := by
  cases trees with
  | nil => rfl
  | cons first rest => rw [relocateAll, relocate_stay first, relocateAll_stay rest]

end

mutual

/-- Moving tokens leaves the shape of a tree as it is. -/
theorem shape_relocate (relocation : Relocation) (tree : Expr) :
    (tree.relocate relocation).shape = tree.shape := by
  cases tree with
  | number _ _ | var _ _ | const _ _ | bare => rfl
  | unary sign operand token => rw [relocate, shape, shape, shape_relocate relocation operand]
  | binary operator left right token =>
    rw [relocate, shape, shape, shape_relocate relocation left, shape_relocate relocation right]
  | call name arguments token =>
    rw [relocate, shape, shape, shapes_relocateAll relocation arguments]

theorem shapes_relocateAll (relocation : Relocation) (trees : List Expr) :
    shapes (relocateAll relocation trees) = shapes trees := by
  cases trees with
  | nil => rfl
  | cons first rest =>
    rw [relocateAll, shapes, shapes, shape_relocate relocation first,
      shapes_relocateAll relocation rest]

end

end Expr

/-! ### Readers that mirror each other -/

section

variable {State Other : Type}

/-- Two tables say the same of the names that occur in a token list. -/
def ResolveAlike (table : SymbolTable State) (other : SymbolTable Other) (tokens : List Token) :
    Prop :=
  ∀ token ∈ tokens, ∀ name, token.lexeme = .name name → table.resolve? name = other.resolve? name

theorem ResolveAlike.refl (table : SymbolTable State) (tokens : List Token) :
    ResolveAlike table table tokens :=
  fun _ _ _ _ => rfl

namespace Reader

variable {Result Outcome : Type}

/-- What the reading of moved tokens comes to. -/
def relocated (relocation : Relocation) (change : Result → Result) :
    Except Stuck (Result × List Token) → Except Stuck (Result × List Token)
  | .ok (result, unread) => .ok (change result, unread.map relocation.move)
  | .error stuck => .error ⟨stuck.wanted, stuck.unread.map relocation.move⟩

/-- A reader is mirrored by another one, over another table that resolves the names of the tokens
alike: the other reader does with the moved tokens what the reader does with the tokens. -/
def Mirrors (table : SymbolTable State) (other : SymbolTable Other) (relocation : Relocation)
    (change : Result → Result) (reader mirror : Reader Result) (tokens : List Token) : Prop :=
  ResolveAlike table other tokens →
    mirror (tokens.map relocation.move) = relocated relocation change (reader tokens)

variable {table : SymbolTable State} {other : SymbolTable Other} {relocation : Relocation}

namespace Mirrors

variable {change : Result → Result} {reader mirror : Reader Result} {tokens : List Token}

theorem pure (result : Result) (tokens : List Token) :
    Mirrors table other relocation change (Pure.pure result) (Pure.pure (change result)) tokens :=
  fun _ => rfl

/-- Two readers may get stuck at the front. -/
theorem of_stuck {wanted : Wanted} (failed : reader tokens = .error ⟨wanted, tokens⟩)
    (mirrorFailed : ResolveAlike table other tokens →
      mirror (tokens.map relocation.move) = .error ⟨wanted, tokens.map relocation.move⟩) :
    Mirrors table other relocation change reader mirror tokens := by
  intro alike
  rw [failed, mirrorFailed alike]
  rfl

/-- Two readers may take a token first and do what two others do after it. -/
theorem cons {remaining mirrorRemaining : Reader Result} {token : Token} {rest : List Token}
    (takes : reader (token :: rest) = remaining rest)
    (mirrorTakes : ResolveAlike table other (token :: rest) →
      mirror (relocation.move token :: rest.map relocation.move) =
        mirrorRemaining (rest.map relocation.move))
    (mirrors : Mirrors table other relocation change remaining mirrorRemaining rest) :
    Mirrors table other relocation change reader mirror (token :: rest) := by
  intro alike
  rw [List.map_cons, takes, mirrorTakes alike]
  exact mirrors fun later member => alike later (List.mem_cons_of_mem _ member)

/-- Readers in a row are mirrored if each of them is. The second one reads what the first one
leaves, where no other names occur. -/
theorem bind {outcomeChange : Outcome → Outcome} {first mirrorFirst : Reader Result}
    {next mirrorNext : Result → Reader Outcome} (looks : LooksOneAhead first tokens)
    (firstMirrors : Mirrors table other relocation change first mirrorFirst tokens)
    (nextMirrors : ∀ result unread, first tokens = .ok (result, unread) →
      Mirrors table other relocation outcomeChange (next result) (mirrorNext (change result))
        unread) :
    Mirrors table other relocation outcomeChange (first >>= next) (mirrorFirst >>= mirrorNext)
      tokens := by
  intro alike
  have mirrored := firstMirrors alike
  cases read : first tokens with
  | error stuck =>
    rw [read] at mirrored
    rw [bind_error read, bind_error mirrored]
    rfl
  | ok pair =>
    rw [read] at mirrored
    rw [bind_ok read, bind_ok mirrored]
    refine nextMirrors pair.1 pair.2 read fun token member => alike token ?_
    obtain ⟨taken, isTaken, -⟩ := looks.ofRead pair.1 pair.2 read
    rw [isTaken]
    exact List.mem_append_right _ member

theorem mark (kind : Mark) (wanted : Wanted) (tokens : List Token) :
    Mirrors table other relocation id (mark kind wanted) (mark kind wanted) tokens := by
  rcases isMark_or_missing kind tokens with ⟨token, rest, rfl, isMark⟩ | missing
  · refine .cons (mark_of_isMark isMark wanted rest) (fun _ => ?_) (.pure () rest)
    exact mark_of_isMark (by rwa [relocation.isMark_move]) wanted _
  · refine .of_stuck (mark_of_missing missing wanted) fun _ =>
      mark_of_missing (fun token front => ?_) wanted
    rw [List.head?_map] at front
    obtain ⟨first, isFirst, rfl⟩ := Option.map_eq_some_iff.mp front
    rw [relocation.isMark_move]
    exact missing first isFirst

end Mirrors

/-! ### All readers are mirrored -/

theorem expression_looks (tokens : List Token) : LooksOneAhead (expression table) tokens :=
  expression_looksOneAhead ((looksOneAhead table tokens).2.1 0)

theorem expression_mirrors {tokens : List Token}
    (phraseMirrors : Mirrors table other relocation (Expr.relocate relocation) (phrase table 0)
      (phrase other 0) tokens) :
    Mirrors table other relocation (Expr.relocate relocation) (expression table) (expression other)
      tokens := by
  rw [expression_eq, expression_eq]
  exact phraseMirrors

theorem arguments_mirrors {tokens : List Token} {count : Nat}
    (firstMirrors : Mirrors table other relocation (Expr.relocate relocation) (phrase table 0)
      (phrase other 0) tokens)
    (othersMirror : ∀ rest, rest.length ≤ tokens.length → ∀ more,
      Mirrors table other relocation (Expr.relocateAll relocation) (others table more)
        (others other more) rest) :
    Mirrors table other relocation (Expr.relocateAll relocation) (arguments table count)
      (arguments other count) tokens := by
  cases count with
  | zero =>
    rw [arguments_zero, arguments_zero]
    exact .pure [] tokens
  | succ more =>
    rw [arguments_succ, arguments_succ]
    refine .bind (expression_looks tokens) (expression_mirrors firstMirrors)
      fun first unread read => ?_
    have shorter : unread.length ≤ tokens.length := Nat.le_of_lt (length_lt_of_plain read)
    exact .bind ((looksOneAhead table unread).2.2.2 more) (othersMirror unread shorter more)
      fun rest after _ => .pure _ after

theorem operand_mirrors_cons (token : Token) (rest : List Token)
    (shorter : ∀ unread, unread.length ≤ rest.length →
      Mirrors table other relocation (Expr.relocate relocation) (operand table) (operand other)
        unread ∧
      Mirrors table other relocation (Expr.relocate relocation) (phrase table 0) (phrase other 0)
        unread ∧
      ∀ count, Mirrors table other relocation (Expr.relocateAll relocation) (others table count)
        (others other count) unread) :
    Mirrors table other relocation (Expr.relocate relocation) (operand table) (operand other)
      (token :: rest) := by
  have keeps := relocation.lexeme_move token
  have resolved {name : String} {reference : Option Reference} (isName : token.lexeme = .name name)
      (isReference : table.resolve? name = reference)
      (alike : ResolveAlike table other (token :: rest)) : other.resolve? name = reference :=
    (alike token (List.mem_cons_self ..) name isName).symm.trans isReference
  obtain ⟨operandMirrors, phraseMirrors, -⟩ := shorter rest (Nat.le_refl _)
  cases beginning table token with
  | number value isNumber =>
    exact .cons (operand_number table isNumber rest)
      (fun _ => operand_number other (keeps.trans isNumber) _) (.pure _ rest)
  | unknown name isName isUnknown =>
    exact .of_stuck (operand_unknown table isName isUnknown rest) fun alike =>
      operand_unknown other (keeps.trans isName) (resolved isName isUnknown alike) _
  | var name isName isVar =>
    exact .cons (operand_var table isName isVar rest)
      (fun alike => operand_var other (keeps.trans isName) (resolved isName isVar alike) _)
      (.pure _ rest)
  | const name isName isConst =>
    exact .cons (operand_const table isName isConst rest)
      (fun alike => operand_const other (keeps.trans isName) (resolved isName isConst alike) _)
      (.pure _ rest)
  | call name arity isName isFunction =>
    refine .cons (operand_call table isName isFunction rest)
      (fun alike => operand_call other (keeps.trans isName) (resolved isName isFunction alike) _) ?_
    refine .bind (.mark .opening .opening rest) (.mark .opening .opening rest)
      fun _ opened openingRead => ?_
    have bound : opened.length ≤ rest.length := Nat.le_of_lt (length_lt_of_plain openingRead)
    have argumentsMirror : Mirrors table other relocation (Expr.relocateAll relocation)
        (arguments table arity.toNat) (arguments other arity.toNat) opened :=
      arguments_mirrors (shorter opened bound).2.1 fun tail tailBound =>
        (shorter tail (Nat.le_trans tailBound bound)).2.2
    have argumentsLook : LooksOneAhead (arguments table arity.toNat) opened :=
      arguments_looksOneAhead ((looksOneAhead table opened).2.1 0) fun tail _ =>
        (looksOneAhead table tail).2.2.2
    refine .bind argumentsLook argumentsMirror fun given between _ => ?_
    exact .bind (.mark .closing .closing between) (.mark .closing .closing between)
      fun _ after _ => .pure _ after
  | opening isOpening =>
    refine .cons (operand_opening table isOpening rest)
      (fun _ => operand_opening other (by rwa [relocation.isMark_move]) _) ?_
    refine .bind (expression_looks rest) (expression_mirrors phraseMirrors)
      fun inner between _ => ?_
    exact .bind (.mark .closing .closing between) (.mark .closing .closing between)
      fun _ after _ => .pure inner after
  | signed sign isSign =>
    refine .cons (operand_sign table isSign rest)
      (fun _ => operand_sign other (by rwa [relocation.sign?_move]) _) ?_
    exact .bind (looksOneAhead table rest).1 operandMirrors fun signed after _ => .pure _ after
  | other kind text isMark notOpening notSign =>
    exact .of_stuck (operand_other table isMark notOpening notSign rest) fun _ =>
      operand_other other (keeps.trans isMark) notOpening notSign _

theorem frontOperator?_map (tokens : List Token) :
    frontOperator? (tokens.map relocation.move) = frontOperator? tokens := by
  cases tokens with
  | nil => rfl
  | cons token rest => exact relocation.operator?_move token

theorem chain_mirrors_of_halts (least : Nat) (left : Expr) (tokens : List Token)
    (halts : Halts least tokens) :
    Mirrors table other relocation (Expr.relocate relocation) (chain table least left)
      (chain other least (left.relocate relocation)) tokens := by
  have mirrorHalts : Halts least (tokens.map relocation.move) := by
    rw [Halts, frontOperator?_map]
    exact halts
  intro _
  rw [chain_of_halts table halts, chain_of_halts other mirrorHalts]
  rfl

variable (table other relocation) in
/-- Every reader is mirrored on every token list. -/
theorem mirrors (tokens : List Token) :
    Mirrors table other relocation (Expr.relocate relocation) (operand table) (operand other)
        tokens ∧
      (∀ least, Mirrors table other relocation (Expr.relocate relocation) (phrase table least)
        (phrase other least) tokens) ∧
      (∀ least left, Mirrors table other relocation (Expr.relocate relocation)
        (chain table least left) (chain other least (left.relocate relocation)) tokens) ∧
      ∀ count, Mirrors table other relocation (Expr.relocateAll relocation) (others table count)
        (others other count) tokens := by
  refine induction_on_tokens ?_ operand_mirrors_cons ?_ chain_mirrors_of_halts ?_ ?_ ?_ tokens
  · exact .of_stuck (operand_nil table) fun _ => operand_nil other
  · intro least tokens operandMirrors chainMirrors
    exact .bind (looksOneAhead table tokens).1 operandMirrors fun first unread read =>
      chainMirrors first unread (length_lt_of_operand table read)
  · intro least left token rest operator isOperator enough phraseMirrors chainMirrors
    have moved : (relocation.move token).operator? = some operator := by
      rwa [relocation.operator?_move]
    refine .cons (chain_cons table isOperator enough left rest)
      (fun _ => chain_cons other moved enough _ _) ?_
    exact .bind ((looksOneAhead table rest).2.1 _) phraseMirrors fun whole unread read =>
      chainMirrors whole unread (Nat.le_of_lt (length_lt_of_phrase table read))
  · intro tokens
    rw [others_zero, others_zero]
    exact .pure [] tokens
  · intro more tokens shorter
    rw [others_succ, others_succ]
    refine .bind (.mark .comma .comma tokens) (.mark .comma .comma tokens)
      fun _ afterComma commaRead => ?_
    have commaBound := length_lt_of_plain commaRead
    refine .bind (expression_looks afterComma)
      (expression_mirrors (shorter afterComma commaBound).1) fun next between nextRead => ?_
    have nextBound := length_lt_of_plain nextRead
    exact .bind ((looksOneAhead table between).2.2.2 more)
      (shorter between (Nat.lt_trans nextBound commaBound)).2 fun rest after _ => .pure _ after

end Reader

/-! ### Whole token lists -/

variable {table : SymbolTable State} {other : SymbolTable Other} {tokens : List Token}

/-- A whole list of moved tokens is read with the former tree, whose nodes keep the moved tokens, or
it gets stuck in front of the same token. -/
theorem readAll_map_move (relocation : Relocation) (alike : ResolveAlike table other tokens) :
    readAll other (tokens.map relocation.move) =
      match readAll table tokens with
      | .ok tree => .ok (tree.relocate relocation)
      | .error stuck => .error ⟨stuck.wanted, stuck.unread.map relocation.move⟩ := by
  have mirrored :=
    Reader.expression_mirrors ((Reader.mirrors table other relocation tokens).2.1 0) alike
  cases read : Reader.expression table tokens with
  | error stuck =>
    rw [read] at mirrored
    rw [Reader.readAll_of_stuck table read, Reader.readAll_of_stuck other mirrored]
  | ok pair =>
    obtain ⟨tree, unread⟩ := pair
    rw [read] at mirrored
    rw [Reader.readAll_of_read table read, Reader.readAll_of_read other mirrored]
    cases unread <;> rfl

end

end DirectionField
