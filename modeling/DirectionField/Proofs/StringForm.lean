/-
This file proves that the string form of a tree determines the tree up to its tokens, if the tree
has been read from a text. A string form says by its first word which kind of node it is of, and
with that word and the parts of the node it ends where it has to: no string form is continued to
another one.

Names end at a bracket or at a comma, which no word contains, and numbers end at a bracket. The
texts of numbers determine the numbers.
-/

import DirectionField.Proofs.Nodes
import DirectionField.Proofs.NumberTexts
import DirectionField.Proofs.Tokenization
import DirectionField.Proofs.Tree
import DirectionField.Text.Separated

namespace DirectionField

/-! ### Symbols -/

/-- The symbol of a sign is the character that is scanned as that sign. -/
theorem exists_character_of_sign (sign : Sign) : ∃ character,
    sign.symbol.toList = [character] ∧ (markOf? character).bind Mark.sign? = some sign := by
  cases sign <;> exact ⟨_, rfl, rfl⟩

/-- The symbol of an operator is the character that is scanned as that operator. -/
theorem exists_character_of_operator (operator : Operator) : ∃ character,
    operator.symbol.toList = [character] ∧
      (markOf? character).bind Mark.operator? = some operator := by
  cases operator <;> exact ⟨_, rfl, rfl⟩

section

variable {rest otherRest : List Char}

theorem sign_append_inj {sign other : Sign}
    (same : sign.symbol.toList ++ rest = other.symbol.toList ++ otherRest) :
    sign = other ∧ rest = otherRest := by
  obtain ⟨character, isSymbol, isSign⟩ := exists_character_of_sign sign
  obtain ⟨otherCharacter, isOtherSymbol, isOtherSign⟩ := exists_character_of_sign other
  rw [isSymbol, isOtherSymbol] at same
  obtain ⟨rfl, sameRest⟩ := List.cons.inj same
  exact ⟨Option.some.inj (isSign.symm.trans isOtherSign), sameRest⟩

theorem operator_append_inj {operator other : Operator}
    (same : operator.symbol.toList ++ rest = other.symbol.toList ++ otherRest) :
    operator = other ∧ rest = otherRest := by
  obtain ⟨character, isSymbol, isOperator⟩ := exists_character_of_operator operator
  obtain ⟨otherCharacter, isOtherSymbol, isOtherOperator⟩ := exists_character_of_operator other
  rw [isSymbol, isOtherSymbol] at same
  obtain ⟨rfl, sameRest⟩ := List.cons.inj same
  exact ⟨Option.some.inj (isOperator.symm.trans isOtherOperator), sameRest⟩

/-- A text without a mark is determined by what it is together with the mark and more after it. -/
theorem append_cons_inj {mark : Char} {text other : List Char} (absent : mark ∉ text)
    (otherAbsent : mark ∉ other) (same : text ++ mark :: rest = other ++ mark :: otherRest) :
    text = other ∧ rest = otherRest := by
  have parts := congrArg (separatedBy mark) same
  rw [separatedBy_append_cons absent, separatedBy_append_cons otherAbsent] at parts
  obtain ⟨rfl, -⟩ := List.cons.inj parts
  exact ⟨rfl, (List.cons.inj (List.append_cancel_left same)).2⟩

end

namespace Expr

/-! ### Kinds of nodes -/

/-- The kinds of nodes. -/
inductive Kind
  | number
  | var
  | const
  | unary
  | binary
  | call
  | bare
deriving DecidableEq

/-- The word that the string forms of a kind begin with. -/
def Kind.word : Kind → List Char
  | number => "Num(".toList
  | var => "Var(".toList
  | const => "Const(".toList
  | unary => "UnaryOp(".toList
  | binary => "BinaryOp(".toList
  | call => "Call(".toList
  | bare => "AST".toList

/-- The kind that a text begins with. -/
def Kind.ofText? : List Char → Option Kind
  | 'N' :: _ => some number
  | 'V' :: _ => some var
  | 'C' :: 'o' :: _ => some const
  | 'U' :: _ => some unary
  | 'B' :: _ => some binary
  | 'C' :: 'a' :: _ => some call
  | 'A' :: _ => some bare
  | _ => none

theorem Kind.ofText?_word (kind : Kind) (rest : List Char) :
    ofText? (kind.word ++ rest) = some kind := by
  cases kind <;> rfl

/-- The kind of a node. -/
def kind : Expr → Kind
  | number .. => .number
  | var .. => .var
  | const .. => .const
  | unary .. => .unary
  | binary .. => .binary
  | call .. => .call
  | bare => .bare

/-- What the string form of a node has after its first word, and more after that. -/
def inside : Expr → List Char → List Char
  | number value _, rest => (numberText value).toList ++ ')' :: rest
  | var name _, rest | const name _, rest => name.toList ++ ')' :: rest
  | unary sign operand _, rest => sign.symbol.toList ++ (operand.text.toList ++ ')' :: rest)
  | binary operator left right _, rest =>
    left.text.toList ++ ' ' :: (operator.symbol.toList ++ ' ' :: (right.text.toList ++ ')' :: rest))
  | call name arguments _, rest =>
    name.toList ++ ',' :: ' ' :: '[' :: ((textOfList arguments).toList ++ ']' :: ')' :: rest)
  | bare, rest => rest

section

variable {rest otherRest : List Char}

theorem toList_enclosed (word content : String) :
    (word ++ content ++ ")").toList ++ rest = word.toList ++ (content.toList ++ ')' :: rest) := by
  rw [String.toList_append, String.toList_append, List.append_assoc, List.append_assoc]
  rfl

theorem toList_text (tree : Expr) :
    tree.text.toList ++ rest = tree.kind.word ++ tree.inside rest := by
  cases tree with
  | number value token => exact toList_enclosed "Num(" (numberText value)
  | var name token => exact toList_enclosed "Var(" name
  | const name token => exact toList_enclosed "Const(" name
  | unary sign operand token =>
    show ("UnaryOp(" ++ sign.symbol ++ operand.text ++ ")").toList ++ rest = _
    simp only [String.toList_append, List.append_assoc]
    rfl
  | binary operator left right token =>
    show ("BinaryOp(" ++ left.text ++ " " ++ operator.symbol ++ " " ++ right.text ++ ")").toList ++
      rest = _
    simp only [String.toList_append, List.append_assoc]
    rfl
  | call name arguments token =>
    show ("Call(" ++ name ++ ", [" ++ textOfList arguments ++ "])").toList ++ rest = _
    simp only [String.toList_append, List.append_assoc]
    rfl
  | bare => rfl

/-- Two string forms are of the same kind, and agree after their first words, if more may follow. -/
theorem inside_of_text {tree other : Expr}
    (same : tree.text.toList ++ rest = other.text.toList ++ otherRest) :
    tree.kind = other.kind ∧ tree.inside rest = other.inside otherRest := by
  rw [toList_text, toList_text] at same
  have sameKinds := congrArg Kind.ofText? same
  rw [Kind.ofText?_word, Kind.ofText?_word] at sameKinds
  have sameKind := Option.some.inj sameKinds
  rw [sameKind] at same
  exact ⟨sameKind, List.append_cancel_left same⟩

/-- A string form begins with no bracket. -/
theorem text_ne_closing (tree : Expr) : tree.text.toList ++ rest ≠ ']' :: otherRest := by
  intro same
  have isKind := Kind.ofText?_word tree.kind (tree.inside rest)
  rw [← toList_text, same] at isKind
  cases isKind

theorem toList_textOfList (first : Expr) (trees : List Expr) :
    (textOfList (first :: trees)).toList ++ rest =
      first.text.toList ++ ((textOfRest trees).toList ++ rest) := by
  show (first.text ++ textOfRest trees).toList ++ rest = _
  rw [String.toList_append, List.append_assoc]

theorem toList_textOfRest (next : Expr) (trees : List Expr) :
    (textOfRest (next :: trees)).toList ++ rest =
      ',' :: ' ' :: (next.text.toList ++ ((textOfRest trees).toList ++ rest)) := by
  show (", " ++ next.text ++ textOfRest trees).toList ++ rest = _
  rw [String.toList_append, String.toList_append, List.append_assoc, List.append_assoc]
  rfl

end

/-! ### No string form is continued to another one -/

/-- Whether the name of a node, if it has one, contains neither a bracket nor a comma. -/
def HasPlainName : Expr → Prop
  | var name _ | const name _ | call name _ _ => ')' ∉ name.toList ∧ ',' ∉ name.toList
  | _ => True

theorem name_append_inj {mark : Char} {name other : String} {rest otherRest : List Char}
    (absent : mark ∉ name.toList) (otherAbsent : mark ∉ other.toList)
    (same : name.toList ++ mark :: rest = other.toList ++ mark :: otherRest) :
    name = other ∧ rest = otherRest := by
  obtain ⟨sameText, sameRest⟩ := append_cons_inj absent otherAbsent same
  exact ⟨String.toList_inj.mp sameText, sameRest⟩

mutual

/-- A tree of plain names is determined by its string form together with more after it. -/
theorem text_append_inj (tree other : Expr) {rest otherRest : List Char}
    (plain : ∀ node ∈ tree.nodes, node.HasPlainName)
    (otherPlain : ∀ node ∈ other.nodes, node.HasPlainName)
    (same : tree.text.toList ++ rest = other.text.toList ++ otherRest) :
    tree.shape = other.shape ∧ rest = otherRest := by
  obtain ⟨sameKind, sameInside⟩ := inside_of_text same
  cases tree with
  | number value token =>
    cases other with
    | number otherValue otherToken =>
      obtain ⟨sameText, sameRest⟩ := name_append_inj (not_mem_numberText rfl value)
        (not_mem_numberText rfl otherValue) sameInside
      exact ⟨congrArg (number · none) (numberText_injective sameText), sameRest⟩
    | _ => cases sameKind
  | var name token =>
    cases other with
    | var otherName otherToken =>
      obtain ⟨sameName, sameRest⟩ := name_append_inj (plain _ (List.mem_singleton_self _)).1
        (otherPlain _ (List.mem_singleton_self _)).1 sameInside
      exact ⟨congrArg (var · none) sameName, sameRest⟩
    | _ => cases sameKind
  | const name token =>
    cases other with
    | const otherName otherToken =>
      obtain ⟨sameName, sameRest⟩ := name_append_inj (plain _ (List.mem_singleton_self _)).1
        (otherPlain _ (List.mem_singleton_self _)).1 sameInside
      exact ⟨congrArg (const · none) sameName, sameRest⟩
    | _ => cases sameKind
  | unary sign operand token =>
    cases other with
    | unary otherSign otherOperand otherToken =>
      rw [nodes, List.forall_mem_cons] at plain otherPlain
      obtain ⟨sameSign, sameOperands⟩ := sign_append_inj sameInside
      obtain ⟨sameShape, sameEnd⟩ :=
        text_append_inj operand otherOperand plain.2 otherPlain.2 sameOperands
      refine ⟨?_, (List.cons.inj sameEnd).2⟩
      rw [shape, shape, sameSign, sameShape]
    | _ => cases sameKind
  | binary operator left right token =>
    cases other with
    | binary otherOperator otherLeft otherRight otherToken =>
      rw [nodes, List.forall_mem_cons, List.forall_mem_append] at plain otherPlain
      -- The left operand ends where it has to, so the operator is the next word of both forms.
      obtain ⟨sameLeft, afterLeft⟩ :=
        text_append_inj left otherLeft plain.2.1 otherPlain.2.1 sameInside
      obtain ⟨sameOperator, afterOperator⟩ := operator_append_inj (List.cons.inj afterLeft).2
      obtain ⟨sameRight, sameEnd⟩ :=
        text_append_inj right otherRight plain.2.2 otherPlain.2.2 (List.cons.inj afterOperator).2
      refine ⟨?_, (List.cons.inj sameEnd).2⟩
      rw [shape, shape, sameOperator, sameLeft, sameRight]
    | _ => cases sameKind
  | call name arguments token =>
    cases other with
    | call otherName otherArguments otherToken =>
      rw [nodes, List.forall_mem_cons] at plain otherPlain
      obtain ⟨sameName, afterName⟩ := name_append_inj plain.1.2 otherPlain.1.2 sameInside
      have sameLists := (List.cons.inj (List.cons.inj afterName).2).2
      obtain ⟨sameShapes, sameEnd⟩ :=
        textOfList_append_inj arguments otherArguments plain.2 otherPlain.2 sameLists
      refine ⟨?_, (List.cons.inj sameEnd).2⟩
      rw [shape, shape, sameName, sameShapes]
    | _ => cases sameKind
  | bare =>
    cases other with
    | bare => exact ⟨rfl, sameInside⟩
    | _ => cases sameKind

/-- Trees are determined by their string forms with commas between them and a bracket at the end. -/
theorem textOfList_append_inj (trees others : List Expr) {rest otherRest : List Char}
    (plain : ∀ node ∈ nodesOfAll trees, node.HasPlainName)
    (otherPlain : ∀ node ∈ nodesOfAll others, node.HasPlainName)
    (same : (textOfList trees).toList ++ ']' :: rest =
      (textOfList others).toList ++ ']' :: otherRest) :
    shapes trees = shapes others ∧ rest = otherRest := by
  cases trees with
  | nil =>
    cases others with
    | nil => exact ⟨rfl, (List.cons.inj same).2⟩
    | cons otherFirst otherTrees =>
      rw [toList_textOfList] at same
      exact absurd same.symm (text_ne_closing otherFirst)
  | cons first trees =>
    cases others with
    | nil =>
      rw [toList_textOfList] at same
      exact absurd same (text_ne_closing first)
    | cons otherFirst otherTrees =>
      rw [nodesOfAll, List.forall_mem_append] at plain otherPlain
      rw [toList_textOfList, toList_textOfList] at same
      obtain ⟨sameFirst, afterFirst⟩ :=
        text_append_inj first otherFirst plain.1 otherPlain.1 same
      obtain ⟨sameShapes, sameRest⟩ :=
        textOfRest_append_inj trees otherTrees plain.2 otherPlain.2 afterFirst
      refine ⟨?_, sameRest⟩
      rw [shapes, shapes, sameFirst, sameShapes]

/-- Trees are determined by their string forms with a comma before each and a bracket at the end. -/
theorem textOfRest_append_inj (trees others : List Expr) {rest otherRest : List Char}
    (plain : ∀ node ∈ nodesOfAll trees, node.HasPlainName)
    (otherPlain : ∀ node ∈ nodesOfAll others, node.HasPlainName)
    (same : (textOfRest trees).toList ++ ']' :: rest =
      (textOfRest others).toList ++ ']' :: otherRest) :
    shapes trees = shapes others ∧ rest = otherRest := by
  cases trees with
  | nil =>
    cases others with
    | nil => exact ⟨rfl, (List.cons.inj same).2⟩
    | cons otherNext otherTrees =>
      rw [toList_textOfRest] at same
      cases same
  | cons next trees =>
    cases others with
    | nil =>
      rw [toList_textOfRest] at same
      cases same
    | cons otherNext otherTrees =>
      rw [nodesOfAll, List.forall_mem_append] at plain otherPlain
      rw [toList_textOfRest, toList_textOfRest] at same
      have sameTexts := (List.cons.inj (List.cons.inj same).2).2
      obtain ⟨sameNext, afterNext⟩ :=
        text_append_inj next otherNext plain.1 otherPlain.1 sameTexts
      obtain ⟨sameShapes, sameRest⟩ :=
        textOfRest_append_inj trees otherTrees plain.2 otherPlain.2 afterNext
      refine ⟨?_, sameRest⟩
      rw [shapes, shapes, sameNext, sameShapes]

end

mutual

/-- The string form of a tree has nothing of its tokens. -/
theorem text_shape (tree : Expr) : tree.shape.text = tree.text := by
  cases tree with
  | number _ _ | var _ _ | const _ _ | bare => rfl
  | unary sign operand token =>
    show "UnaryOp(" ++ sign.symbol ++ operand.shape.text ++ ")" = _
    rw [text_shape operand]
    rfl
  | binary operator left right token =>
    show "BinaryOp(" ++ left.shape.text ++ " " ++ operator.symbol ++ " " ++ right.shape.text ++
      ")" = _
    rw [text_shape left, text_shape right]
    rfl
  | call name arguments token =>
    show "Call(" ++ name ++ ", [" ++ textOfList (shapes arguments) ++ "])" = _
    rw [textOfList_shapes arguments]
    rfl

theorem textOfList_shapes (trees : List Expr) : textOfList (shapes trees) = textOfList trees := by
  cases trees with
  | nil => rfl
  | cons first rest =>
    show first.shape.text ++ textOfRest (shapes rest) = _
    rw [text_shape first, textOfRest_shapes rest]
    rfl

theorem textOfRest_shapes (trees : List Expr) : textOfRest (shapes trees) = textOfRest trees := by
  cases trees with
  | nil => rfl
  | cons next rest =>
    show ", " ++ next.shape.text ++ textOfRest (shapes rest) = _
    rw [text_shape next, textOfRest_shapes rest]
    rfl

end

end Expr

/-! ### Trees that have been read -/

/-- No word contains a mark. -/
theorem character_not_mem_of_isWord {piece : List Char} (isWord : IsWord piece) (kind : Mark) :
    kind.character ∉ piece := by
  obtain ⟨first, rest, rfl, isLower, wordCharacters⟩ := isWord
  intro member
  rcases List.mem_cons.mp member with rfl | member
  · rw [isLower_character] at isLower
    cases isLower
  · have isWordCharacter := wordCharacters _ member
    rw [DirectionField.isWordCharacter, isLower_character, isDigit_character] at isWordCharacter
    cases isWordCharacter

section

variable {State Other : Type} {table : SymbolTable State} {other : SymbolTable Other}

/-- The names of a tree that has been read from a text are words. -/
theorem hasPlainName_of_ofText {text : String} {tree : Expr}
    (read : Expr.ofText table text = .ok tree) : ∀ node ∈ tree.nodes, node.HasPlainName := by
  obtain ⟨tokens, scanned, ofTokens⟩ := ofText_eq_ok_iff.mp read
  have agree := nodesAgree_of_derives (ofTokens_eq_ok_iff_derives.mp ofTokens)
  have spelled := (scan_eq_ok_iff_tokenization.mp scanned).spelled
  intro node member
  obtain ⟨token, inTokens, agrees⟩ := agree node member
  obtain ⟨piece, -, spells⟩ := spelled token inTokens
  have plain {name : String} (isName : token.lexeme = .name name) :
      ')' ∉ name.toList ∧ ',' ∉ name.toList := by
    rw [isName] at spells
    cases spells with
    | word isWord =>
      rw [String.toList_ofList]
      exact ⟨character_not_mem_of_isWord isWord .closing, character_not_mem_of_isWord isWord .comma⟩
  cases agrees with
  | number _ | unary _ | binary _ => exact True.intro
  | var isName | const isName | call isName => exact plain isName

/-- The string form determines a tree that has been read from a text, but for its tokens. The trees
may have been read from different texts and over different tables. -/
theorem text_eq_iff_shape_eq {text otherText : String} {first second : Expr}
    (firstRead : Expr.ofText table text = .ok first)
    (secondRead : Expr.ofText other otherText = .ok second) :
    first.text = second.text ↔ first.shape = second.shape := by
  constructor
  · intro same
    have sameLists : first.text.toList ++ [] = second.text.toList ++ [] := by rw [same]
    exact (Expr.text_append_inj first second (hasPlainName_of_ofText firstRead)
      (hasPlainName_of_ofText secondRead) sameLists).1
  · intro same
    rw [← Expr.text_shape first, ← Expr.text_shape second, same]

end

/-- The texts `-max(x,2)+1` and `- max(x, 2.) + (1)`, read over two tables, have the same string
form, though no token of the one is a token of the other. -/
theorem text_eq_iff_shape_eq_sum :
    let table : SymbolTable Unit := standardTable (pure 0.5)
    let other : SymbolTable Nat := standardTable fun count => (Float.ofNat count, count + 1)
    let tree (minus name x two plus one : Token) : Expr :=
      .binary .add (.unary .minus (.call "max" [.var "x" x, .number 2.0 two] name) minus)
        (.number 1.0 one) plus
    let token (lexeme : Lexeme) (index length : Int) : Token :=
      ⟨lexeme, "-max(x,2)+1", index, length⟩
    let first : Expr :=
      tree (token (.mark .minus "-") 0 1) (token (.name "max") 1 3) (token (.name "x") 5 1)
        (token (.number 2.0) 7 1) (token (.mark .plus "+") 9 1) (token (.number 1.0) 10 1)
    let otherToken (lexeme : Lexeme) (index length : Int) : Token :=
      ⟨lexeme, "- max(x, 2.) + (1)", index, length⟩
    let second : Expr :=
      tree (otherToken (.mark .minus "-") 0 1) (otherToken (.name "max") 2 3)
        (otherToken (.name "x") 6 1) (otherToken (.number 2.0) 9 2)
        (otherToken (.mark .plus "+") 13 1) (otherToken (.number 1.0) 16 1)
    Expr.ofText table "-max(x,2)+1" = .ok first ∧
      Expr.ofText other "- max(x, 2.) + (1)" = .ok second ∧
      first.text = "BinaryOp(UnaryOp(-Call(max, [Var(x), Num(2.0)])) + Num(1.0))" ∧
      second.text = first.text ∧ (first.text = second.text ↔ first.shape = second.shape) := by
  intro table other tree token first otherToken second
  have firstRead : Expr.ofText table "-max(x,2)+1" = .ok first := by
    with_unfolding_all rfl
  have secondRead : Expr.ofText other "- max(x, 2.) + (1)" = .ok second := by
    with_unfolding_all rfl
  have isText : first.text = "BinaryOp(UnaryOp(-Call(max, [Var(x), Num(2.0)])) + Num(1.0))" := by
    decide +kernel
  exact ⟨firstRead, secondRead, isText, rfl, text_eq_iff_shape_eq firstRead secondRead⟩

end DirectionField
