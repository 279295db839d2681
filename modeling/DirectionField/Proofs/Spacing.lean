/-
This file proves that a scan undoes the layout of lexemes. Lexemes may be written one after the
other, with any number of spaces in front of each and after the last one. A space is needed only
where a word or a number would be drawn into the lexeme before it: after a word, and for a number
after a number.

Where no space is needed, the first character of a lexeme does not continue the lexeme before it. So
every lexeme is the longest one at its place, and the tokens of the lexemes are laid out in the
text.
-/

import DirectionField.Proofs.Tokenization
import Mathlib.Data.List.Chain
import Mathlib.Data.List.Forall2

namespace DirectionField

/-! ### Lexemes in a text -/

/-- A lexeme in a text: the spaces in front of it, and the characters that spell it. -/
structure SpacedLexeme where
  spaces : Nat
  piece : List Char
  lexeme : Lexeme
  spells : Spells piece lexeme

namespace SpacedLexeme

/-- The characters of a lexeme after its spaces. -/
def characters (spaced : SpacedLexeme) : List Char :=
  List.replicate spaced.spaces ' ' ++ spaced.piece

/-- The text of lexemes, with spaces after the last one. -/
def text (lexemes : List SpacedLexeme) (trailing : Nat) : String :=
  String.ofList (lexemes.flatMap characters ++ List.replicate trailing ' ')

/-- The token of a lexeme in a source, after the other lexemes in front of it and its spaces. -/
def token (spaced : SpacedLexeme) (source : String) (before : List SpacedLexeme) : Token where
  lexeme := spaced.lexeme
  source := source
  index := (before.flatMap characters ++ List.replicate spaced.spaces ' ').length
  length := spaced.piece.length

/-- The tokens of the text of lexemes: one token for each of them, in the same order. -/
def tokens (lexemes : List SpacedLexeme) (trailing : Nat) : List Token :=
  lexemes.mapIdx fun position spaced => spaced.token (text lexemes trailing) (lexemes.take position)

end SpacedLexeme

/-- Whether a lexeme would be drawn into the one before it if there were no space between them. -/
def Lexeme.isDrawnInto : Lexeme → Lexeme → Bool
  | name _, name _ | name _, number _ | number _, number _ => true
  | _, _ => false

/-- A lexeme that would be drawn into the one before it has a space in front. -/
def SpacedLexeme.IsApart (before spaced : SpacedLexeme) : Prop :=
  before.lexeme.isDrawnInto spaced.lexeme = true → 0 < spaced.spaces

/-! ### Ends of lexemes -/

section

variable {piece after next : List Char} {lexeme following : Lexeme}

/-- A lexeme ends in front of a space. -/
theorem isLongest_spaces {count : Nat} (longest : count = 0 → IsLongest piece after) :
    IsLongest piece (List.replicate count ' ' ++ after) := by
  cases count with
  | zero => exact longest rfl
  | succ more =>
    rintro character front ⟨longer, spells⟩
    cases front
    exact space_not_mem ⟨longer, spells⟩ (List.mem_append_right _ (List.mem_singleton_self ' '))

theorem isWordCharacter_character (kind : Mark) : isWordCharacter kind.character = false := by
  rw [isWordCharacter, isLower_character, isDigit_character, Bool.or_false]

/-- A lexeme ends in front of one that is not drawn into it. -/
theorem isLongest_of_isDrawnInto (spells : Spells piece lexeme) (nextSpells : Spells next following)
    (apart : lexeme.isDrawnInto following = false) (after : List Char) :
    IsLongest piece (next ++ after) := by
  intro character front continues
  cases spells with
  | mark kind => exact List.cons_ne_nil _ _ ((isLexeme_mark_iff kind).mp continues)
  | word isWord =>
    obtain ⟨first, rest, rfl, isLower, -⟩ := id isWord
    have isWordCharacter :=
      (isWord_append_iff isWord).mp ((isLexeme_letter_iff isLower).mp continues)
    cases nextSpells with
    | mark kind =>
      cases front
      rw [isWordCharacter_character] at isWordCharacter
      cases isWordCharacter
    | word _ | numeral _ _ => cases apart
  | numeral isNumeral _ =>
    obtain ⟨⟨first, rest, rfl, isDigit⟩, -⟩ := id isNumeral
    have inNumeral :=
      (isNumeral_append_iff isNumeral).mp ((isLexeme_digit_iff isDigit).mp continues)
    cases nextSpells with
    | mark kind =>
      cases front
      rcases inNumeral with nextDigit | ⟨isPeriod, -⟩
      · rw [isDigit_character] at nextDigit
        cases nextDigit
      · cases kind <;> cases isPeriod
    | word isWord =>
      obtain ⟨letter, _, rfl, isLower, -⟩ := isWord
      cases front
      rcases inNumeral with nextDigit | ⟨rfl, -⟩
      · rw [isLower_of_isDigit nextDigit] at isLower
        cases isLower
      · cases isLower
    | numeral _ _ => cases apart

end

/-! ### The layout of lexemes -/

section

variable {source : String} {before rest : List Char} {tokens : List Token}

/-- Spaces may be put in front of a text in which tokens are laid out. -/
theorem LaidOut.spaces (count : Nat)
    (others : LaidOut source (before ++ List.replicate count ' ') rest tokens) :
    LaidOut source before (List.replicate count ' ' ++ rest) tokens := by
  induction count generalizing before with
  | zero =>
    rw [List.replicate_zero, List.append_nil] at others
    exact others
  | succ more inductionHypothesis =>
    refine .space (inductionHypothesis ?_)
    rw [List.append_assoc]
    exact others

end

namespace SpacedLexeme

/-- A lexeme ends in front of the next one, or of the spaces at the end. -/
theorem isLongest {first : SpacedLexeme} {others : List SpacedLexeme}
    (apart : (first :: others).IsChain IsApart) (trailing : Nat) :
    IsLongest first.piece (others.flatMap characters ++ List.replicate trailing ' ') := by
  cases others with
  | nil =>
    rw [List.flatMap_nil, List.nil_append, ← List.append_nil (List.replicate trailing ' ')]
    exact isLongest_spaces fun _ => .nil
  | cons next rest =>
    rw [List.flatMap_cons, characters, List.append_assoc, List.append_assoc]
    refine isLongest_spaces fun noSpace => ?_
    refine isLongest_of_isDrawnInto first.spells next.spells
      (Bool.eq_false_iff.mpr fun drawn => ?_) _
    have some : 0 < next.spaces := (List.isChain_cons_cons.mp apart).1 drawn
    omega

/-- The tokens of lexemes are laid out in the text of the lexemes. -/
theorem laidOut_tokens (source : String) (before lexemes : List SpacedLexeme)
    (apart : lexemes.IsChain IsApart) (trailing : Nat) :
    LaidOut source (before.flatMap characters)
      (lexemes.flatMap characters ++ List.replicate trailing ' ')
      (lexemes.mapIdx fun position spaced =>
        spaced.token source (before ++ lexemes.take position)) := by
  induction lexemes generalizing before with
  | nil =>
    rw [List.flatMap_nil, List.nil_append, ← List.append_nil (List.replicate trailing ' ')]
    exact .spaces trailing .nil
  | cons first others inductionHypothesis =>
    have upTo : (before ++ [first]).flatMap characters =
        before.flatMap characters ++ List.replicate first.spaces ' ' ++ first.piece := by
      rw [List.flatMap_append, List.flatMap_singleton, characters, List.append_assoc]
    have later (position : Nat) : before ++ [first] ++ others.take position =
        before ++ (first :: others).take (position + 1) := by
      rw [List.take_succ_cons, List.append_assoc, List.singleton_append]
    have remaining := inductionHypothesis (before ++ [first]) apart.tail
    simp only [later] at remaining
    rw [upTo] at remaining
    rw [List.mapIdx_cons, List.flatMap_cons, characters, List.append_assoc, List.append_assoc,
      List.take_zero, List.append_nil]
    exact .spaces first.spaces (.lexeme first.spells (isLongest apart trailing) remaining)

/-- The characters at the place of a token spell its lexeme. -/
theorem isSlice_token {lexemes : List SpacedLexeme} {position : Nat} {spaced : SpacedLexeme}
    (found : lexemes[position]? = some spaced) (trailing : Nat) :
    let place := spaced.token (text lexemes trailing) (lexemes.take position)
    IsSlice (text lexemes trailing) place.index place.length spaced.piece := by
  obtain ⟨inside, rfl⟩ := List.getElem?_eq_some_iff.mp found
  have parts : lexemes =
      lexemes.take position ++ lexemes[position] :: lexemes.drop (position + 1) := by
    rw [List.getElem_cons_drop, List.take_append_drop]
  refine ⟨_, (lexemes.drop (position + 1)).flatMap characters ++ List.replicate trailing ' ', ?_,
    rfl, rfl⟩
  conv_lhs => rw [parts]
  rw [text, String.toList_ofList, List.flatMap_append, List.flatMap_cons]
  simp only [characters, List.append_assoc]

/-- A scan finds one token for every lexeme of a text, in the same order, whatever the spaces
between them, as long as no lexeme is drawn into the one before it. The token has the lexeme, and
stands where the lexeme is spelled. -/
theorem scan_text (lexemes : List SpacedLexeme) (apart : lexemes.IsChain IsApart) (trailing : Nat) :
    scan (text lexemes trailing) = .ok (tokens lexemes trailing) ∧
      List.Forall₂
        (fun (spaced : SpacedLexeme) (token : Token) =>
          token.lexeme = spaced.lexeme ∧ token.source = text lexemes trailing ∧
            IsSlice (text lexemes trailing) token.index token.length spaced.piece)
        lexemes (tokens lexemes trailing) := by
  refine ⟨scan_eq_ok_iff.mpr ?_, List.forall₂_iff_get.mpr ⟨List.length_mapIdx.symm, ?_⟩⟩
  · rw [text, String.toList_ofList]
    exact laidOut_tokens _ [] lexemes apart trailing
  · intro position inside insideTokens
    rw [List.get_eq_getElem, List.get_eq_getElem]
    simp only [tokens, List.getElem_mapIdx]
    exact ⟨rfl, rfl, isSlice_token (List.getElem?_eq_getElem inside) trailing⟩

/-- In `2x2 3. 5)` the word needs no space after the number in front of it, and neither does the
bracket. The other two numbers need one, for they would be drawn into what is in front of them. -/
theorem scan_text_adjacent :
    let two : SpacedLexeme := ⟨0, ['2'], .number 2.0,
      .numeral (isNumeral_whole ⟨'2', [], rfl⟩ (List.forall_mem_singleton.mpr rfl))
        (by decide +kernel)⟩
    let word : SpacedLexeme := ⟨0, ['x', '2'], .name "x2",
      .word ⟨'x', ['2'], rfl, rfl, List.forall_mem_singleton.mpr rfl⟩⟩
    let three : SpacedLexeme := ⟨1, ['3', '.'], .number 3.0,
      .numeral (show IsNumeral (['3'] ++ ['.']) from
        isNumeral_fraction ⟨'3', [], rfl⟩ (List.forall_mem_singleton.mpr rfl) nofun)
        (by decide +kernel)⟩
    let five : SpacedLexeme := ⟨1, ['5'], .number 5.0,
      .numeral (isNumeral_whole ⟨'5', [], rfl⟩ (List.forall_mem_singleton.mpr rfl))
        (by decide +kernel)⟩
    let closing : SpacedLexeme := ⟨0, [')'], .mark .closing ")", .mark .closing⟩
    let lexemes : List SpacedLexeme := [two, word, three, five, closing]
    let source : String := "2x2 3. 5)  "
    text lexemes 2 = source ∧ lexemes.IsChain IsApart ∧
      scan source =
        .ok [⟨.number 2.0, source, 0, 1⟩, ⟨.name "x2", source, 1, 2⟩, ⟨.number 3.0, source, 4, 2⟩,
          ⟨.number 5.0, source, 7, 1⟩, ⟨.mark .closing ")", source, 8, 1⟩] := by
  intro two word three five closing lexemes source
  have isText : text lexemes 2 = source := by decide +kernel
  have apart : lexemes.IsChain IsApart := by
    refine .cons_cons nofun (.cons_cons ?_ (.cons_cons ?_ (.cons_cons nofun (.singleton closing))))
    · exact fun _ => Nat.one_pos
    · exact fun _ => Nat.one_pos
  have scanned := (scan_text lexemes apart 2).1
  rw [tokens, isText] at scanned
  exact ⟨isText, apart, scanned⟩

end SpacedLexeme

end DirectionField
