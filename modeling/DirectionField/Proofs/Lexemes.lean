/-
This file says which pieces of a text are lexemes, and proves that the front lexeme of a text is the
longest one there. A lexeme is one of the eight marks, a word of small letters and digits, or a
numeral.

What a lexeme may be is decided by its first character. The beginning of a lexeme is a lexeme
itself, so that the longest one ends where the next character does not continue it.
-/

import DirectionField.Proofs.Numerals
import DirectionField.Token.Scan

namespace DirectionField

/-! ### Marks, words and lexemes -/

/-- The character that a mark is written with. -/
def Mark.character : Mark → Char
  | opening => '('
  | closing => ')'
  | plus => '+'
  | minus => '-'
  | star => '*'
  | slash => '/'
  | caret => '^'
  | comma => ','

/-- A word is a small letter, followed by small letters and digits. -/
def IsWord (piece : List Char) : Prop :=
  ∃ first rest, piece = first :: rest ∧ first.isLower = true ∧
    ∀ character ∈ rest, isWordCharacter character = true

/-- The lexeme that a piece of a text spells: a mark, a name, or a number, which has the value of
the piece as a number text. -/
inductive Spells : List Char → Lexeme → Prop
  | mark (kind : Mark) : Spells [kind.character] (.mark kind (String.ofList [kind.character]))
  | word {piece : List Char} (isWord : IsWord piece) : Spells piece (.name (String.ofList piece))
  | numeral {piece : List Char} {value : Float} (isNumeral : IsNumeral piece)
      (isValue : number? (String.ofList piece) = some value) : Spells piece (.number value)

/-- Whether a piece of a text spells a lexeme. -/
def IsLexeme (piece : List Char) : Prop :=
  ∃ lexeme, Spells piece lexeme

/-! ### Characters -/

theorem markOf?_character (kind : Mark) : markOf? kind.character = some kind := by
  cases kind <;> rfl

theorem character_of_markOf? {character : Char} {kind : Mark}
    (isMark : markOf? character = some kind) : character = kind.character := by
  unfold markOf? at isMark
  split at isMark <;> cases isMark <;> rfl

theorem isLower_character (kind : Mark) : kind.character.isLower = false := by
  cases kind <;> rfl

theorem isDigit_character (kind : Mark) : kind.character.isDigit = false := by
  cases kind <;> rfl

theorem markOf?_of_isLower {character : Char} (isLower : character.isLower = true) :
    markOf? character = none := by
  refine Option.eq_none_iff_forall_ne_some.mpr fun kind isMark => ?_
  rw [character_of_markOf? isMark, isLower_character] at isLower
  cases isLower

theorem markOf?_of_isDigit {character : Char} (isDigit : character.isDigit = true) :
    markOf? character = none := by
  refine Option.eq_none_iff_forall_ne_some.mpr fun kind isMark => ?_
  rw [character_of_markOf? isMark, isDigit_character] at isDigit
  cases isDigit

theorem isLower_of_isDigit {character : Char} (isDigit : character.isDigit = true) :
    character.isLower = false := by
  obtain ⟨value, rfl⟩ := exists_of_isDigit isDigit
  revert value
  decide

/-! ### Words -/

/-- A word is continued by small letters and digits, and by nothing else. -/
theorem isWord_append_iff {piece : List Char} (isWord : IsWord piece) {next : Char} :
    IsWord (piece ++ [next]) ↔ isWordCharacter next = true := by
  obtain ⟨first, rest, rfl, isLower, all⟩ := isWord
  constructor
  · rintro ⟨found, others, same, -, plain⟩
    cases same
    exact plain next (List.mem_append_right _ (List.mem_singleton_self next))
  · intro continues
    refine ⟨first, rest ++ [next], rfl, isLower, fun character member => ?_⟩
    rcases List.mem_append.mp member with before | isNext
    · exact all character before
    · rw [List.mem_singleton.mp isNext]
      exact continues

/-! ### Lexemes -/

section

variable {piece after : List Char} {first next : Char} {lexeme : Lexeme}

theorem isLexeme_iff :
    IsLexeme piece ↔ (∃ kind : Mark, piece = [kind.character]) ∨ IsWord piece ∨ IsNumeral piece := by
  constructor
  · rintro ⟨lexeme, kind | isWord | isNumeral⟩
    · exact Or.inl ⟨kind, rfl⟩
    · exact Or.inr (Or.inl isWord)
    · exact Or.inr (Or.inr isNumeral)
  · rintro (⟨kind, rfl⟩ | isWord | isNumeral)
    · exact ⟨_, .mark kind⟩
    · exact ⟨_, .word isWord⟩
    · exact ⟨_, .numeral isNumeral (number?_of_isNumeral isNumeral)⟩

/-- The first character decides what a lexeme may be. A stray character begins none. -/
inductive Start (first : Char) : Prop
  | mark (kind : Mark) (isMark : first = kind.character)
  | letter (isLower : first.isLower = true)
  | digit (isDigit : first.isDigit = true)
  | stray (notMark : markOf? first = none) (notLower : first.isLower = false)
      (notDigit : first.isDigit = false)

theorem start (first : Char) : Start first := by
  cases isMark : markOf? first with
  | some kind => exact .mark kind (character_of_markOf? isMark)
  | none =>
    cases isLower : first.isLower with
    | true => exact .letter isLower
    | false =>
      cases isDigit : first.isDigit with
      | true => exact .digit isDigit
      | false => exact .stray isMark isLower isDigit

theorem isLexeme_mark_iff (kind : Mark) {rest : List Char} :
    IsLexeme (kind.character :: rest) ↔ rest = [] := by
  rw [isLexeme_iff]
  constructor
  · rintro (⟨_, same⟩ | ⟨_, _, same, isLower, -⟩ | ⟨⟨_, _, same, isDigit⟩, -⟩)
    · exact (List.cons.inj same).2
    · rw [← (List.cons.inj same).1, isLower_character] at isLower
      cases isLower
    · rw [← (List.cons.inj same).1, isDigit_character] at isDigit
      cases isDigit
  · rintro rfl
    exact Or.inl ⟨kind, rfl⟩

theorem isLexeme_letter_iff (isLower : first.isLower = true) {rest : List Char} :
    IsLexeme (first :: rest) ↔ IsWord (first :: rest) := by
  rw [isLexeme_iff]
  constructor
  · rintro (⟨kind, same⟩ | isWord | ⟨⟨_, _, same, isDigit⟩, -⟩)
    · rw [(List.cons.inj same).1, isLower_character] at isLower
      cases isLower
    · exact isWord
    · rw [← (List.cons.inj same).1] at isDigit
      rw [isLower_of_isDigit isDigit] at isLower
      cases isLower
  · exact fun isWord => Or.inr (Or.inl isWord)

theorem isLexeme_digit_iff (isDigit : first.isDigit = true) {rest : List Char} :
    IsLexeme (first :: rest) ↔ IsNumeral (first :: rest) := by
  rw [isLexeme_iff]
  constructor
  · rintro (⟨kind, same⟩ | ⟨_, _, same, isLower, -⟩ | isNumeral)
    · rw [(List.cons.inj same).1, isDigit_character] at isDigit
      cases isDigit
    · rw [← (List.cons.inj same).1, isLower_of_isDigit isDigit] at isLower
      cases isLower
    · exact isNumeral
  · exact fun isNumeral => Or.inr (Or.inr isNumeral)

theorem not_isLexeme_of_stray (notMark : markOf? first = none) (notLower : first.isLower = false)
    (notDigit : first.isDigit = false) (rest : List Char) : ¬IsLexeme (first :: rest) := by
  rw [isLexeme_iff]
  rintro (⟨kind, same⟩ | ⟨_, _, same, isLower, -⟩ | ⟨⟨_, _, same, isDigit⟩, -⟩)
  · rw [(List.cons.inj same).1, markOf?_character] at notMark
    cases notMark
  · rw [← (List.cons.inj same).1, notLower] at isLower
    cases isLower
  · rw [← (List.cons.inj same).1, notDigit] at isDigit
    cases isDigit

theorem ne_nil_of_isLexeme (isLexeme : IsLexeme piece) : piece ≠ [] := by
  rcases isLexeme_iff.mp isLexeme with ⟨kind, rfl⟩ | ⟨_, _, rfl, -, -⟩ | ⟨⟨_, _, rfl, -⟩, -⟩ <;>
    exact List.cons_ne_nil _ _

/-- The beginning of a lexeme is a lexeme. -/
theorem isLexeme_of_append {rest more : List Char} (isLexeme : IsLexeme (first :: rest ++ more)) :
    IsLexeme (first :: rest) := by
  cases start first with
  | mark kind isMark =>
    subst isMark
    have alone := (isLexeme_mark_iff kind).mp isLexeme
    exact (isLexeme_mark_iff kind).mpr (List.append_eq_nil_iff.mp alone).1
  | letter isLower =>
    obtain ⟨_, _, same, -, all⟩ := (isLexeme_letter_iff isLower).mp isLexeme
    cases same
    exact (isLexeme_letter_iff isLower).mpr
      ⟨first, rest, rfl, isLower, fun character member => all character (List.mem_append_left _ member)⟩
  | digit isDigit =>
    obtain ⟨-, all, count⟩ := (isLexeme_digit_iff isDigit).mp isLexeme
    have fewer := (List.sublist_append_left (first :: rest) more).count_le '.'
    exact (isLexeme_digit_iff isDigit).mpr ⟨⟨first, rest, rfl, isDigit⟩,
      fun character member => all character (List.mem_append_left _ member), Nat.le_trans fewer count⟩
  | stray notMark notLower notDigit =>
    exact absurd isLexeme (not_isLexeme_of_stray notMark notLower notDigit _)

/-- No lexeme has a space in it. -/
theorem space_not_mem (isLexeme : IsLexeme piece) : ' ' ∉ piece := by
  intro member
  rcases isLexeme_iff.mp isLexeme with ⟨kind, rfl⟩ | ⟨first, rest, rfl, isLower, all⟩ | ⟨-, all, -⟩
  · have isSpace := List.mem_singleton.mp member
    cases kind <;> cases isSpace
  · rcases List.mem_cons.mp member with rfl | member
    · cases isLower
    · cases all ' ' member
  · rcases all ' ' member with isDigit | isPeriod
    · cases isDigit
    · cases isPeriod

/-! ### The longest lexeme at the front -/

/-- A piece of a text ends as late as possible: the next character does not continue it to a longer
lexeme. -/
def IsLongest (piece after : List Char) : Prop :=
  ∀ next, after.head? = some next → ¬IsLexeme (piece ++ [next])

theorem IsLongest.nil : IsLongest piece [] := by
  intro next front
  cases front

/-- Only the next character counts. -/
theorem IsLongest.of_append {before rest more : List Char} (longest : IsLongest piece (before ++ rest))
    (same : ∀ next, more.head? = some next → rest.head? = some next) :
    IsLongest piece (before ++ more) := by
  intro next front
  refine longest next ?_
  rw [List.head?_append] at front ⊢
  cases before with
  | nil => exact same next front
  | cons first others => exact front

theorem takeLexeme?_mark (kind : Mark) (rest : List Char) :
    takeLexeme? kind.character rest =
      some (.mark kind (String.ofList [kind.character]), rest) := by
  rw [takeLexeme?, markOf?_character]

theorem takeLexeme?_letter (isLower : first.isLower = true) (rest : List Char) :
    takeLexeme? first rest =
      some (.name (String.ofList (first :: rest.takeWhile isWordCharacter)),
        rest.dropWhile isWordCharacter) := by
  rw [takeLexeme?, markOf?_of_isLower isLower]
  exact if_pos isLower

theorem takeLexeme?_digit (isDigit : first.isDigit = true) (rest : List Char) :
    takeLexeme? first rest =
      some (.number ((Numeral.takeFront (first :: rest)).1.value 0),
        (Numeral.takeFront (first :: rest)).2) := by
  have notLower : ¬first.isLower = true := by
    rw [isLower_of_isDigit isDigit]
    exact Bool.false_ne_true
  rw [takeLexeme?, markOf?_of_isDigit isDigit]
  dsimp only
  rw [if_neg notLower, if_pos isDigit]

theorem takeLexeme?_stray (notMark : markOf? first = none) (notLower : first.isLower = false)
    (notDigit : first.isDigit = false) (rest : List Char) : takeLexeme? first rest = none := by
  rw [takeLexeme?, notMark]
  dsimp only
  rw [notLower, notDigit]
  rfl

/-- The lexeme that is taken from the front of a text is the longest one there. -/
theorem spells_of_takeLexeme? {rest : List Char}
    (taken : takeLexeme? first rest = some (lexeme, after)) :
    ∃ piece, first :: rest = piece ++ after ∧ Spells piece lexeme ∧ IsLongest piece after := by
  cases start first with
  | mark kind isMark =>
    subst isMark
    rw [takeLexeme?_mark] at taken
    cases taken
    exact ⟨[kind.character], rfl, .mark kind,
      fun next _ longer => List.cons_ne_nil _ _ ((isLexeme_mark_iff kind).mp longer)⟩
  | letter isLower =>
    rw [takeLexeme?_letter isLower] at taken
    cases taken
    have isWord : IsWord (first :: rest.takeWhile isWordCharacter) :=
      ⟨first, _, rfl, isLower, fun _ => of_mem_takeWhile⟩
    refine ⟨first :: rest.takeWhile isWordCharacter, ?_, .word isWord, fun next front longer => ?_⟩
    · rw [List.cons_append, List.takeWhile_append_dropWhile]
    · have continues :=
        (isWord_append_iff isWord).mp ((isLexeme_letter_iff isLower).mp longer)
      rw [head?_dropWhile front] at continues
      cases continues
  | digit isDigit =>
    rw [takeLexeme?_digit isDigit] at taken
    cases taken
    obtain ⟨isNumeral, ends⟩ := isNumeral_takeFront isDigit rest
    have whole := Numeral.takeFront_append (first :: rest)
    have same := takeFront_append_of_isNumeral isNumeral ends
    rw [whole] at same
    refine ⟨_, whole.symm, .numeral isNumeral ?_, fun next front longer => ends next front ?_⟩
    · rw [number?_of_isNumeral isNumeral, ← congrArg Prod.fst same]
    · obtain ⟨⟨digit, others, isDigits, isDigit⟩, -⟩ := isNumeral
      rw [isDigits] at longer ⊢
      exact (isLexeme_digit_iff isDigit).mp longer
  | stray notMark notLower notDigit =>
    rw [takeLexeme?_stray notMark notLower notDigit] at taken
    cases taken

/-- Nothing is taken from the front of a text if its first character begins no lexeme. -/
theorem takeLexeme?_eq_none_iff {rest : List Char} :
    takeLexeme? first rest = none ↔ ¬IsLexeme [first] := by
  constructor
  · intro none
    cases start first with
    | mark kind isMark =>
      rw [isMark, takeLexeme?_mark] at none
      cases none
    | letter isLower =>
      rw [takeLexeme?_letter isLower] at none
      cases none
    | digit isDigit =>
      rw [takeLexeme?_digit isDigit] at none
      cases none
    | stray notMark notLower notDigit => exact not_isLexeme_of_stray notMark notLower notDigit []
  · refine fun isStray => Option.eq_none_iff_forall_ne_some.mpr fun ⟨lexeme, after⟩ taken => ?_
    obtain ⟨piece, isPiece, spells, -⟩ := spells_of_takeLexeme? taken
    cases piece with
    | nil => exact absurd rfl (ne_nil_of_isLexeme ⟨_, spells⟩)
    | cons found others =>
      cases isPiece
      exact isStray (isLexeme_of_append ⟨_, spells⟩)

/-- The longest lexeme at the front of a text is taken from it. -/
theorem takeLexeme?_of_longest {rest : List Char} (spells : Spells (first :: rest) lexeme)
    (longest : IsLongest (first :: rest) after) :
    takeLexeme? first (rest ++ after) = some (lexeme, after) := by
  cases spells with
  | mark kind => exact takeLexeme?_mark kind after
  | word isWord =>
    obtain ⟨_, _, same, isLower, all⟩ := id isWord
    cases same
    have ends (next : Char) (front : after.head? = some next) : isWordCharacter next = false := by
      refine Bool.eq_false_iff.mpr fun continues => longest next front ?_
      exact (isLexeme_letter_iff isLower).mpr ((isWord_append_iff isWord).mpr continues)
    rw [takeLexeme?_letter isLower, takeWhile_append_of_ends all ends,
      dropWhile_append_of_ends all ends]
  | numeral isNumeral isValue =>
    obtain ⟨⟨_, _, same, isDigit⟩, -⟩ := id isNumeral
    cases same
    have front := takeFront_append_of_isNumeral isNumeral fun next isNext continued =>
      longest next isNext ((isLexeme_digit_iff isDigit).mpr continued)
    rw [List.cons_append] at front
    rw [number?_of_isNumeral isNumeral] at isValue
    cases isValue
    rw [takeLexeme?_digit isDigit, front]

/-! ### The ends of lexemes -/

theorem isLexeme_append_digit (isLexeme : IsLexeme piece)
    (notMark : ∀ kind : Mark, piece ≠ [kind.character])
    (isDigit : next.isDigit = true) : IsLexeme (piece ++ [next]) := by
  rcases isLexeme_iff.mp isLexeme with ⟨kind, isMark⟩ | isWord | isNumeral
  · exact absurd isMark (notMark kind)
  · have continues : isWordCharacter next = true := by
      rw [isWordCharacter, isDigit, Bool.or_true]
    exact isLexeme_iff.mpr (Or.inr (Or.inl ((isWord_append_iff isWord).mpr continues)))
  · exact isLexeme_iff.mpr
      (Or.inr (Or.inr ((isNumeral_append_iff isNumeral).mpr (Or.inl isDigit))))

theorem isWord_of_letter_mem (isLexeme : IsLexeme piece) (isLower : first.isLower = true)
    (member : first ∈ piece) : IsWord piece := by
  rcases isLexeme_iff.mp isLexeme with ⟨kind, rfl⟩ | isWord | ⟨-, all, -⟩
  · rw [List.mem_singleton.mp member, isLower_character] at isLower
    cases isLower
  · exact isWord
  · rcases all first member with isDigit | rfl
    · rw [isLower_of_isDigit isDigit] at isLower
      cases isLower
    · cases isLower

/-- If a lexeme ends in a piece that some character continues, then that character continues the
lexeme as well, unless it begins no lexeme itself. -/
theorem isLexeme_append_of_suffix {inner : List Char} (isLexeme : IsLexeme piece)
    (isSuffix : first :: inner <:+ piece) (begins : IsLexeme [next])
    (continues : IsLexeme (first :: inner ++ [next])) : IsLexeme (piece ++ [next]) := by
  have member : first ∈ piece := isSuffix.mem (List.mem_cons_self ..)
  cases start first with
  | mark kind isMark =>
    subst isMark
    exact absurd ((isLexeme_mark_iff kind).mp continues) (List.append_ne_nil_of_right_ne_nil _ nofun)
  | letter isLower =>
    have isWord : IsWord (first :: inner) :=
      (isLexeme_letter_iff isLower).mp (isLexeme_of_append continues)
    have isWordCharacter :=
      (isWord_append_iff isWord).mp ((isLexeme_letter_iff isLower).mp continues)
    have whole := isWord_of_letter_mem isLexeme isLower member
    exact isLexeme_iff.mpr (Or.inr (Or.inl ((isWord_append_iff whole).mpr isWordCharacter)))
  | digit isDigit =>
    have isNumeral : IsNumeral (first :: inner) :=
      (isLexeme_digit_iff isDigit).mp (isLexeme_of_append continues)
    rcases (isNumeral_append_iff isNumeral).mp ((isLexeme_digit_iff isDigit).mp continues) with
      nextDigit | ⟨rfl, -⟩
    · refine isLexeme_append_digit isLexeme (fun kind isMark => ?_) nextDigit
      rw [isMark] at member
      rw [List.mem_singleton.mp member, isDigit_character] at isDigit
      cases isDigit
    · exact absurd begins (not_isLexeme_of_stray rfl rfl rfl [])
  | stray notMark notLower notDigit =>
    exact absurd continues (not_isLexeme_of_stray notMark notLower notDigit _)

end

end DirectionField
