/-
This file says which pieces of a text are numerals, and proves that a numeral has the value that it
has as a number text. A number text may have blank ends, a sign, separators, an exponent and digits
of any script, none of which a numeral has.

A numeral is a run of digits, or two such runs with a period between them. So what is taken from the
front of a text is known from the character after it.
-/

import DirectionField.Number.Numeral

namespace DirectionField

/-- A numeral begins with a digit and consists of digits and at most one period. -/
def IsNumeral (piece : List Char) : Prop :=
  (∃ first rest, piece = first :: rest ∧ first.isDigit = true) ∧
    (∀ character ∈ piece, character.isDigit = true ∨ character = '.') ∧ piece.count '.' ≤ 1

/-! ### Characters of numerals -/

/-- A digit is one of ten characters. -/
theorem exists_of_isDigit {character : Char} (isDigit : character.isDigit = true) :
    ∃ value : Fin 10, character = Char.ofNat (48 + value) := by
  simp only [Char.isDigit, Bool.and_eq_true, decide_eq_true_eq] at isDigit
  have lower : 48 ≤ character.toNat := isDigit.1
  have upper : character.toNat ≤ 57 := isDigit.2
  refine ⟨⟨character.toNat - 48, by omega⟩, ?_⟩
  rw [Nat.add_sub_cancel' lower, Char.ofNat_toNat]

/-- The characters of numerals are neither blank nor signs, they separate no digits, and they are
the plain form of themselves. -/
theorem numeralCharacter_plain {character : Char}
    (inNumeral : character.isDigit = true ∨ character = '.') :
    isBlank character = false ∧ character ≠ '_' ∧
      ((digitValue? character).map digitOf).getD character = character := by
  rcases inNumeral with isDigit | rfl
  · obtain ⟨value, rfl⟩ := exists_of_isDigit isDigit
    revert value
    decide
  · decide

/-! ### Runs of characters -/

section

variable {Value : Type} {test : Value → Bool} {run after : List Value}

theorem takeWhile_append_of_ends (all : ∀ value ∈ run, test value = true)
    (ends : ∀ next, after.head? = some next → test next = false) :
    (run ++ after).takeWhile test = run := by
  rw [List.takeWhile_append_of_pos all]
  cases after with
  | nil => rw [List.takeWhile_nil, List.append_nil]
  | cons next rest => rw [List.takeWhile_cons, ends next rfl, if_neg Bool.false_ne_true,
      List.append_nil]

theorem dropWhile_append_of_ends (all : ∀ value ∈ run, test value = true)
    (ends : ∀ next, after.head? = some next → test next = false) :
    (run ++ after).dropWhile test = after := by
  rw [List.dropWhile_append_of_pos all]
  cases after with
  | nil => rfl
  | cons next rest => rw [List.dropWhile_cons, ends next rfl, if_neg Bool.false_ne_true]

theorem head?_dropWhile {text : List Value} {next : Value}
    (front : (text.dropWhile test).head? = some next) : test next = false := by
  have stops := List.head?_dropWhile_not test text
  rwa [front] at stops

theorem of_mem_takeWhile {text : List Value} {value : Value}
    (member : value ∈ text.takeWhile test) : test value = true :=
  List.all_eq_true.mp List.all_takeWhile value member

end

/-! ### Numerals -/

section

variable {piece whole fraction after : List Char}

theorem not_mem_period (digits : ∀ digit ∈ whole, digit.isDigit = true) : '.' ∉ whole :=
  fun member => Bool.false_ne_true (digits '.' member)

/-- A numeral is a run of digits, or two such runs with a period between them. -/
theorem shape_of_isNumeral (isNumeral : IsNumeral piece) :
    (∀ digit ∈ piece, digit.isDigit = true) ∨
      ∃ whole fraction, piece = whole ++ '.' :: fraction ∧
        (∀ digit ∈ whole, digit.isDigit = true) ∧ ∀ digit ∈ fraction, digit.isDigit = true := by
  obtain ⟨-, all, count⟩ := isNumeral
  by_cases hasPeriod : '.' ∈ piece
  · obtain ⟨whole, fraction, rfl⟩ := List.append_of_mem hasPeriod
    rw [List.count_append, List.count_cons_self] at count
    have noneBefore : '.' ∉ whole := List.count_eq_zero.mp (by omega)
    have noneAfter : '.' ∉ fraction := List.count_eq_zero.mp (by omega)
    refine Or.inr ⟨whole, fraction, rfl, fun digit member => ?_, fun digit member => ?_⟩
    · refine (all digit (List.mem_append_left _ member)).resolve_right fun isPeriod => ?_
      exact noneBefore (isPeriod ▸ member)
    · have inside : digit ∈ whole ++ '.' :: fraction :=
        List.mem_append_right _ (List.mem_cons_of_mem _ member)
      exact (all digit inside).resolve_right fun isPeriod => noneAfter (isPeriod ▸ member)
  · exact Or.inl fun digit member =>
      (all digit member).resolve_right fun isPeriod => hasPeriod (isPeriod ▸ member)

theorem isNumeral_whole (begins : ∃ first rest, whole = first :: rest)
    (digits : ∀ digit ∈ whole, digit.isDigit = true) : IsNumeral whole := by
  obtain ⟨first, rest, rfl⟩ := begins
  refine ⟨⟨first, rest, rfl, digits first (List.mem_cons_self ..)⟩,
    fun character member => Or.inl (digits character member), ?_⟩
  rw [List.count_eq_zero.mpr (not_mem_period digits)]
  exact Nat.zero_le 1

theorem isNumeral_fraction (begins : ∃ first rest, whole = first :: rest)
    (wholeDigits : ∀ digit ∈ whole, digit.isDigit = true)
    (fractionDigits : ∀ digit ∈ fraction, digit.isDigit = true) :
    IsNumeral (whole ++ '.' :: fraction) := by
  obtain ⟨first, rest, rfl⟩ := begins
  refine ⟨⟨first, _, rfl, wholeDigits first (List.mem_cons_self ..)⟩, fun character member => ?_, ?_⟩
  · rcases List.mem_append.mp member with inWhole | inFraction
    · exact Or.inl (wholeDigits character inWhole)
    · rcases List.mem_cons.mp inFraction with isPeriod | inFraction
      · exact Or.inr isPeriod
      · exact Or.inl (fractionDigits character inFraction)
  · refine Nat.le_of_eq ?_
    rw [List.count_append, List.count_cons_self, List.count_eq_zero.mpr (not_mem_period wholeDigits),
      List.count_eq_zero.mpr (not_mem_period fractionDigits)]

/-- A numeral is continued by a digit and by its first period, and by nothing else. -/
theorem isNumeral_append_iff (isNumeral : IsNumeral piece) {next : Char} :
    IsNumeral (piece ++ [next]) ↔ next.isDigit = true ∨ next = '.' ∧ '.' ∉ piece := by
  obtain ⟨⟨first, rest, rfl, isDigit⟩, all, count⟩ := isNumeral
  have inside : ∀ character ∈ first :: rest ++ [next],
      character ∈ first :: rest ∨ character = next := fun character member =>
    (List.mem_append.mp member).imp_right List.mem_singleton.mp
  constructor
  · rintro ⟨-, plain, few⟩
    refine (plain next (List.mem_append_right _ (List.mem_singleton_self next))).imp_right ?_
    rintro rfl
    rw [List.count_append, List.count_singleton_self] at few
    exact ⟨rfl, List.count_eq_zero.mp (by omega)⟩
  · rintro continues
    refine ⟨⟨first, rest ++ [next], rfl, isDigit⟩, fun character member => ?_, ?_⟩
    · rcases inside character member with before | rfl
      · exact all character before
      · exact continues.imp_right And.left
    · rw [List.count_append]
      rcases continues with nextDigit | ⟨rfl, noPeriod⟩
      · have noPeriod : '.' ∉ [next] :=
          not_mem_period fun digit member => List.mem_singleton.mp member ▸ nextDigit
        rwa [List.count_eq_zero.mpr noPeriod]
      · refine Nat.le_of_eq ?_
        rw [List.count_eq_zero.mpr noPeriod, List.count_singleton_self]

theorem takeFront_whole (digits : ∀ digit ∈ whole, digit.isDigit = true)
    (ends : ∀ next, after.head? = some next → next.isDigit = false ∧ next ≠ '.') :
    Numeral.takeFront (whole ++ after) = (⟨whole, none⟩, after) := by
  have noDigit (next : Char) (front : after.head? = some next) : next.isDigit = false :=
    (ends next front).1
  unfold Numeral.takeFront
  rw [takeWhile_append_of_ends digits noDigit, dropWhile_append_of_ends digits noDigit]
  split
  · exact absurd rfl (ends '.' rfl).2
  · rfl

theorem takeFront_fraction (wholeDigits : ∀ digit ∈ whole, digit.isDigit = true)
    (fractionDigits : ∀ digit ∈ fraction, digit.isDigit = true)
    (ends : ∀ next, after.head? = some next → next.isDigit = false) :
    Numeral.takeFront (whole ++ '.' :: fraction ++ after) = (⟨whole, some fraction⟩, after) := by
  have period (next : Char) (front : ('.' :: (fraction ++ after)).head? = some next) :
      next.isDigit = false := by
    cases front
    rfl
  unfold Numeral.takeFront
  rw [List.append_assoc, List.cons_append, takeWhile_append_of_ends wholeDigits period,
    dropWhile_append_of_ends wholeDigits period]
  show (Numeral.mk whole (some ((fraction ++ after).takeWhile Char.isDigit)),
    (fraction ++ after).dropWhile Char.isDigit) = _
  rw [takeWhile_append_of_ends fractionDigits ends, dropWhile_append_of_ends fractionDigits ends]

/-- A numeral is the front numeral of a text if the next character does not continue it. -/
theorem takeFront_append_of_isNumeral (isNumeral : IsNumeral piece)
    (ends : ∀ next, after.head? = some next → ¬IsNumeral (piece ++ [next])) :
    Numeral.takeFront (piece ++ after) = ((Numeral.takeFront piece).1, after) := by
  have stops (next : Char) (front : after.head? = some next) :
      next.isDigit = false ∧ (next = '.' → '.' ∈ piece) := by
    have notContinued := mt (isNumeral_append_iff isNumeral).mpr (ends next front)
    obtain ⟨noDigit, noPeriod⟩ := not_or.mp notContinued
    exact ⟨Bool.eq_false_iff.mpr noDigit,
      fun isPeriod => Classical.not_not.mp fun absent => noPeriod ⟨isPeriod, absent⟩⟩
  rcases shape_of_isNumeral isNumeral with digits | ⟨whole, fraction, rfl, wholeDigits, fractionDigits⟩
  · have alone : Numeral.takeFront (piece ++ []) = (⟨piece, none⟩, []) :=
      takeFront_whole digits nofun
    rw [List.append_nil] at alone
    rw [alone]
    exact takeFront_whole digits fun next front =>
      ⟨(stops next front).1, fun isPeriod => not_mem_period digits ((stops next front).2 isPeriod)⟩
  · have alone : Numeral.takeFront (whole ++ '.' :: fraction ++ []) = (⟨whole, some fraction⟩, []) :=
      takeFront_fraction wholeDigits fractionDigits nofun
    rw [List.append_nil] at alone
    rw [alone]
    exact takeFront_fraction wholeDigits fractionDigits fun next front => (stops next front).1

theorem takeFront_of_isNumeral (isNumeral : IsNumeral piece) :
    Numeral.takeFront piece = ((Numeral.takeFront piece).1, []) := by
  have alone : Numeral.takeFront (piece ++ []) = ((Numeral.takeFront piece).1, []) :=
    takeFront_append_of_isNumeral isNumeral nofun
  rwa [List.append_nil] at alone

/-- The front numeral of a text that begins with a digit is a numeral, and the next character does
not continue it. -/
theorem isNumeral_takeFront {first : Char} (isDigit : first.isDigit = true) (rest : List Char) :
    IsNumeral (Numeral.takeFront (first :: rest)).1.characters ∧
      ∀ next, (Numeral.takeFront (first :: rest)).2.head? = some next →
        ¬IsNumeral ((Numeral.takeFront (first :: rest)).1.characters ++ [next]) := by
  have begins : ∃ digit others, (first :: rest).takeWhile Char.isDigit = digit :: others :=
    ⟨first, rest.takeWhile Char.isDigit, List.takeWhile_cons_of_pos isDigit⟩
  have digits (text : List Char) (digit : Char) (member : digit ∈ text.takeWhile Char.isDigit) :
      digit.isDigit = true := of_mem_takeWhile member
  unfold Numeral.takeFront
  split
  · next after found =>
    dsimp only [Numeral.characters]
    have isNumeral := isNumeral_fraction begins (digits _) (digits after)
    refine ⟨isNumeral, fun next front continued => ?_⟩
    have noDigit : next.isDigit = false := head?_dropWhile front
    rcases (isNumeral_append_iff isNumeral).mp continued with isDigit | ⟨-, noPeriod⟩
    · rw [isDigit] at noDigit
      cases noDigit
    · exact noPeriod (List.mem_append_right _ (List.mem_cons_self ..))
  · next noPeriodNext =>
    dsimp only [Numeral.characters]
    have isNumeral := isNumeral_whole begins (digits _)
    refine ⟨isNumeral, fun next front continued => ?_⟩
    have noDigit : next.isDigit = false := head?_dropWhile front
    rcases (isNumeral_append_iff isNumeral).mp continued with isDigit | ⟨rfl, -⟩
    · rw [isDigit] at noDigit
      cases noDigit
    · obtain ⟨tail, isTail⟩ := List.head?_eq_some_iff.mp front
      exact noPeriodNext tail isTail

end

/-! ### The value of a numeral -/

section

variable {text : List Char}

theorem stripBlanks_of_plain (plain : ∀ character ∈ text, isBlank character = false) :
    stripBlanks text = text := by
  have ends (characters : List Char) (same : ∀ character ∈ characters, character ∈ text) :
      characters.dropWhile isBlank = characters := by
    show ([] ++ characters).dropWhile isBlank = characters
    exact dropWhile_append_of_ends nofun fun next front =>
      plain next (same next (List.mem_of_head? front))
  unfold stripBlanks
  rw [ends text fun _ => id, ends text.reverse fun _ => List.mem_reverse.mp, List.reverse_reverse]

theorem withoutSeparators_of_plain (plain : '_' ∉ text) : withoutSeparators text = text := by
  induction text with
  | nil => rfl
  | cons first rest inductionHypothesis =>
    obtain ⟨-, absent⟩ := not_or.mp (mt List.mem_cons.mpr plain)
    have same := inductionHypothesis absent
    unfold withoutSeparators
    split
    · next found =>
      cases found
      exact absurd (List.mem_cons_self ..) absent
    · next found =>
      cases found
      rw [same]
    · next found => cases found

theorem withPlainDigits_of_plain
    (plain : ∀ character ∈ text, ((digitValue? character).map digitOf).getD character = character) :
    withPlainDigits text = text := by
  unfold withPlainDigits
  exact (List.map_congr_left plain).trans (List.map_id' text)

theorem splitSign_of_isDigit {first : Char} (isDigit : first.isDigit = true) (rest : List Char) :
    splitSign (first :: rest) = (false, first :: rest) := by
  unfold splitSign
  split
  · next found =>
    cases found
    cases isDigit
  · next found =>
    cases found
    cases isDigit
  · rfl

theorem digits_takeFront_ne_nil {first : Char} (isDigit : first.isDigit = true) (rest : List Char) :
    (Numeral.takeFront (first :: rest)).1.digits ≠ [] := by
  have begins : (first :: rest).takeWhile Char.isDigit ≠ [] := by
    rw [List.takeWhile_cons_of_pos isDigit]
    exact List.cons_ne_nil _ _
  unfold Numeral.takeFront
  split <;> exact List.append_ne_nil_of_left_ne_nil begins _

theorem unsignedNumber?_of_isNumeral {piece : List Char} (isNumeral : IsNumeral piece) :
    unsignedNumber? piece = some ((Numeral.takeFront piece).1.value 0) := by
  obtain ⟨⟨first, rest, isFirst, isDigit⟩, -, -⟩ := id isNumeral
  have noWord (word : String) (letter : ∀ value : Fin 10,
      word.toList.head? ≠ some (Char.ofNat (48 + value)).toLower) :
      String.ofList (piece.map Char.toLower) ≠ word := by
    rintro rfl
    obtain ⟨value, rfl⟩ := exists_of_isDigit isDigit
    refine letter value ?_
    rw [String.toList_ofList, isFirst]
    rfl
  have digits : (Numeral.takeFront piece).1.digits ≠ [] := by
    rw [isFirst]
    exact digits_takeFront_ne_nil isDigit rest
  unfold unsignedNumber?
  dsimp only
  rw [if_neg (not_or.mpr ⟨noWord "inf" (by decide), noWord "infinity" (by decide)⟩),
    if_neg (noWord "nan" (by decide)), takeFront_of_isNumeral isNumeral]
  dsimp only
  rw [if_neg digits]
  rfl

/-- The number that a numeral stands for as a number text is the value of its digits. -/
theorem number?_of_isNumeral {piece : List Char} (isNumeral : IsNumeral piece) :
    number? (String.ofList piece) = some ((Numeral.takeFront piece).1.value 0) := by
  obtain ⟨⟨first, rest, rfl, isDigit⟩, all, -⟩ := id isNumeral
  have plain (character : Char) (member : character ∈ first :: rest) :=
    numeralCharacter_plain (all character member)
  have noSeparator : '_' ∉ first :: rest := fun member => (plain '_' member).2.1 rfl
  unfold number?
  rw [String.toList_ofList, stripBlanks_of_plain fun character member => (plain character member).1,
    withPlainDigits_of_plain fun character member => (plain character member).2.2,
    withoutSeparators_of_plain noSeparator]
  dsimp only
  rw [splitSign_of_isDigit isDigit]
  dsimp only
  rw [unsignedNumber?_of_isNumeral isNumeral]
  rfl

end

end DirectionField
