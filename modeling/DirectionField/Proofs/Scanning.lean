/-
This file proves which texts are split into tokens, and where the splitting of all other texts
fails. If a text is split, so is its beginning. If it is not, there is a character up to which it is
split, and no text that begins with those characters and that one is.

A text is followed lexeme by lexeme. What is in front of the longest lexeme, or of a space, makes no
difference to what comes after it.
-/

import DirectionField.Proofs.Lexemes

namespace DirectionField

/-! ### The steps of a scan -/

section

variable {source : String} {index : Nat} {first : Char} {piece after : List Char} {lexeme : Lexeme}

theorem scanFrom_nil : scanFrom source index [] = .ok [] := by
  rw [scanFrom]

theorem scanFrom_space (rest : List Char) :
    scanFrom source index (' ' :: rest) = scanFrom source (index + 1) rest := by
  rw [scanFrom]

theorem scanFrom_stray (notSpace : first ≠ ' ') (isStray : ¬IsLexeme [first]) (rest : List Char) :
    scanFrom source index (first :: rest) = .error ⟨String.ofList [first], source, index⟩ := by
  rw [scanFrom]
  · split
    · rfl
    · next taken =>
      rw [takeLexeme?_eq_none_iff.mpr isStray] at taken
      cases taken
  · exact notSpace

/-- The longest lexeme at the front is the first token. -/
theorem scanFrom_lexeme (spells : Spells piece lexeme) (longest : IsLongest piece after) :
    scanFrom source index (piece ++ after) =
      (scanFrom source (index + piece.length) after).map
        (⟨lexeme, source, index, piece.length⟩ :: ·) := by
  cases piece with
  | nil => exact absurd rfl (ne_nil_of_isLexeme ⟨_, spells⟩)
  | cons first rest =>
    have notSpace : first ≠ ' ' := by
      rintro rfl
      exact space_not_mem ⟨_, spells⟩ (List.mem_cons_self ..)
    have length : (first :: (rest ++ after)).length - after.length = (first :: rest).length := by
      rw [← List.cons_append, List.length_append, Nat.add_sub_cancel]
    rw [List.cons_append, scanFrom_cons notSpace (takeLexeme?_of_longest spells longest), length]

/-- Every text is empty, or it begins with a space, with a stray character or with a lexeme that is
the longest one there. -/
theorem induction_on_lexemes {motive : List Char → Prop} (nil : motive [])
    (space : ∀ rest, motive rest → motive (' ' :: rest))
    (stray : ∀ first rest, first ≠ ' ' → ¬IsLexeme [first] → motive (first :: rest))
    (lexeme : ∀ piece after lexeme, Spells piece lexeme → IsLongest piece after → motive after →
      motive (piece ++ after)) (text : List Char) : motive text := by
  induction size : text.length using Nat.strongRecOn generalizing text with
  | ind length shorter =>
    subst size
    cases text with
    | nil => exact nil
    | cons first rest =>
      by_cases isSpace : first = ' '
      · subst isSpace
        exact space rest (shorter rest.length (Nat.lt_succ_self _) rest rfl)
      · cases taken : takeLexeme? first rest with
        | none => exact stray first rest isSpace (takeLexeme?_eq_none_iff.mp taken)
        | some pair =>
          obtain ⟨found, after⟩ := pair
          obtain ⟨piece, isPiece, spells, longest⟩ := spells_of_takeLexeme? taken
          rw [isPiece]
          have bound := length_lt_of_takeLexeme? taken
          exact lexeme piece after found spells longest (shorter after.length bound after rfl)

end

/-! ### Texts that are split into tokens -/

/-- A text is accepted if it is split into tokens. -/
def IsAccepted (text : List Char) : Prop :=
  ∃ tokens, scan (String.ofList text) = .ok tokens

section

variable {source : String} {index : Nat} {first : Char} {piece after : List Char} {lexeme : Lexeme}

theorem exists_map_eq_ok_iff {Value Result Error : Type} {outcome : Except Error Value}
    {next : Value → Result} :
    (∃ result, outcome.map next = .ok result) ↔ ∃ value, outcome = .ok value := by
  cases outcome with
  | error error => exact ⟨nofun, nofun⟩
  | ok value => exact ⟨fun _ => ⟨value, rfl⟩, fun _ => ⟨next value, rfl⟩⟩

/-- Whether a text is split does not depend on where it stands. -/
theorem exists_scanFrom_iff (source other : String) (text : List Char) (index position : Nat) :
    (∃ tokens, scanFrom source index text = .ok tokens) ↔
      ∃ tokens, scanFrom other position text = .ok tokens := by
  induction text using induction_on_lexemes generalizing index position with
  | nil => rw [scanFrom_nil, scanFrom_nil]
  | space rest inductionHypothesis =>
    rw [scanFrom_space, scanFrom_space]
    exact inductionHypothesis _ _
  | stray first rest notSpace isStray =>
    rw [scanFrom_stray notSpace isStray, scanFrom_stray notSpace isStray]
    exact ⟨nofun, nofun⟩
  | lexeme piece after lexeme spells longest inductionHypothesis =>
    rw [scanFrom_lexeme spells longest, scanFrom_lexeme spells longest, exists_map_eq_ok_iff,
      exists_map_eq_ok_iff]
    exact inductionHypothesis _ _

variable (source index) in
theorem isAccepted_iff {text : List Char} :
    IsAccepted text ↔ ∃ tokens, scanFrom source index text = .ok tokens := by
  unfold IsAccepted scan
  rw [String.toList_ofList]
  exact exists_scanFrom_iff _ source text 0 index

theorem isAccepted_nil : IsAccepted [] :=
  (isAccepted_iff "" 0).mpr ⟨[], scanFrom_nil⟩

theorem isAccepted_space_iff {rest : List Char} : IsAccepted (' ' :: rest) ↔ IsAccepted rest := by
  rw [isAccepted_iff "" 0, isAccepted_iff "" 1, scanFrom_space]

theorem not_isAccepted_stray (notSpace : first ≠ ' ') (isStray : ¬IsLexeme [first])
    (rest : List Char) : ¬IsAccepted (first :: rest) := by
  rw [isAccepted_iff "" 0, scanFrom_stray notSpace isStray]
  exact nofun

theorem isAccepted_lexeme_iff (isLexeme : IsLexeme piece) (longest : IsLongest piece after) :
    IsAccepted (piece ++ after) ↔ IsAccepted after := by
  obtain ⟨lexeme, spells⟩ := isLexeme
  rw [isAccepted_iff "" 0, isAccepted_iff "" (0 + piece.length), scanFrom_lexeme spells longest,
    exists_map_eq_ok_iff]

/-- The beginning of a text that is split is split as well. -/
theorem IsAccepted.of_append {front back : List Char} (accepted : IsAccepted (front ++ back)) :
    IsAccepted front := by
  generalize whole : front ++ back = text at accepted
  induction text using induction_on_lexemes generalizing front with
  | nil =>
    rw [(List.append_eq_nil_iff.mp whole).1]
    exact isAccepted_nil
  | space rest inductionHypothesis =>
    cases front with
    | nil => exact isAccepted_nil
    | cons first others =>
      cases whole
      exact isAccepted_space_iff.mpr (inductionHypothesis rfl (isAccepted_space_iff.mp accepted))
  | stray first rest notSpace isStray =>
    exact absurd accepted (not_isAccepted_stray notSpace isStray rest)
  | lexeme piece after lexeme spells longest inductionHypothesis =>
    have rest := (isAccepted_lexeme_iff ⟨lexeme, spells⟩ longest).mp accepted
    rcases List.append_eq_append_iff.mp whole with ⟨others, rfl, rfl⟩ | ⟨others, rfl, rfl⟩
    · cases front with
      | nil => exact isAccepted_nil
      | cons first inner =>
        have isLexeme : IsLexeme (first :: inner) := isLexeme_of_append ⟨lexeme, spells⟩
        rw [← List.append_nil (first :: inner)]
        exact (isAccepted_lexeme_iff isLexeme .nil).mpr isAccepted_nil
    · have stillLongest : IsLongest piece (others ++ []) :=
        longest.of_append fun _ front => nomatch front
      rw [List.append_nil] at stillLongest
      exact (isAccepted_lexeme_iff ⟨lexeme, spells⟩ stillLongest).mpr (inductionHypothesis rfl rest)

/-- If a text is not split, it is split up to some character, and no text that begins with what
comes before that character and with that character is. -/
theorem exists_stray_of_scanFrom {text : List Char} {error : ScanError}
    (failed : scanFrom source index text = .error error) :
    ∃ before stray after, text = before ++ stray :: after ∧
      error = ⟨String.ofList [stray], source, (index + before.length : Nat)⟩ ∧
      IsAccepted before ∧ ∀ more, ¬IsAccepted (before ++ stray :: more) := by
  induction text using induction_on_lexemes generalizing index with
  | nil =>
    rw [scanFrom_nil] at failed
    cases failed
  | space rest inductionHypothesis =>
    rw [scanFrom_space] at failed
    obtain ⟨before, stray, after, rfl, rfl, accepted, notAccepted⟩ := inductionHypothesis failed
    refine ⟨' ' :: before, stray, after, rfl, ?_, isAccepted_space_iff.mpr accepted,
      fun more => mt isAccepted_space_iff.mp (notAccepted more)⟩
    rw [List.length_cons, Nat.add_assoc, Nat.add_comm 1]
  | stray first rest notSpace isStray =>
    rw [scanFrom_stray notSpace isStray] at failed
    cases failed
    exact ⟨[], first, rest, rfl, rfl, isAccepted_nil, not_isAccepted_stray notSpace isStray⟩
  | lexeme piece after lexeme spells longest inductionHypothesis =>
    rw [scanFrom_lexeme spells longest] at failed
    cases others : scanFrom source (index + piece.length) after with
    | ok tokens =>
      rw [others] at failed
      cases failed
    | error found =>
      rw [others] at failed
      cases failed
      obtain ⟨before, stray, rest, rfl, rfl, accepted, notAccepted⟩ := inductionHypothesis others
      have longestBefore : IsLongest piece (before ++ []) :=
        longest.of_append fun _ front => nomatch front
      have longestMore (more : List Char) : IsLongest piece (before ++ stray :: more) :=
        longest.of_append fun _ front => front
      rw [List.append_nil] at longestBefore
      refine ⟨piece ++ before, stray, rest, by rw [List.append_assoc], ?_,
        (isAccepted_lexeme_iff ⟨lexeme, spells⟩ longestBefore).mpr accepted, fun more => ?_⟩
      · rw [List.length_append, Nat.add_assoc]
      · rw [List.append_assoc]
        exact mt (isAccepted_lexeme_iff ⟨lexeme, spells⟩ (longestMore more)).mp (notAccepted more)

end

end DirectionField
