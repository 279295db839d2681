/-
This file says how tokens are laid out in a text: one after the other, each as long as it can be,
with nothing but spaces between them. Scanning a text finds the tokens that are laid out in it.

No lexeme goes across the end of a token. What continues the token's last characters would continue
the token, because whatever follows it is a space or begins a lexeme.
-/

import DirectionField.Proofs.Scanning

namespace DirectionField

/-! ### Tokens in the rest of a text -/

/-- Tokens are laid out in the rest of a source, in front of which there are some characters. -/
inductive LaidOut (source : String) : List Char → List Char → List Token → Prop
  | nil {before : List Char} : LaidOut source before [] []
  | space {before rest : List Char} {tokens : List Token}
      (others : LaidOut source (before ++ [' ']) rest tokens) :
      LaidOut source before (' ' :: rest) tokens
  | lexeme {before piece after : List Char} {lexeme : Lexeme} {tokens : List Token}
      (spells : Spells piece lexeme) (longest : IsLongest piece after)
      (others : LaidOut source (before ++ piece) after tokens) :
      LaidOut source before (piece ++ after)
        (⟨lexeme, source, before.length, piece.length⟩ :: tokens)

section

variable {source : String} {before rest : List Char} {tokens : List Token}

theorem laidOut_of_scanFrom (scanned : scanFrom source before.length rest = .ok tokens) :
    LaidOut source before rest tokens := by
  induction rest using induction_on_lexemes generalizing before tokens with
  | nil =>
    rw [scanFrom_nil] at scanned
    cases scanned
    exact .nil
  | space rest inductionHypothesis =>
    rw [scanFrom_space] at scanned
    refine .space (inductionHypothesis ?_)
    rw [List.length_append]
    exact scanned
  | stray first rest notSpace isStray =>
    rw [scanFrom_stray notSpace isStray] at scanned
    cases scanned
  | lexeme piece after lexeme spells longest inductionHypothesis =>
    rw [scanFrom_lexeme spells longest] at scanned
    cases others : scanFrom source (before.length + piece.length) after with
    | error error =>
      rw [others] at scanned
      cases scanned
    | ok found =>
      rw [others] at scanned
      cases scanned
      refine .lexeme spells longest (inductionHypothesis ?_)
      rw [List.length_append]
      exact others

theorem scanFrom_of_laidOut (laidOut : LaidOut source before rest tokens) :
    scanFrom source before.length rest = .ok tokens := by
  induction laidOut with
  | nil => exact scanFrom_nil
  | space _ scanned =>
    rw [List.length_append] at scanned
    rw [scanFrom_space]
    exact scanned
  | lexeme spells longest _ scanned =>
    rw [List.length_append] at scanned
    rw [scanFrom_lexeme spells longest, scanned]
    rfl

/-- What a scan finds in a text is laid out there, and what is laid out is found. -/
theorem scan_eq_ok_iff : scan source = .ok tokens ↔ LaidOut source [] source.toList tokens := by
  constructor
  · intro scanned
    exact laidOut_of_scanFrom scanned
  · intro laidOut
    exact scanFrom_of_laidOut laidOut

/-! ### Lexemes and the ends of tokens -/

/-- No lexeme goes across the end of the characters before and into the rest. -/
def IsParted (before rest : List Char) : Prop :=
  ∀ first inner next, first :: inner <:+ before → rest.head? = some next →
    ¬IsLexeme (first :: inner ++ [next])

theorem isParted_nil (rest : List Char) : IsParted [] rest := by
  intro first inner next isSuffix
  cases List.suffix_nil.mp isSuffix

theorem isParted_space (before rest : List Char) : IsParted (before ++ [' ']) rest := by
  rintro first inner next ⟨more, whole⟩ - isLexeme
  have inside : ' ' ∈ first :: inner := by
    rcases List.append_eq_append_iff.mp whole with ⟨left, -, isSuffix⟩ | ⟨left, -, isSpace⟩
    · rw [isSuffix]
      exact List.mem_append_right _ (List.mem_singleton_self ' ')
    · have isFirst : first ∈ [' '] := by
        rw [isSpace]
        exact List.mem_append_right _ (List.mem_cons_self ..)
      rw [List.mem_singleton.mp isFirst]
      exact List.mem_cons_self ..
  exact space_not_mem isLexeme (List.mem_append_left _ inside)

/-- A text in which tokens are laid out begins with a space or with a lexeme. -/
theorem LaidOut.begins (laidOut : LaidOut source before rest tokens) {next : Char}
    (front : rest.head? = some next) : next = ' ' ∨ IsLexeme [next] := by
  cases laidOut with
  | nil => cases front
  | space _ =>
    cases front
    exact Or.inl rfl
  | @lexeme _ piece _ lexeme _ spells _ _ =>
    cases piece with
    | nil => exact absurd rfl (ne_nil_of_isLexeme ⟨lexeme, spells⟩)
    | cons first inner =>
      cases front
      exact Or.inr (isLexeme_of_append ⟨lexeme, spells⟩)

/-- If no lexeme goes across the beginning of a token, none goes across its end. -/
theorem LaidOut.isParted {piece after : List Char} (parted : IsParted before (piece ++ after))
    (isLexeme : IsLexeme piece) (longest : IsLongest piece after)
    (others : LaidOut source (before ++ piece) after tokens) : IsParted (before ++ piece) after := by
  rintro first inner next ⟨more, whole⟩ front continues
  rcases others.begins front with rfl | begins
  · exact space_not_mem continues (List.mem_append_right _ (List.mem_singleton_self ' '))
  -- A lexeme that goes across the end starts before the token, at its front or inside it.
  rcases List.append_eq_append_iff.mp whole with ⟨left, isBefore, isPiece⟩ | ⟨left, -, isPiece⟩
  · cases left with
    | nil =>
      rw [List.nil_append] at isPiece
      exact longest next front (isPiece ▸ continues)
    | cons start between =>
      cases piece with
      | nil => exact ne_nil_of_isLexeme isLexeme rfl
      | cons token inside =>
        refine parted start between token ⟨more, isBefore.symm⟩ rfl ?_
        have longer : IsLexeme (start :: (between ++ [token]) ++ (inside ++ [next])) := by
          rw [isPiece] at continues
          simpa only [List.cons_append, List.append_assoc, List.nil_append] using continues
        exact isLexeme_of_append longer
  · exact longest next front
      (isLexeme_append_of_suffix isLexeme ⟨left, isPiece.symm⟩ begins continues)

end

end DirectionField
