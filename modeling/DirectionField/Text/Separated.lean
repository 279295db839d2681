/-
This file splits texts at a separator.
-/

namespace DirectionField

/-- The parts of a text between the occurrences of a separator. There is always one part more than
there are separators. -/
def separatedBy (separator : Char) : List Char → List (List Char)
  | [] => [[]]
  | first :: rest =>
    if first = separator then
      [] :: separatedBy separator rest
    else
      match separatedBy separator rest with
      | [] => [[first]]
      | part :: parts => (first :: part) :: parts

theorem length_separatedBy (separator : Char) (text : List Char) :
    (separatedBy separator text).length = text.count separator + 1 := by
  induction text with
  | nil => rfl
  | cons first rest inductionHypothesis =>
    unfold separatedBy
    split
    · next same => simp [same, inductionHypothesis]
    · next different =>
      rw [List.count_cons_of_ne different]
      split
      · next none => simp [none] at inductionHypothesis
      · next part parts found =>
        rw [found] at inductionHypothesis
        simpa using inductionHypothesis

/-- The first part of a text ends where the first separator is. -/
theorem separatedBy_append_cons {separator : Char} {front : List Char} (absent : separator ∉ front)
    (rest : List Char) :
    separatedBy separator (front ++ separator :: rest) = front :: separatedBy separator rest := by
  induction front with
  | nil => rw [List.nil_append, separatedBy, if_pos rfl]
  | cons first others inductionHypothesis =>
    obtain ⟨different, absent⟩ := not_or.mp (mt List.mem_cons.mpr absent)
    rw [List.cons_append, separatedBy, if_neg (Ne.symm different), inductionHypothesis absent]

theorem separatedBy_of_not_mem {separator : Char} {text : List Char} (absent : separator ∉ text) :
    separatedBy separator text = [text] := by
  induction text with
  | nil => rfl
  | cons first rest inductionHypothesis =>
    obtain ⟨different, absent⟩ := not_or.mp (mt List.mem_cons.mpr absent)
    rw [separatedBy, if_neg (Ne.symm different), inductionHypothesis absent]

theorem separatedBy_ne_nil (separator : Char) (text : List Char) :
    separatedBy separator text ≠ [] := by
  intro isNil
  have length := length_separatedBy separator text
  rw [isNil] at length
  cases length

/-- With separators between them, the parts of a text are the text again. -/
theorem intercalate_separatedBy (separator : Char) (text : List Char) :
    [separator].intercalate (separatedBy separator text) = text := by
  induction text with
  | nil => rfl
  | cons first rest inductionHypothesis =>
    unfold separatedBy
    split
    · next same =>
      rw [List.intercalate_cons_of_ne_nil (separatedBy_ne_nil separator rest), inductionHypothesis,
        same]
      rfl
    · split
      · next isNil => exact absurd isNil (separatedBy_ne_nil separator rest)
      · next part parts found =>
        rw [List.intercalate_cons_cons_left, ← found, inductionHypothesis]

theorem not_mem_of_mem_separatedBy {separator : Char} {text part : List Char}
    (isPart : part ∈ separatedBy separator text) : separator ∉ part := by
  induction text generalizing part with
  | nil =>
    cases List.mem_singleton.mp isPart
    exact List.not_mem_nil
  | cons first rest inductionHypothesis =>
    unfold separatedBy at isPart
    split at isPart
    · rcases List.mem_cons.mp isPart with rfl | isLater
      · exact List.not_mem_nil
      · exact inductionHypothesis isLater
    · next different =>
      split at isPart
      · next isNil => exact absurd isNil (separatedBy_ne_nil separator rest)
      · next front others found =>
        rw [found] at inductionHypothesis
        rcases List.mem_cons.mp isPart with rfl | isLater
        · rw [List.mem_cons, not_or]
          exact ⟨Ne.symm different, inductionHypothesis List.mem_cons_self⟩
        · exact inductionHypothesis (List.mem_cons_of_mem _ isLater)

/-- The parts of a text are the only texts without a separator that it is put together from. -/
theorem separatedBy_eq_iff {separator : Char} {text : List Char} {parts : List (List Char)} :
    separatedBy separator text = parts ↔
      parts ≠ [] ∧ (∀ part ∈ parts, separator ∉ part) ∧ [separator].intercalate parts = text := by
  constructor
  · rintro rfl
    exact ⟨separatedBy_ne_nil separator text, fun _ => not_mem_of_mem_separatedBy,
      intercalate_separatedBy separator text⟩
  · rintro ⟨nonempty, absent, rfl⟩
    induction parts with
    | nil => exact absurd rfl nonempty
    | cons part rest inductionHypothesis =>
      cases rest with
      | nil =>
        rw [List.intercalate_singleton]
        exact separatedBy_of_not_mem (absent part List.mem_cons_self)
      | cons next others =>
        rw [List.intercalate_cons_cons, List.append_assoc]
        refine (separatedBy_append_cons (absent part List.mem_cons_self) _).trans ?_
        exact congrArg (part :: ·) (inductionHypothesis (List.cons_ne_nil next others)
          fun part isPart => absent part (List.mem_cons_of_mem _ isPart))

end DirectionField
