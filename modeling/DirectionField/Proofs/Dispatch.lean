/-
This file says how a line is taken apart. The words of the commands are looked for in turn, but no
word starts another. So the order in which they are looked for does not matter: a line gives a
command exactly if it starts with its word. Its argument gives numbers if the parts between the
commas are texts of numbers.
-/

import DirectionField.Session.Obey
import Mathlib.Data.List.Forall2
import Mathlib.Data.List.Infix

namespace DirectionField

/-! ### Lines of a command -/

namespace Command

/-- A line of a command: its word, and an argument with blanks around it. -/
def IsLine (command : Command) (line argument : String) : Prop :=
  ∃ rest, line = command.word ++ rest ∧ argument = strip rest

variable {command : Command} {line argument : String}

theorem argument?_eq_some_iff :
    command.argument? line = some argument ↔ command.IsLine line argument := by
  rw [argument?, Option.map_eq_some_iff]
  constructor
  · rintro ⟨rest, isRest, rfl⟩
    have whole := List.isPrefixOf?_eq_some_iff_append_eq.mp isRest
    refine ⟨String.ofList rest, String.toList_inj.mp ?_, ?_⟩
    · rw [String.toList_append, String.toList_ofList, whole]
    · rw [strip, String.toList_ofList]
  · rintro ⟨rest, rfl, rfl⟩
    exact ⟨rest.toList, List.isPrefixOf?_eq_some_iff_append_eq.mpr String.toList_append.symm, rfl⟩

/-- Whether a line starts with the word of a command. -/
def starts (command : Command) (line : String) : Bool :=
  command.word.toList.isPrefixOf line.toList

theorem starts_iff : command.starts line = true ↔ ∃ argument, command.IsLine line argument := by
  rw [starts, List.isPrefixOf_iff_prefix]
  constructor
  · rintro ⟨rest, whole⟩
    refine ⟨_, String.ofList rest, String.toList_inj.mp ?_, rfl⟩
    rw [String.toList_append, String.toList_ofList, whole]
  · rintro ⟨_, rest, rfl, -⟩
    exact ⟨rest.toList, String.toList_append.symm⟩

theorem mem_all (command : Command) : command ∈ all := by
  cases command <;> decide

/-- No word of a command starts another one. -/
theorem eq_of_word_starts :
    ∀ first ∈ all, ∀ second ∈ all, first.word.toList <+: second.word.toList → first = second := by
  decide

/-- A line is of one command only, and has one argument. -/
theorem IsLine.unique {other : Command} {another : String} (isLine : command.IsLine line argument)
    (isOther : other.IsLine line another) : other = command ∧ another = argument := by
  obtain ⟨rest, isText, rfl⟩ := isLine
  obtain ⟨rest', isText', rfl⟩ := isOther
  have starts : command.word.toList <+: line.toList :=
    ⟨rest.toList, by rw [isText, String.toList_append]⟩
  have starts' : other.word.toList <+: line.toList :=
    ⟨rest'.toList, by rw [isText', String.toList_append]⟩
  have same : other = command := by
    rcases List.prefix_or_prefix_of_prefix starts starts' with left | right
    · exact (eq_of_word_starts _ (mem_all _) _ (mem_all _) left).symm
    · exact eq_of_word_starts _ (mem_all _) _ (mem_all _) right
  subst same
  have sameText : other.word ++ rest' = other.word ++ rest := isText'.symm.trans isText
  rw [String.append_right_inj] at sameText
  exact ⟨rfl, congrArg strip sameText⟩

theorem isLine_of_ofLine? (given : ofLine? line = some (command, argument)) :
    command.IsLine line argument := by
  obtain ⟨_, -, isFound⟩ := List.exists_of_findSome?_eq_some given
  obtain ⟨_, isArgument, isPair⟩ := Option.map_eq_some_iff.mp isFound
  cases isPair
  exact argument?_eq_some_iff.mp isArgument

/-- A line gives the command that it is a line of. -/
theorem ofLine?_eq_some_iff :
    ofLine? line = some (command, argument) ↔ command.IsLine line argument := by
  refine ⟨isLine_of_ofLine?, fun isLine => ?_⟩
  have isSome : (ofLine? line).isSome = true :=
    List.findSome?_isSome_iff.mpr
      ⟨command, mem_all command, by rw [argument?_eq_some_iff.mpr isLine]; rfl⟩
  obtain ⟨⟨found, other⟩, given⟩ := Option.isSome_iff_exists.mp isSome
  obtain ⟨rfl, rfl⟩ := isLine.unique (isLine_of_ofLine? given)
  exact given

/-- A line gives no command exactly if it is of none. -/
theorem ofLine?_eq_none_iff :
    ofLine? line = none ↔ ∀ command argument, ¬IsLine command line argument := by
  rw [← Option.not_isSome_iff_eq_none, Option.isSome_iff_exists]
  constructor
  · intro notGiven command argument isLine
    exact notGiven ⟨_, ofLine?_eq_some_iff.mpr isLine⟩
  · rintro noLine ⟨⟨command, argument⟩, given⟩
    exact noLine command argument (ofLine?_eq_some_iff.mp given)

end Command

/-! ### The numbers of an argument -/

/-- The parts between the commas of an argument are texts of the given numbers. -/
def GivesNumbers (argument : String) (numbers : List Float) : Prop :=
  ∃ parts : List (List Char), parts ≠ [] ∧ (∀ part ∈ parts, ',' ∉ part) ∧
    [','].intercalate parts = argument.toList ∧
    List.Forall₂ (fun part number => number? (String.ofList part) = some number) parts numbers

theorem mapM_eq_some_iff {Element Result : Type} {act : Element → Option Result}
    {elements : List Element} {results : List Result} :
    elements.mapM act = some results ↔
      List.Forall₂ (fun element result => act element = some result) elements results := by
  induction elements generalizing results with
  | nil =>
    rw [List.mapM_nil, List.forall₂_nil_left_iff]
    exact Option.some_inj.trans eq_comm
  | cons element rest inductionHypothesis =>
    rw [List.mapM_cons, List.forall₂_cons_left_iff]
    constructor
    · intro mapped
      obtain ⟨result, here, mapped⟩ := Option.bind_eq_some_iff.mp mapped
      obtain ⟨others, later, mapped⟩ := Option.bind_eq_some_iff.mp mapped
      cases mapped
      exact ⟨result, others, here, inductionHypothesis.mp later, rfl⟩
    · rintro ⟨result, others, here, later, rfl⟩
      rw [here, inductionHypothesis.mpr later]
      rfl

theorem numbers?_eq_some_iff {argument : String} {numbers : List Float} :
    numbers? argument = some numbers ↔ GivesNumbers argument numbers := by
  rw [numbers?, mapM_eq_some_iff]
  constructor
  · intro areNumbers
    obtain ⟨nonempty, absent, joined⟩ :=
      separatedBy_eq_iff.mp (Eq.refl (separatedBy ',' argument.toList))
    exact ⟨_, nonempty, absent, joined, areNumbers⟩
  · rintro ⟨parts, nonempty, absent, joined, areNumbers⟩
    rw [separatedBy_eq_iff.mpr ⟨nonempty, absent, joined⟩]
    exact areNumbers

theorem domain?_eq_some_iff {argument : String} {domain : Domain} :
    domain? argument = some domain ↔
      GivesNumbers argument [domain.x0, domain.x1, domain.y0, domain.y1] ∧
        domain.isUsable = true := by
  rw [← numbers?_eq_some_iff]
  unfold domain?
  constructor
  · intro given
    dsimp only at given
    split at given
    · next numbers =>
      split at given
      · next usable =>
        cases given
        exact ⟨numbers, usable⟩
      · cases given
    · cases given
  · rintro ⟨numbers, usable⟩
    rw [numbers]
    exact if_pos usable

theorem point?_eq_some_iff {argument : String} {position : Position} :
    point? argument = some position ↔ GivesNumbers argument [position.x, position.y] := by
  rw [← numbers?_eq_some_iff]
  unfold point?
  constructor
  · intro given
    split at given
    · next numbers =>
      cases given
      exact numbers
    · cases given
  · intro numbers
    rw [numbers]

end DirectionField
