/-
This file compares two ways to tell the command of a line: by the start of the line, which is how a
session tells it, and by the first word of the line. Both give the same command with the same
argument, unless the first word runs on after the word of a command. Such a line is not taken for an
expression: the command is obeyed, and the end of the first word belongs to its argument. As an
expression it would always be at fault, because no lexeme starts with a capital letter.
-/

import DirectionField.Proofs.Dispatch
import DirectionField.Proofs.Scanning
import DirectionField.Proofs.Steps

namespace DirectionField

/-! ### First words -/

/-- The characters of a line before its first blank. -/
def firstWord (line : String) : String :=
  String.ofList (line.toList.takeWhile (!isBlank ·))

/-- The characters of a line from its first blank on. -/
def behindFirstWord (line : String) : String :=
  String.ofList (line.toList.dropWhile (!isBlank ·))

theorem firstWord_append_behindFirstWord (line : String) :
    firstWord line ++ behindFirstWord line = line := by
  rw [firstWord, behindFirstWord, ← String.ofList_append, List.takeWhile_append_dropWhile,
    String.ofList_toList]

namespace Command

variable {command : Command} {line argument : String}

theorem isBlank_of_mem_word (command : Command) :
    ∀ character ∈ command.word.toList, (!isBlank character) = true := by
  refine List.all_eq_true.mp ?_
  cases command <;> decide

theorem firstWord_word_append (command : Command) (rest : String) :
    firstWord (command.word ++ rest) = command.word ++ firstWord rest := by
  rw [firstWord, firstWord, String.toList_append,
    List.takeWhile_append_of_pos command.isBlank_of_mem_word, String.ofList_append,
    String.ofList_toList]

theorem behindFirstWord_word_append (command : Command) (rest : String) :
    behindFirstWord (command.word ++ rest) = behindFirstWord rest := by
  rw [behindFirstWord, behindFirstWord, String.toList_append,
    List.dropWhile_append_of_pos command.isBlank_of_mem_word]

/-! ### Commands by first words -/

/-- The command that a line gives if commands are told by the first word, with what follows that
word as the argument. -/
def ofFirstWord? (line : String) : Option (Command × String) :=
  (all.find? fun command => command.word == firstWord line).map
    (·, strip (behindFirstWord line))

theorem eq_of_word_eq {other : Command} (same : other.word = command.word) : other = command :=
  eq_of_word_starts other (mem_all other) command (mem_all command) (same ▸ List.prefix_refl _)

theorem ofFirstWord?_eq_some_iff :
    ofFirstWord? line = some (command, argument) ↔
      firstWord line = command.word ∧ argument = strip (behindFirstWord line) := by
  rw [ofFirstWord?, Option.map_eq_some_iff]
  constructor
  · rintro ⟨found, isFound, isPair⟩
    cases isPair
    have isWord := List.find?_some isFound
    exact ⟨(beq_iff_eq.mp isWord).symm, rfl⟩
  · rintro ⟨isWord, rfl⟩
    have isSome : (all.find? fun other => other.word == firstWord line).isSome = true :=
      List.find?_isSome.mpr ⟨command, mem_all command, beq_iff_eq.mpr isWord.symm⟩
    obtain ⟨found, isFound⟩ := Option.isSome_iff_exists.mp isSome
    have foundWord := List.find?_some isFound
    cases eq_of_word_eq ((beq_iff_eq.mp foundWord).trans isWord)
    exact ⟨command, isFound, rfl⟩

end Command

/-! ### First words that run on -/

/-- The first word of a line starts with the word of a command, but it is another word. -/
def RunsOn (line : String) : Prop :=
  ∃ command : Command, command.word.toList <+: (firstWord line).toList ∧
    firstWord line ≠ command.word

namespace Command

variable {command : Command} {line argument : String}

/-- Unless the first word runs on, a line is of a command exactly if its first word is the word of
the command. -/
theorem isLine_iff_of_not_runsOn (endsInTime : ¬RunsOn line) :
    command.IsLine line argument ↔
      firstWord line = command.word ∧ argument = strip (behindFirstWord line) := by
  constructor
  · rintro ⟨rest, rfl, rfl⟩
    have isWord : firstWord (command.word ++ rest) = command.word := by
      refine Classical.not_not.mp fun isOther => endsInTime ⟨command, ?_, isOther⟩
      rw [firstWord_word_append, String.toList_append]
      exact List.prefix_append _ _
    have nothing : firstWord rest = "" := by
      rw [firstWord_word_append] at isWord
      exact String.append_eq_left_iff.mp isWord
    have isRest : behindFirstWord rest = rest := by
      have whole := firstWord_append_behindFirstWord rest
      rwa [nothing, String.empty_append] at whole
    exact ⟨isWord, by rw [behindFirstWord_word_append, isRest]⟩
  · rintro ⟨isWord, rfl⟩
    exact ⟨behindFirstWord line, by rw [← isWord, firstWord_append_behindFirstWord], rfl⟩

theorem ofLine?_eq_ofFirstWord? (endsInTime : ¬RunsOn line) : ofLine? line = ofFirstWord? line := by
  refine Option.ext fun given => ?_
  obtain ⟨command, argument⟩ := given
  rw [ofLine?_eq_some_iff, ofFirstWord?_eq_some_iff]
  exact isLine_iff_of_not_runsOn endsInTime

/-- A line whose first word runs on starts with the word of a command. -/
theorem exists_eq_word_append (runsOn : RunsOn line) :
    ∃ (command : Command) (rest : String), line = command.word ++ rest ∧
      firstWord line ≠ command.word := by
  obtain ⟨command, ⟨more, isMore⟩, isOther⟩ := runsOn
  refine ⟨command, String.ofList more ++ behindFirstWord line, String.toList_inj.mp ?_, isOther⟩
  rw [String.toList_append, String.toList_append, String.toList_ofList, ← List.append_assoc, isMore,
    ← String.toList_append, firstWord_append_behindFirstWord]

/-- If the first word runs on, no command has that word. -/
theorem ofFirstWord?_of_runsOn (runsOn : RunsOn line) : ofFirstWord? line = none := by
  obtain ⟨command, starts, isOther⟩ := runsOn
  cases given : ofFirstWord? line with
  | none => rfl
  | some other =>
    have isWord : firstWord line = other.1.word := (ofFirstWord?_eq_some_iff.mp given).1
    rw [isWord] at starts
    have same := eq_of_word_starts command (mem_all command) other.1 (mem_all other.1) starts
    exact absurd isWord (same ▸ isOther)

theorem ofLine?_ne_ofFirstWord? (runsOn : RunsOn line) : ofLine? line ≠ ofFirstWord? line := by
  obtain ⟨command, rest, isText, -⟩ := exists_eq_word_append runsOn
  have isLine : command.IsLine line (strip rest) := ⟨rest, isText, rfl⟩
  rw [ofLine?_eq_some_iff.mpr isLine, ofFirstWord?_of_runsOn runsOn]
  exact nofun

/-- The word of a command starts with a character that starts no lexeme. -/
theorem exists_stray_of_word (command : Command) :
    ∃ first more, command.word.toList = first :: more ∧ first ≠ ' ' ∧ ¬IsLexeme [first] := by
  obtain ⟨first, more, isWord, notSpace, notMark, notLower, notDigit⟩ :
      ∃ first more, command.word.toList = first :: more ∧ first ≠ ' ' ∧ markOf? first = none ∧
        first.isLower = false ∧ first.isDigit = false := by
    cases command <;> exact ⟨_, _, rfl, by decide, rfl, rfl, rfl⟩
  exact ⟨first, more, isWord, notSpace,
    takeLexeme?_eq_none_iff.mp (takeLexeme?_stray notMark notLower notDigit [])⟩

end Command

/-! ### Sessions that go by first words -/

section

variable {State : Type} (table : SymbolTable State)

/-- Print the value of the expression that a line is. -/
def answer (line : String) : Activity State Unit := do
  let value ← valueOfLine table line
  onConsole (printLine (answerText value))

/-- Obey the command whose word is the first word of a line, or print the value of the expression
that the line is. -/
def obeyFirstWord (line : String) : Activity State Unit :=
  match Command.ofFirstWord? line with
  | some (command, argument) => obey table command argument
  | none => answer table line

variable {table} {session after : Session State} {line : String}

theorem run_answer_of_stray {first : Char} {rest : List Char} (begins : line.toList = first :: rest)
    (notSpace : first ≠ ' ') (isStray : ¬IsLexeme [first]) :
    let error : ScanError := ⟨String.ofList [first], line, 0⟩
    (answer table line).run session =
      (.error (.fault (.scanning error)), session.printLine error.diagnostic.report) := by
  have scanned : scan line = .error ⟨String.ofList [first], line, 0⟩ := by
    rw [scan, begins]
    exact scanFrom_stray notSpace isStray rest
  exact run_bind_of_error
    (run_bind_of_error (run_readAnnounced_of_error (ofText_of_scan_error scanned)))

/-- If the first word of a line runs on, the line is no expression. -/
theorem run_obeyFirstWord_of_runsOn (runsOn : RunsOn line) :
    ∃ error : ScanError, error.source = line ∧ error.index = 0 ∧
      (obeyFirstWord table line).run session =
        (.error (.fault (.scanning error)), session.printLine error.diagnostic.report) := by
  obtain ⟨command, rest, isText, -⟩ := Command.exists_eq_word_append runsOn
  obtain ⟨first, more, isWord, notSpace, isStray⟩ := command.exists_stray_of_word
  have begins : line.toList = first :: (more ++ rest.toList) := by
    rw [isText, String.toList_append, isWord, List.cons_append]
  rw [obeyFirstWord, Command.ofFirstWord?_of_runsOn runsOn]
  exact ⟨⟨String.ofList [first], line, 0⟩, rfl, rfl, run_answer_of_stray begins notSpace isStray⟩

/-- A line that is no line of a command only prints, and does not leave the session. -/
theorem quiet_of_isExpression {outcome : Except Failure Unit}
    (isExpression : Command.ofLine? line = none) (step : Step table session line outcome after) :
    outcome ≠ .error .exit ∧ after.settings = session.settings ∧ after.axes = session.axes ∧
      after.shows = session.shows := by
  cases step with
  | misread _ _ _ | unevaluated _ _ _ | answered _ _ _ => exact ⟨nofun, rfl, rfl, rfl⟩
  | left isCommand | refused isCommand _ _ | listed isCommand =>
    cases isExpression.symm.trans isCommand
  | changed accepted =>
    rw [changeOf?_of_isExpression isExpression] at accepted
    cases accepted
  | undrawn isPlot _ _ _ | drawn isPlot _ _ _ =>
    obtain ⟨argument, isCommand⟩ := isPlot
    cases isExpression.symm.trans isCommand

end

/-- A session goes by the first word of a line exactly if that word does not run on after the word
of a command. Then it obeys the command that has this word, or takes the line for an expression, and
in that case it changes no setting, draws nothing and does not end. If the first word runs on, the
line is no expression, but the session obeys the command whose word it starts with. -/
theorem obeys_first_word_unless_runsOn {State : Type} (table : SymbolTable State) (line : String) :
    (Command.ofLine? line = Command.ofFirstWord? line ↔ ¬RunsOn line) ∧
      (¬RunsOn line → obeyLine table line = obeyFirstWord table line ∧
        ((∀ command : Command, firstWord line ≠ command.word) → ∀ session : Session State,
          let result := (obeyLine table line).run session
          result.1 ≠ .error .exit ∧ result.2.settings = session.settings ∧
            result.2.axes = session.axes ∧ result.2.shows = session.shows)) ∧
      (RunsOn line →
        (∀ session : Session State, ∃ error : ScanError, error.source = line ∧ error.index = 0 ∧
          (obeyFirstWord table line).run session =
            (.error (.fault (.scanning error)), session.printLine error.diagnostic.report)) ∧
        ∃ (command : Command) (rest : String), line = command.word ++ rest ∧
          firstWord line ≠ command.word ∧ obeyLine table line = obey table command (strip rest)) := by
  refine ⟨⟨fun same runsOn => Command.ofLine?_ne_ofFirstWord? runsOn same,
    Command.ofLine?_eq_ofFirstWord?⟩, fun endsInTime => ?_, fun runsOn => ?_⟩
  · have same := Command.ofLine?_eq_ofFirstWord? endsInTime
    refine ⟨by rw [obeyFirstWord, ← same]; rfl, fun noWord session => ?_⟩
    have isExpression : Command.ofLine? line = none :=
      Command.ofLine?_eq_none_iff.mpr fun command argument isLine =>
        noWord command ((Command.isLine_iff_of_not_runsOn endsInTime).mp isLine).1
    exact quiet_of_isExpression isExpression (step_obeyLine table session line)
  · obtain ⟨command, rest, isText, isOther⟩ := Command.exists_eq_word_append runsOn
    have isLine : command.IsLine line (strip rest) := ⟨rest, isText, rfl⟩
    refine ⟨fun session => run_obeyFirstWord_of_runsOn runsOn, command, rest, isText, isOther, ?_⟩
    rw [obeyLine, Command.ofLine?_eq_some_iff.mpr isLine]

/-- The line `EXITED` leaves the session, though its first word is no word of a command. As an
expression it would be at fault. -/
theorem exited_leaves :
    let table : SymbolTable Unit := standardTable (pure 0.5)
    let session : Session Unit := .start ()
    (∀ command : Command, firstWord "EXITED" ≠ command.word) ∧
      ((obeyLine table "EXITED").run session).1 = .error .exit ∧
      ((obeyFirstWord table "EXITED").run session).1 =
        .error (.fault (.scanning ⟨"E", "EXITED", 0⟩)) := by
  intro table session
  have isOther (command : Command) : firstWord "EXITED" ≠ command.word := by
    cases command <;> decide
  have isStray : ¬IsLexeme ['E'] :=
    takeLexeme?_eq_none_iff.mp (takeLexeme?_stray rfl rfl rfl [])
  have isAnswer : obeyFirstWord table "EXITED" = answer table "EXITED" := rfl
  refine ⟨isOther, rfl, ?_⟩
  rw [isAnswer, run_answer_of_stray rfl (by decide) isStray]

end DirectionField
