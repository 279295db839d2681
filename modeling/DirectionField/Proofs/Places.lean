/-
This file proves that faults are where their reports say. The place of a fault is in the text that
was read: a stray character, the lexeme of a token that is not what was wanted, the name that an
evaluation misses, or the spaces after the last token. If the text is one line, the report has
carets under exactly these characters.

A token of a text has its place from the scan, and all later steps hand it on.
-/

import DirectionField.Proofs.EarliestError
import DirectionField.Proofs.Nodes
import DirectionField.Proofs.Tokenization
import DirectionField.Text.Separated

namespace DirectionField

/-! ### Reports -/

namespace Diagnostic

/-- The report of a diagnostic shows its place: carets stand under the characters that have it in
the line of the source, and nowhere else. -/
def IsUnderlined (diagnostic : Diagnostic) : Prop :=
  ∃ carets others,
    separatedBy '\n' diagnostic.report.toList =
      [] :: ("ERROR: " ++ diagnostic.source).toList :: carets :: others ∧
    ∀ column : Nat, carets[column]? = some '^' ↔
      "ERROR: ".length + diagnostic.index ≤ column ∧
        column < "ERROR: ".length + diagnostic.index + diagnostic.length

theorem toList_underline (diagnostic : Diagnostic) :
    diagnostic.underline.toList =
      List.replicate (7 + diagnostic.index.toNat) ' ' ++
        List.replicate diagnostic.length.toNat '^' := by
  rw [underline, repeated, repeated, repeated, String.toList_append, String.toList_append,
    String.toList_ofList, String.toList_ofList, String.toList_ofList, List.replicate_append_replicate]
  rfl

theorem newline_not_mem_underline (diagnostic : Diagnostic) :
    '\n' ∉ diagnostic.underline.toList := by
  rw [toList_underline, List.mem_append, List.mem_replicate, List.mem_replicate]
  rintro (⟨-, isSpace⟩ | ⟨-, isCaret⟩)
  · cases isSpace
  · cases isCaret

theorem getElem?_underline (diagnostic : Diagnostic) (column : Nat) :
    diagnostic.underline.toList[column]? = some '^' ↔
      7 + diagnostic.index.toNat ≤ column ∧
        column < 7 + diagnostic.index.toNat + diagnostic.length.toNat := by
  rw [toList_underline]
  by_cases indented : column < 7 + diagnostic.index.toNat
  · rw [List.getElem?_append_left (by rwa [List.length_replicate]),
      List.getElem?_replicate_of_lt indented]
    exact ⟨nofun, fun ⟨later, _⟩ => absurd indented (Nat.not_lt.mpr later)⟩
  · have later := Nat.not_lt.mp indented
    rw [List.getElem?_append_right (by rwa [List.length_replicate]), List.length_replicate,
      List.getElem?_replicate]
    split
    · next inside => exact ⟨fun _ => ⟨later, by omega⟩, fun _ => rfl⟩
    · next outside => exact ⟨nofun, fun ⟨_, before⟩ => absurd (by omega) outside⟩

/-- A diagnostic about one line is underlined. -/
theorem isUnderlined {diagnostic : Diagnostic} (oneLine : '\n' ∉ diagnostic.source.toList)
    (inText : 0 ≤ diagnostic.index) : diagnostic.IsUnderlined := by
  have notInHead : '\n' ∉ ("ERROR: " ++ diagnostic.source).toList := by
    rw [String.toList_append, List.mem_append]
    exact not_or.mpr ⟨by decide, oneLine⟩
  have lines : diagnostic.report.toList =
      [] ++ '\n' :: (("ERROR: " ++ diagnostic.source).toList ++ '\n' ::
        (diagnostic.underline.toList ++ '\n' :: diagnostic.message.toList)) := by
    unfold report
    simp only [String.toList_append, List.append_assoc]
    rfl
  refine ⟨diagnostic.underline.toList, separatedBy '\n' diagnostic.message.toList, ?_, fun column => ?_⟩
  · rw [lines, separatedBy_append_cons List.not_mem_nil, separatedBy_append_cons notInHead,
      separatedBy_append_cons diagnostic.newline_not_mem_underline]
  · rw [getElem?_underline]
    have width : "ERROR: ".length = 7 := rfl
    omega

/-! ### Places of faults -/

/-- A diagnostic is about a piece of a text. -/
structure Marks (diagnostic : Diagnostic) (text : String) (piece : List Char) : Prop where
  source : diagnostic.source = text
  isSlice : IsSlice text diagnostic.index diagnostic.length piece
  nonempty : 1 ≤ diagnostic.length

theorem Marks.inText {diagnostic : Diagnostic} {text : String} {piece : List Char}
    (marks : diagnostic.Marks text piece) : diagnostic.source = text ∧ 0 ≤ diagnostic.index := by
  obtain ⟨_, _, -, isIndex, -⟩ := marks.isSlice
  exact ⟨marks.source, isIndex ▸ Int.natCast_nonneg _⟩

/-- A diagnostic is about the end of the tokens of a text. Only spaces are left there. -/
structure MarksEnd (diagnostic : Diagnostic) (text : String) (tokens : List Token) : Prop where
  source : diagnostic.source = text
  length : diagnostic.length = 1
  afterLast : ∀ last, tokens.getLast? = some last → diagnostic.index = last.finish
  afterAll : tokens = [] → diagnostic.index = text.length
  spaces : ∃ before after, text.toList = before ++ after ∧ diagnostic.index = before.length ∧
    ∀ character ∈ after, character = ' '

end Diagnostic

/-- A fault has its place in a text. It is at a character that is no lexeme, at a token that is not
what was wanted, at the end of the tokens, or at a name without a meaning, which the message quotes.
-/
def IsLocated (text : String) (fault : Fault) : Prop :=
  match fault with
  | .scanning error =>
    ∃ character, error.piece = String.ofList [character] ∧ fault.diagnostic.Marks text [character]
  | .reading (.atToken _ token) =>
    ∃ tokens piece, scan text = .ok tokens ∧ token ∈ tokens ∧ Spells piece token.lexeme ∧
      fault.diagnostic.index = token.index ∧ fault.diagnostic.Marks text piece
  | .reading (.atEnd ..) =>
    ∃ tokens, scan text = .ok tokens ∧ fault.diagnostic.MarksEnd text tokens
  | .evaluating error =>
    ∃ tokens token name, scan text = .ok tokens ∧ token ∈ tokens ∧ error.token = some token ∧
      token.lexeme = .name name ∧ Quotes fault.diagnostic.message name ∧
      fault.diagnostic.index = token.index ∧ fault.diagnostic.Marks text name.toList

/-- A fault has its place in a text, and its report shows that place if the text is one line. -/
def IsReported (text : String) (fault : Fault) : Prop :=
  IsLocated text fault ∧ ('\n' ∉ text.toList → fault.diagnostic.IsUnderlined)

section

variable {State : Type} {table : SymbolTable State} {text : String} {tokens : List Token}

/-- A diagnostic about a token of a text is about the piece that spells it. -/
theorem Tokenization.marks (tokenization : Tokenization text 0 tokens) {token : Token}
    (member : token ∈ tokens) (message : String) :
    ∃ piece, Spells piece token.lexeme ∧ (Diagnostic.ofToken message token).Marks text piece := by
  obtain ⟨piece, isSlice, spells⟩ := tokenization.spelled token member
  exact ⟨piece, spells, tokenization.source token member, isSlice, tokenization.nonempty token member⟩

theorem Tokenization.finish_le (tokenization : Tokenization text 0 tokens) {last : Token}
    (isLast : tokens.getLast? = some last) : ∀ token ∈ tokens, token.finish ≤ last.finish := by
  obtain ⟨front, rfl⟩ := List.getLast?_eq_some_iff.mp isLast
  have nonempty := tokenization.nonempty last (List.mem_append_right _ (List.mem_singleton_self last))
  intro token member
  rcases List.mem_append.mp member with inFront | isSame
  · have order := (List.pairwise_append.mp tokenization.increasing).2.2 token inFront last
      (List.mem_singleton_self last)
    unfold Token.finish at order ⊢
    omega
  · exact Int.le_of_eq (congrArg Token.finish (List.mem_singleton.mp isSame))

/-- After the last token there are only spaces. -/
theorem Tokenization.spaces (tokenization : Tokenization text 0 tokens) :
    ∃ before after, text.toList = before ++ after ∧ endIndex text tokens = before.length ∧
      ∀ character ∈ after, character = ' ' := by
  unfold endIndex
  cases isLast : tokens.getLast? with
  | none =>
    refine ⟨text.toList, [], (List.append_nil _).symm, ?_, nofun⟩
    rw [String.length_toList]
  | some last =>
    obtain ⟨piece, ⟨before, after, whole, isIndex, isLength⟩, -⟩ :=
      tokenization.spelled last (List.mem_of_getLast? isLast)
    have isFinish : last.finish = (before ++ piece).length := by
      rw [Token.finish, isIndex, isLength, List.length_append]
      rfl
    refine ⟨before ++ piece, after, whole, isFinish, fun character member => ?_⟩
    -- The last token ends latest, so that no token covers a character after it.
    obtain ⟨offset, isCharacter⟩ := List.mem_iff_getElem?.mp member
    have inText : text.toList[(before ++ piece).length + offset]? = some character := by
      rw [whole, List.getElem?_append_right (Nat.le_add_right _ _), Nat.add_sub_cancel_left]
      exact isCharacter
    refine (tokenization.space_iff _ character (Nat.zero_le _) inText).mpr fun token member covers => ?_
    have before := tokenization.finish_le isLast token member
    have after := covers.2
    omega

theorem mem_of_stuck {stuck : Stuck} (failed : readAll table tokens = .error stuck) :
    ∀ token ∈ stuck.unread, token ∈ tokens := by
  obtain ⟨taken, _, _, isTaken, -⟩ := exists_completion failed
  intro token member
  rw [isTaken]
  exact List.mem_append_right _ member

theorem isLocated_scanning {error : ScanError} (failed : scan text = .error error) :
    IsLocated text (.scanning error) := by
  obtain ⟨position, character, isCharacter, rfl, -, -⟩ := isFirstStray_of_scan failed
  obtain ⟨inText, rfl⟩ := List.getElem?_eq_some_iff.mp isCharacter
  refine ⟨_, rfl, rfl, ⟨text.toList.take position, text.toList.drop (position + 1), ?_, ?_, rfl⟩,
    Int.le_refl _⟩
  · rw [List.append_assoc, List.singleton_append, List.getElem_cons_drop, List.take_append_drop]
  · rw [List.length_take_of_le (Nat.le_of_lt inText)]
    rfl

theorem isLocated_reading {error : ReadError} (scanned : scan text = .ok tokens)
    (failed : Expr.ofTokens table tokens text = .error error) : IsLocated text (.reading error) := by
  have tokenization := scan_eq_ok_iff_tokenization.mp scanned
  obtain ⟨stuck, isStuck, rfl⟩ := ofTokens_eq_error_iff.mp failed
  unfold Stuck.error
  cases unread : stuck.unread with
  | nil =>
    refine ⟨tokens, scanned, rfl, rfl, fun last isLast => ?_, fun isEmpty => ?_, tokenization.spaces⟩
    · show endIndex text tokens = last.finish
      rw [endIndex, isLast]
    · subst isEmpty
      rfl
  | cons token rest =>
    have member : token ∈ tokens := by
      refine mem_of_stuck isStuck token ?_
      rw [unread]
      exact List.mem_cons_self ..
    obtain ⟨piece, spells, marks⟩ := tokenization.marks member _
    exact ⟨tokens, piece, scanned, member, spells, rfl, marks⟩

theorem isLocated_evaluating {Other : Type} {tree : Expr} {other : SymbolTable Other}
    {environment : Environment} {state after : Other} {error : EvaluationError}
    (scanned : scan text = .ok tokens) (read : Expr.ofTokens table tokens text = .ok tree)
    (ran : (evaluate other environment tree).run state = (.error error, after)) :
    IsLocated text (.evaluating error) := by
  have tokenization := scan_eq_ok_iff_tokenization.mp scanned
  have derived := ofTokens_eq_ok_iff_derives.mp read
  obtain ⟨token, member, isToken, name, isName, quotes⟩ := isAbout_of_derives derived ran
  obtain ⟨piece, spells, marks⟩ := tokenization.marks member error.cause.message
  obtain rfl : name = String.ofList piece := by
    rw [isName] at spells
    cases spells
    rfl
  have isDiagnostic : error.diagnostic = .ofToken error.cause.message token := by
    rw [EvaluationError.diagnostic, isToken]
  refine ⟨tokens, token, String.ofList piece, scanned, member, isToken, isName, ?_⟩
  show Quotes error.diagnostic.message _ ∧ error.diagnostic.index = _ ∧ error.diagnostic.Marks _ _
  rw [isDiagnostic, String.toList_ofList]
  exact ⟨quotes, rfl, marks⟩

theorem IsLocated.inText {fault : Fault} (located : IsLocated text fault) :
    fault.diagnostic.source = text ∧ 0 ≤ fault.diagnostic.index := by
  unfold IsLocated at located
  split at located
  · obtain ⟨_, -, marks⟩ := located
    exact marks.inText
  · obtain ⟨_, _, -, -, -, -, marks⟩ := located
    exact marks.inText
  · obtain ⟨_, -, marks⟩ := located
    obtain ⟨before, _, -, isIndex, -⟩ := marks.spaces
    exact ⟨marks.source, isIndex ▸ Int.natCast_nonneg _⟩
  · obtain ⟨_, _, _, -, -, -, -, -, -, marks⟩ := located
    exact marks.inText

theorem IsLocated.isReported {fault : Fault} (located : IsLocated text fault) :
    IsReported text fault := by
  refine ⟨located, fun oneLine => ?_⟩
  obtain ⟨rfl, inText⟩ := located.inText
  exact Diagnostic.isUnderlined oneLine inText

end

/-- All faults are where their reports say: those of reading a text, and those of evaluating what
was read, with any table. -/
theorem isReported_of_fault {State : Type} (table : SymbolTable State) (text : String) :
    (∀ fault, Expr.ofText table text = .error fault → IsReported text fault) ∧
      ∀ tree, Expr.ofText table text = .ok tree →
        ∀ (Other : Type) (other : SymbolTable Other) (environment : Environment)
          (state after : Other) (error : EvaluationError),
          (evaluate other environment tree).run state = (.error error, after) →
            IsReported text (.evaluating error) := by
  refine ⟨fun fault failed => ?_, fun tree read Other other environment state after error ran => ?_⟩
  · rcases ofText_eq_error_iff.mp failed with ⟨error, notScanned, rfl⟩ |
      ⟨tokens, error, scanned, notRead, rfl⟩
    · exact (isLocated_scanning notScanned).isReported
    · exact (isLocated_reading scanned notRead).isReported
  · obtain ⟨tokens, scanned, isTree⟩ := ofText_eq_ok_iff.mp read
    exact (isLocated_evaluating scanned isTree ran).isReported

example : Expr.ofText (standardTable (pure 0.5 : StateM Unit Float)) "3 +  " =
    .error (.reading (.atEnd .operand "3 +  " 3)) := by
  with_unfolding_all rfl

end DirectionField
