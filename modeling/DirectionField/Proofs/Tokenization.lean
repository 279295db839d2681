/-
This file says what the tokens of a text are, in terms of places alone, and proves that a scan finds
them. The places of the tokens are disjoint and cover all characters but the spaces. The characters
of a token spell its lexeme, and no lexeme in the text contains more than these.

Scanning fails at the first character that cannot be right: what comes before it is the longest
beginning of the text that has tokens.
-/

import DirectionField.Proofs.Layout

namespace DirectionField

/-! ### Places -/

/-- A piece of a text stands at an index and has a length. -/
def IsSlice (text : String) (index length : Int) (piece : List Char) : Prop :=
  ∃ before after, text.toList = before ++ piece ++ after ∧ index = before.length ∧
    length = piece.length

/-- Whether the place of a token includes a position. -/
def Token.Covers (token : Token) (position : Nat) : Prop :=
  token.index ≤ position ∧ position < token.finish

/-- Tokens are those of a text from a position on. Their places are disjoint, in the order of the
text, and cover all that is no space. Their lexemes are spelled there, and are as long as they can
be. -/
structure Tokenization (text : String) (start : Nat) (tokens : List Token) : Prop where
  source : ∀ token ∈ tokens, token.source = text
  start_le : ∀ token ∈ tokens, start ≤ token.index
  nonempty : ∀ token ∈ tokens, 0 < token.length
  increasing : tokens.Pairwise fun first second => first.finish ≤ second.index
  space_iff : ∀ (position : Nat) (character : Char), start ≤ position →
    text.toList[position]? = some character →
      (character = ' ' ↔ ∀ token ∈ tokens, ¬token.Covers position)
  spelled : ∀ token ∈ tokens, ∃ piece,
    IsSlice text token.index token.length piece ∧ Spells piece token.lexeme
  longest : ∀ token ∈ tokens, ∀ index length piece, IsSlice text index length piece →
    IsLexeme piece → index ≤ token.index → token.finish ≤ index + length →
      index = token.index ∧ length = token.length

section

variable {text : String} {before rest : List Char} {tokens : List Token}

/-! ### The tokens that are laid out -/

theorem LaidOut.source (laidOut : LaidOut text before rest tokens) :
    ∀ token ∈ tokens, token.source = text := by
  induction laidOut with
  | nil => exact nofun
  | space _ others => exact others
  | lexeme _ _ _ others => exact List.forall_mem_cons.mpr ⟨rfl, others⟩

theorem length_pos_of_spells {piece : List Char} {lexeme : Lexeme} (spells : Spells piece lexeme) :
    0 < piece.length :=
  List.length_pos_iff.mpr (ne_nil_of_isLexeme ⟨lexeme, spells⟩)

theorem LaidOut.nonempty (laidOut : LaidOut text before rest tokens) :
    ∀ token ∈ tokens, 0 < token.length := by
  induction laidOut with
  | nil => exact nofun
  | space _ others => exact others
  | lexeme spells _ _ others =>
    exact List.forall_mem_cons.mpr ⟨Int.natCast_pos.mpr (length_pos_of_spells spells), others⟩

/-- All tokens stand in the rest of the text. -/
theorem LaidOut.start_le (laidOut : LaidOut text before rest tokens) :
    ∀ token ∈ tokens, before.length ≤ token.index := by
  induction laidOut with
  | nil => exact nofun
  | space _ others =>
    intro token member
    have bound := others token member
    rw [List.length_append] at bound
    omega
  | lexeme _ _ _ others =>
    refine List.forall_mem_cons.mpr ⟨Int.le_refl _, fun token member => ?_⟩
    have bound := others token member
    rw [List.length_append] at bound
    omega

theorem LaidOut.increasing (laidOut : LaidOut text before rest tokens) :
    tokens.Pairwise fun first second => first.finish ≤ second.index := by
  induction laidOut with
  | nil => exact .nil
  | space _ increasing => exact increasing
  | lexeme _ _ others increasing =>
    refine .cons (fun token member => ?_) increasing
    have bound := others.start_le token member
    rw [List.length_append] at bound
    exact bound

theorem LaidOut.spelled (laidOut : LaidOut text before rest tokens)
    (whole : text.toList = before ++ rest) :
    ∀ token ∈ tokens, ∃ piece,
      IsSlice text token.index token.length piece ∧ Spells piece token.lexeme := by
  induction laidOut with
  | nil => exact nofun
  | space _ others =>
    refine others ?_
    rw [whole, List.append_assoc]
    rfl
  | @lexeme before piece after _ _ spells _ _ others =>
    rw [← List.append_assoc] at whole
    exact List.forall_mem_cons.mpr ⟨⟨piece, ⟨before, after, whole, rfl, rfl⟩, spells⟩, others whole⟩

/-- The characters of the rest that no token covers are the spaces. -/
theorem LaidOut.space_iff (laidOut : LaidOut text before rest tokens)
    (whole : text.toList = before ++ rest) :
    ∀ position character, before.length ≤ position → text.toList[position]? = some character →
      (character = ' ' ↔ ∀ token ∈ tokens, ¬token.Covers position) := by
  induction laidOut with
  | nil =>
    intro position character bound isCharacter
    rw [whole, List.append_nil, List.getElem?_eq_none bound] at isCharacter
    cases isCharacter
  | @space before rest tokens others inductionHypothesis =>
    have wholeAfter : text.toList = before ++ [' '] ++ rest := by
      rw [whole, List.append_assoc]
      rfl
    intro position character bound isCharacter
    by_cases here : position = before.length
    · subst here
      rw [whole, List.getElem?_append_right (Nat.le_refl _), Nat.sub_self] at isCharacter
      cases isCharacter
      refine ⟨fun _ token member covers => ?_, fun _ => rfl⟩
      have later := others.start_le token member
      rw [List.length_append] at later
      have covered := covers.1
      simp only [List.length_singleton] at later
      omega
    · refine inductionHypothesis wholeAfter position character ?_ isCharacter
      rw [List.length_append]
      exact Nat.lt_of_le_of_ne bound (Ne.symm here)
  | @lexeme before piece after lexeme tokens spells _ others inductionHypothesis =>
    intro position character bound isCharacter
    by_cases inside : position < before.length + piece.length
    · have isInPiece : character ∈ piece := by
        rw [whole, List.getElem?_append_right bound, List.getElem?_append_left (by omega)]
          at isCharacter
        exact List.mem_of_getElem? isCharacter
      constructor
      · rintro rfl
        exact absurd isInPiece (space_not_mem ⟨lexeme, spells⟩)
      · intro uncovered
        refine absurd ?_ (uncovered _ (List.mem_cons_self ..))
        exact ⟨Int.ofNat_le.mpr bound, Int.ofNat_lt.mpr inside⟩
    · have notHere : ¬Token.Covers ⟨lexeme, text, before.length, piece.length⟩ position :=
        fun covers => inside (Int.ofNat_lt.mp covers.2)
      rw [List.forall_mem_cons, inductionHypothesis (by rw [whole, List.append_assoc]) position
        character (by rw [List.length_append]; omega) isCharacter]
      exact ⟨fun others => ⟨notHere, others⟩, And.right⟩

/-- A piece that contains another one consists of it and of what is left and right of it. -/
theorem exists_margins {start piece finish token after : List Char}
    (whole : start ++ piece ++ finish = before ++ token ++ after)
    (fromLeft : start.length ≤ before.length)
    (toRight : before.length + token.length ≤ start.length + piece.length) :
    ∃ left right, before = start ++ left ∧ piece = left ++ token ++ right ∧
      after = right ++ finish := by
  rw [List.append_assoc, List.append_assoc] at whole
  obtain ⟨left, rfl⟩ : start <+: before :=
    List.prefix_of_prefix_length_le ⟨piece ++ finish, rfl⟩ ⟨token ++ after, whole.symm⟩ fromLeft
  rw [List.append_assoc] at whole
  have remaining := List.append_cancel_left whole
  rw [← List.append_assoc left] at remaining
  obtain ⟨right, rfl⟩ : left ++ token <+: piece := by
    refine List.prefix_of_prefix_length_le ⟨after, rfl⟩ ⟨finish, remaining⟩ ?_
    simp only [List.length_append] at toRight ⊢
    omega
  rw [List.append_assoc (left ++ token)] at remaining
  exact ⟨left, right, rfl, rfl, (List.append_cancel_left remaining).symm⟩

/-- No lexeme of the text contains more than the characters of a token. -/
theorem LaidOut.longest (laidOut : LaidOut text before rest tokens)
    (whole : text.toList = before ++ rest) (parted : IsParted before rest) :
    ∀ token ∈ tokens, ∀ index length piece, IsSlice text index length piece → IsLexeme piece →
      index ≤ token.index → token.finish ≤ index + length →
        index = token.index ∧ length = token.length := by
  induction laidOut with
  | nil => exact nofun
  | @space before rest tokens _ inductionHypothesis =>
    refine inductionHypothesis ?_ (isParted_space before rest)
    rw [whole, List.append_assoc]
    rfl
  | @lexeme before token after lexeme tokens spells ends laidOut inductionHypothesis =>
    rw [← List.append_assoc] at whole
    refine List.forall_mem_cons.mpr
      ⟨?_, inductionHypothesis whole (laidOut.isParted parted ⟨lexeme, spells⟩ ends)⟩
    rintro _ _ piece ⟨start, finish, isText, rfl, rfl⟩ isLexeme fromLeft toRight
    obtain ⟨left, right, isBefore, isPiece, isAfter⟩ := exists_margins (isText.symm.trans whole)
      (Int.ofNat_le.mp fromLeft) (Int.ofNat_le.mp toRight)
    cases left with
    | cons first inner =>
      cases token with
      | nil => exact absurd rfl (ne_nil_of_isLexeme ⟨lexeme, spells⟩)
      | cons next others =>
        refine absurd ?_ (parted first inner next ⟨start, isBefore.symm⟩ rfl)
        have longer : IsLexeme (first :: inner ++ [next] ++ (others ++ right)) := by
          rw [isPiece] at isLexeme
          simpa only [List.cons_append, List.append_assoc, List.nil_append] using isLexeme
        exact isLexeme_of_append longer
    | nil =>
      cases right with
      | cons next others =>
        refine absurd ?_ (ends next (by rw [isAfter]; rfl))
        cases token with
        | nil => exact absurd rfl (ne_nil_of_isLexeme ⟨lexeme, spells⟩)
        | cons first inner =>
          have longer : IsLexeme (first :: (inner ++ [next]) ++ others) := by
            rw [isPiece] at isLexeme
            simpa only [List.cons_append, List.append_assoc, List.nil_append] using isLexeme
          exact isLexeme_of_append longer
      | nil =>
        rw [List.append_nil] at isBefore isPiece
        rw [isBefore, isPiece]
        exact ⟨rfl, rfl⟩

theorem LaidOut.tokenization (laidOut : LaidOut text before rest tokens)
    (whole : text.toList = before ++ rest) (parted : IsParted before rest) :
    Tokenization text before.length tokens where
  source := laidOut.source
  start_le := laidOut.start_le
  nonempty := laidOut.nonempty
  increasing := laidOut.increasing
  space_iff := laidOut.space_iff whole
  spelled := laidOut.spelled whole
  longest := laidOut.longest whole parted

/-! ### The tokens at given places -/

namespace Tokenization

/-- There are no tokens after the end of the text. -/
theorem eq_nil (tokenization : Tokenization text text.length tokens) : tokens = [] := by
  refine List.eq_nil_iff_forall_not_mem.mpr fun token member => ?_
  obtain ⟨piece, ⟨before, after, whole, isIndex, isLength⟩, -⟩ := tokenization.spelled token member
  have start := tokenization.start_le token member
  have nonempty := tokenization.nonempty token member
  have size := congrArg List.length whole
  rw [String.length_toList, List.length_append, List.length_append] at size
  omega

/-- A space belongs to no token. -/
theorem of_space {start : Nat} (tokenization : Tokenization text start tokens)
    (isSpace : text.toList[start]? = some ' ') : Tokenization text (start + 1) tokens where
  source := tokenization.source
  start_le := by
    intro token member
    have bound := tokenization.start_le token member
    have nonempty := tokenization.nonempty token member
    have uncovered := (tokenization.space_iff start ' ' (Nat.le_refl _) isSpace).mp rfl token member
    unfold Token.Covers Token.finish at uncovered
    omega
  nonempty := tokenization.nonempty
  increasing := tokenization.increasing
  space_iff := fun position character bound =>
    tokenization.space_iff position character (Nat.le_of_succ_le bound)
  spelled := tokenization.spelled
  longest := tokenization.longest

/-- A character that is no space begins the first token. -/
theorem exists_first {start : Nat} {character : Char} (tokenization : Tokenization text start tokens)
    (isCharacter : text.toList[start]? = some character) (notSpace : character ≠ ' ') :
    ∃ token others, tokens = token :: others ∧ token.index = start := by
  have covered := mt (tokenization.space_iff start character (Nat.le_refl _) isCharacter).mpr notSpace
  obtain ⟨token, notUncovered⟩ := Classical.not_forall.mp covered
  obtain ⟨member, covers⟩ := Classical.not_imp.mp notUncovered
  have covers := Classical.not_not.mp covers
  have bound := tokenization.start_le token member
  have isIndex : token.index = start := Int.le_antisymm covers.1 bound
  cases tokens with
  | nil => cases member
  | cons first others =>
    rcases List.mem_cons.mp member with rfl | later
    · exact ⟨token, others, rfl, isIndex⟩
    · have order := (List.pairwise_cons.mp tokenization.increasing).1 token later
      have firstBound := tokenization.start_le first (List.mem_cons_self ..)
      have nonempty := tokenization.nonempty first (List.mem_cons_self ..)
      unfold Token.finish at order
      omega

/-- The first token is the longest lexeme at the front, if it stands there. -/
theorem exists_lexeme {token : Token} {start : Nat}
    (tokenization : Tokenization text start (token :: tokens)) (whole : text.toList = before ++ rest)
    (isIndex : token.index = before.length) :
    ∃ piece after, rest = piece ++ after ∧ Spells piece token.lexeme ∧ IsLongest piece after ∧
      token = ⟨token.lexeme, text, before.length, piece.length⟩ := by
  have member : token ∈ token :: tokens := List.mem_cons_self ..
  obtain ⟨piece, ⟨front, after, isText, isFront, isLength⟩, spells⟩ :=
    tokenization.spelled token member
  have same : front.length = before.length := Int.ofNat_inj.mp (isFront.symm.trans isIndex)
  have parts : front ++ (piece ++ after) = before ++ rest := by
    rw [← List.append_assoc, ← isText, whole]
  obtain ⟨rfl, rfl⟩ := List.append_inj parts same
  refine ⟨piece, after, rfl, spells, fun next isNext longer => ?_, ?_⟩
  · obtain ⟨others, rfl⟩ := List.head?_eq_some_iff.mp isNext
    have isSlice : IsSlice text token.index (token.length + 1) (piece ++ [next]) := by
      refine ⟨front, others, ?_, isIndex, ?_⟩
      · rw [isText, List.append_assoc, List.append_assoc, List.append_assoc, List.singleton_append]
      · rw [isLength, List.length_append]
        rfl
    have bound : token.finish ≤ token.index + (token.length + 1) := by
      unfold Token.finish
      omega
    obtain ⟨-, impossible⟩ :=
      tokenization.longest token member _ _ _ isSlice longer (Int.le_refl _) bound
    omega
  · have isSource := tokenization.source token member
    cases token
    cases isSource
    cases isIndex
    cases isLength
    rfl

/-- After the first token come the others. -/
theorem of_cons {token : Token} {start finish : Nat}
    (tokenization : Tokenization text start (token :: tokens)) (isFinish : token.finish = finish) :
    Tokenization text finish tokens where
  source := (List.forall_mem_cons.mp tokenization.source).2
  start_le := by
    rw [← isFinish]
    exact (List.pairwise_cons.mp tokenization.increasing).1
  nonempty := (List.forall_mem_cons.mp tokenization.nonempty).2
  increasing := (List.pairwise_cons.mp tokenization.increasing).2
  space_iff := by
    intro position character bound isCharacter
    have notHere : ¬token.Covers position := by
      have notBefore := Int.ofNat_le.mpr bound
      rw [← isFinish] at notBefore
      exact fun covers => Int.not_lt.mpr notBefore covers.2
    have firstBound := tokenization.start_le token (List.mem_cons_self ..)
    have nonempty := tokenization.nonempty token (List.mem_cons_self ..)
    unfold Token.finish at isFinish
    rw [tokenization.space_iff position character (by omega) isCharacter, List.forall_mem_cons]
    exact ⟨And.right, fun others => ⟨notHere, others⟩⟩
  spelled := (List.forall_mem_cons.mp tokenization.spelled).2
  longest := (List.forall_mem_cons.mp tokenization.longest).2

/-- The tokens of a text are laid out in it. -/
theorem laidOut (tokenization : Tokenization text before.length tokens)
    (whole : text.toList = before ++ rest) : LaidOut text before rest tokens := by
  -- A token takes several characters at once, so the induction is on how many are left.
  induction size : rest.length using Nat.strongRecOn generalizing before rest tokens with
  | ind length shorter =>
    subst size
    cases rest with
    | nil =>
      rw [List.append_nil] at whole
      rw [← whole, String.length_toList] at tokenization
      rw [tokenization.eq_nil]
      exact .nil
    | cons first rest =>
      have isFirst : text.toList[before.length]? = some first := by
        rw [whole, List.getElem?_append_right (Nat.le_refl _), Nat.sub_self]
        rfl
      by_cases isSpace : first = ' '
      · subst isSpace
        refine .space (shorter rest.length (Nat.lt_succ_self _) ?_ ?_ rfl)
        · rw [List.length_append]
          exact tokenization.of_space isFirst
        · rw [whole, List.append_assoc]
          rfl
      · obtain ⟨token, others, rfl, isIndex⟩ := tokenization.exists_first isFirst isSpace
        obtain ⟨piece, after, isRest, spells, longest, isToken⟩ :=
          tokenization.exists_lexeme whole isIndex
        have size := congrArg List.length isRest
        have nonempty := length_pos_of_spells spells
        rw [List.length_append] at size
        rw [isRest] at whole ⊢
        rw [isToken]
        refine .lexeme spells longest (shorter after.length (by omega) ?_ ?_ rfl)
        · refine tokenization.of_cons ?_
          rw [isToken, List.length_append]
          rfl
        · rw [whole, List.append_assoc]

end Tokenization

/-- A scan finds the tokens of a text. -/
theorem scan_eq_ok_iff_tokenization : scan text = .ok tokens ↔ Tokenization text 0 tokens := by
  rw [scan_eq_ok_iff]
  constructor
  · intro laidOut
    exact laidOut.tokenization rfl (isParted_nil _)
  · intro tokenization
    exact Tokenization.laidOut tokenization rfl

end

/-! ### Texts that have no tokens -/

/-- An error of scanning is about the character after the longest beginning of a text that is split
into tokens. -/
def IsFirstStray (text : String) (error : ScanError) : Prop :=
  ∃ (position : Nat) (character : Char), text.toList[position]? = some character ∧
    error = ⟨String.ofList [character], text, position⟩ ∧
    IsAccepted (text.toList.take position) ∧
    ∀ front, front <+: text.toList → IsAccepted front → front.length ≤ position

theorem isFirstStray_of_scan {text : String} {error : ScanError} (failed : scan text = .error error) :
    IsFirstStray text error := by
  obtain ⟨before, stray, after, whole, rfl, accepted, notAccepted⟩ := exists_stray_of_scanFrom failed
  refine ⟨before.length, stray, ?_, ?_, ?_, fun front isPrefix frontAccepted => ?_⟩
  · rw [whole, List.getElem?_append_right (Nat.le_refl _), Nat.sub_self]
    rfl
  · rw [Nat.zero_add]
  · rw [whole, List.take_left']
    · exact accepted
    · rfl
  · refine Nat.le_of_not_lt fun longer => ?_
    have upTo : before ++ [stray] <+: text.toList := ⟨after, by rw [whole, List.append_assoc]; rfl⟩
    obtain ⟨more, rfl⟩ : before ++ [stray] <+: front := by
      refine List.prefix_of_prefix_length_le upTo isPrefix ?_
      rw [List.length_append]
      exact longer
    rw [List.append_assoc] at frontAccepted
    exact notAccepted more frontAccepted

/-- A scan finds the tokens of a text, and of no other. The beginning of a text that has tokens has
tokens as well. A scan fails after the longest beginning that has tokens. -/
theorem scan_longest (text : String) :
    (∀ tokens, scan text = .ok tokens ↔ Tokenization text 0 tokens) ∧
      (∀ front, front <+: text.toList → IsAccepted text.toList → IsAccepted front) ∧
      ∀ error, scan text = .error error → IsFirstStray text error := by
  refine ⟨fun tokens => scan_eq_ok_iff_tokenization, ?_, fun error => isFirstStray_of_scan⟩
  rintro front ⟨back, whole⟩ accepted
  rw [← whole] at accepted
  exact accepted.of_append

example : (scan "1.5.2").isOk = false ∧ (scan "1.5 2").isOk = true := by decide +kernel

end DirectionField
