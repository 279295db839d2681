/-
This file splits a text into tokens. A lexeme is a mark, the longest word of small letters and
digits that starts with a letter, or the longest numeral. Spaces separate lexemes and are skipped;
any other character is an error at its place.
-/

import DirectionField.Diagnostic
import DirectionField.Number.Numeral

namespace DirectionField

/-! ### Characters -/

/-- The mark that a character is. -/
def markOf? : Char → Option Mark
  | '(' => some .opening
  | ')' => some .closing
  | '+' => some .plus
  | '-' => some .minus
  | '*' => some .star
  | '/' => some .slash
  | '^' => some .caret
  | ',' => some .comma
  | _ => none

/-- Words consist of small letters and digits. -/
def isWordCharacter (character : Char) : Bool :=
  character.isLower || character.isDigit

/-! ### Errors -/

/-- A piece of the source that starts no lexeme. -/
structure ScanError where
  piece : String
  source : String
  index : Int
deriving DecidableEq, Repr, Inhabited

/-- What is said about a scan error. -/
def ScanError.diagnostic (error : ScanError) : Diagnostic :=
  ⟨"Unrecognized character '" ++ error.piece ++ "'", error.source, error.index, 1⟩

/-! ### The front lexeme -/

/-- Take the lexeme at the front of a text that starts with the given character. -/
def takeLexeme? (first : Char) (rest : List Char) : Option (Lexeme × List Char) :=
  match markOf? first with
  | some kind => some (.mark kind (String.ofList [first]), rest)
  | none =>
    if first.isLower then
      some (.name (String.ofList (first :: rest.takeWhile isWordCharacter)),
        rest.dropWhile isWordCharacter)
    else if first.isDigit then
      let (numeral, rest) := Numeral.takeFront (first :: rest)
      some (.number (numeral.value 0), rest)
    else
      none

/-- A numeral that starts with a digit takes at least that digit. -/
theorem length_takeFront_lt {first : Char} (isDigit : first.isDigit = true) (rest : List Char) :
    (Numeral.takeFront (first :: rest)).2.length < (first :: rest).length := by
  have whole : (first :: rest).dropWhile Char.isDigit = rest.dropWhile Char.isDigit := by
    simp [isDigit]
  have bound := (List.dropWhile_sublist (l := rest) Char.isDigit).length_le
  unfold Numeral.takeFront
  rw [whole]
  split
  · next after found =>
    have shorter := (List.dropWhile_sublist (l := after) Char.isDigit).length_le
    rw [found] at bound
    simp only [List.length_cons] at bound ⊢
    omega
  · simp only [List.length_cons]
    omega

/-- A lexeme takes at least one character. -/
theorem length_lt_of_takeLexeme? {first : Char} {rest : List Char} {lexeme : Lexeme}
    {after : List Char} (taken : takeLexeme? first rest = some (lexeme, after)) :
    after.length < (first :: rest).length := by
  unfold takeLexeme? at taken
  split at taken
  · cases taken
    simp
  · split at taken
    · cases taken
      exact Nat.lt_succ_of_le (List.dropWhile_sublist isWordCharacter).length_le
    · split at taken
      · next isDigit =>
        cases taken
        exact length_takeFront_lt isDigit rest
      · cases taken

/-! ### The tokens of a text -/

/-- The tokens of the part of a source text that starts at an index. -/
def scanFrom (source : String) (index : Nat) (text : List Char) : Except ScanError (List Token) :=
  match text with
  | [] => .ok []
  | ' ' :: rest => scanFrom source (index + 1) rest
  | first :: rest =>
    match _taken : takeLexeme? first rest with
    | none => .error ⟨String.ofList [first], source, index⟩
    | some (lexeme, after) =>
      let length := (first :: rest).length - after.length
      match scanFrom source (index + length) after with
      | .error error => .error error
      | .ok tokens => .ok (⟨lexeme, source, index, length⟩ :: tokens)
termination_by text.length
decreasing_by
  · exact Nat.lt_succ_self _
  · exact length_lt_of_takeLexeme? _taken

/-- The lexeme at the front is the first token, and the other tokens are those of what it leaves. -/
theorem scanFrom_cons {source : String} {index : Nat} {first : Char} {rest after : List Char}
    {lexeme : Lexeme} (notBlank : first ≠ ' ')
    (taken : takeLexeme? first rest = some (lexeme, after)) :
    scanFrom source index (first :: rest) =
      (scanFrom source (index + ((first :: rest).length - after.length)) after).map
        (⟨lexeme, source, index, ((first :: rest).length - after.length : Nat)⟩ :: ·) := by
  rw [scanFrom]
  · split
    · next none => rw [taken] at none; cases none
    · next found remaining isTaken =>
      cases taken.symm.trans isTaken
      dsimp only
      cases scanFrom source (index + ((first :: rest).length - after.length)) after <;> rfl
  · exact notBlank

/-- The tokens of a text. -/
def scan (source : String) : Except ScanError (List Token) :=
  scanFrom source 0 source.toList

end DirectionField
