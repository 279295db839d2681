/-
This file joins the steps from a text to an expression, and the errors of all steps. Every one of
them is a fault in a text and is reported with its place.
-/

import DirectionField.Expr.Evaluate
import DirectionField.Expr.Reading
import DirectionField.Token.Scan

namespace DirectionField

/-! ### Faults -/

/-- An error with a place in a source text. -/
inductive Fault
  | scanning (error : ScanError)
  | reading (error : ReadError)
  | evaluating (error : EvaluationError)
deriving DecidableEq, Repr, Inhabited

/-- What is said about a fault. -/
def Fault.diagnostic : Fault → Diagnostic
  | scanning error => error.diagnostic
  | reading error => error.diagnostic
  | evaluating error => error.diagnostic

/-! ### Expressions from texts -/

/-- The expression that a text stands for. -/
def Expr.ofText {State : Type} (table : SymbolTable State) (source : String) :
    Except Fault Expr := do
  let tokens ← (scan source).mapError .scanning
  (ofTokens table tokens source).mapError .reading

section

variable {Value Error Other : Type} {change : Error → Other} {outcome : Except Error Value}

theorem mapError_eq_ok_iff {value : Value} :
    outcome.mapError change = .ok value ↔ outcome = .ok value := by
  cases outcome with
  | ok found => exact ⟨fun same => congrArg _ (Except.ok.inj same),
      fun same => congrArg _ (Except.ok.inj same)⟩
  | error error => exact ⟨nofun, nofun⟩

theorem mapError_eq_error_iff {changed : Other} :
    outcome.mapError change = .error changed ↔
      ∃ error, outcome = .error error ∧ changed = change error := by
  cases outcome with
  | ok found => exact ⟨nofun, nofun⟩
  | error error =>
    constructor
    · intro same
      exact ⟨error, rfl, (Except.error.inj same).symm⟩
    · rintro ⟨_, same, rfl⟩
      rw [Except.error.inj same]
      rfl

end

section

variable {State : Type} {table : SymbolTable State} {source : String}

theorem ofText_of_scan {tokens : List Token} (scanned : scan source = .ok tokens) :
    Expr.ofText table source = (Expr.ofTokens table tokens source).mapError .reading := by
  rw [Expr.ofText, scanned]
  rfl

theorem ofText_of_scan_error {error : ScanError} (failed : scan source = .error error) :
    Expr.ofText table source = .error (.scanning error) := by
  rw [Expr.ofText, failed]
  rfl

/-- The expression of a text is that of its tokens. -/
theorem ofText_eq_ok_iff {tree : Expr} :
    Expr.ofText table source = .ok tree ↔
      ∃ tokens, scan source = .ok tokens ∧ Expr.ofTokens table tokens source = .ok tree := by
  cases scanned : scan source with
  | error error =>
    rw [ofText_of_scan_error scanned]
    exact ⟨nofun, nofun⟩
  | ok tokens =>
    rw [ofText_of_scan scanned, mapError_eq_ok_iff]
    constructor
    · exact fun read => ⟨tokens, rfl, read⟩
    · rintro ⟨_, ⟨⟩, read⟩
      exact read

/-- The fault of a text is an error of scanning it, or of reading its tokens. -/
theorem ofText_eq_error_iff {fault : Fault} :
    Expr.ofText table source = .error fault ↔
      (∃ error, scan source = .error error ∧ fault = .scanning error) ∨
        ∃ tokens error, scan source = .ok tokens ∧
          Expr.ofTokens table tokens source = .error error ∧ fault = .reading error := by
  cases scanned : scan source with
  | error error =>
    rw [ofText_of_scan_error scanned]
    constructor
    · intro failed
      exact Or.inl ⟨error, rfl, (Except.error.inj failed).symm⟩
    · rintro (⟨_, ⟨⟩, rfl⟩ | ⟨_, _, ⟨⟩, -⟩)
      rfl
  | ok tokens =>
    rw [ofText_of_scan scanned, mapError_eq_error_iff]
    constructor
    · rintro ⟨error, failed, rfl⟩
      exact Or.inr ⟨tokens, error, rfl, failed, rfl⟩
    · rintro (⟨_, ⟨⟩, -⟩ | ⟨_, error, ⟨⟩, failed, rfl⟩)
      exact ⟨error, failed, rfl⟩

theorem ofText_ne_evaluating {error : EvaluationError} :
    Expr.ofText table source ≠ .error (.evaluating error) := by
  intro failed
  rcases ofText_eq_error_iff.mp failed with ⟨_, -, isScanning⟩ | ⟨_, _, -, -, isReading⟩
  · cases isScanning
  · cases isReading

end

end DirectionField
