import DirectionField.Main
import DirectionField.Proofs.Calls
import DirectionField.Proofs.Draws
import DirectionField.Proofs.FirstWord
import DirectionField.Proofs.GridOrder
import DirectionField.Proofs.Grouping
import DirectionField.Proofs.InOrder
import DirectionField.Proofs.Places
import DirectionField.Proofs.Printing
import DirectionField.Proofs.Progress
import DirectionField.Proofs.Settings
import DirectionField.Proofs.Relocation
import DirectionField.Proofs.Spacing
import DirectionField.Proofs.Substitution
import DirectionField.Proofs.Transcript
import DirectionField.Proofs.Meaning
import DirectionField.Proofs.Vocabulary
import DirectionField.Proofs.Shortest
import DirectionField.Proofs.NumberTexts
import DirectionField.Proofs.StringForm
