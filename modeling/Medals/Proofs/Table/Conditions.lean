import Medals.Proofs.Number.Comparison
import Medals.Table.Filter

/-!
# What conditions ask of a cell

Equality compares keys and a range compares doubles. On integer cells they agree when both bounds
are one integer that doubles tell from all others (`Test.accepts_single_iff`).
-/

namespace Medals

namespace Cell

/-- An integer cell, or a missing one. -/
def IntegerOrMissing (cell : Cell) : Prop :=
  cell = .missing ∨ ∃ value, cell = .integer value

theorem isMissing_iff {cell : Cell} : cell.isMissing = true ↔ cell = .missing := by
  cases cell <;> simp [isMissing]

theorem IntegerOrMissing.key_eq_iff {cell : Cell} (whole : cell.IntegerOrMissing) {value : Int64} :
    cell.key = .integer value ↔ cell = .integer value := by
  rcases whole with rfl | ⟨other, rfl⟩ <;> simp [key]

/-- No text has the identity of a missing cell. -/
theorem key_text_ne_missing (raw : String) : (text raw).key ≠ .missing := by
  have number : ∀ value : Double, value.key ≠ .missing := by
    intro value
    unfold Double.key
    split
    · split <;> simp
    · simp
  unfold key
  dsimp only
  split
  · split
    · simp
    · split
      · exact number _
      · simp
  · simp

end Cell

namespace Test

theorem accepts_present (cell : Cell) : present.accepts cell = !cell.isMissing := by
  cases cell <;> rfl

/-- A cell has the key of an equality, unless that key is missing. -/
theorem accepts_equals_iff {key : CellKey} (known : key ≠ .missing) {cell : Cell} :
    (equals key).accepts cell = true ↔ cell.key = key := by
  have present : key.isMissing = false := by
    cases key with
    | missing => exact absurd rfl known
    | integer | number | text => rfl
  by_cases missing : cell = .missing
  · subst missing
    simp [accepts, Cell.isMissing, Cell.key, Ne.symm known]
  · have shown : cell.isMissing = false := by simpa [← Cell.isMissing_iff] using missing
    simp [accepts, shown, present]

/-- Between a bound and itself lies what compares equal to it. -/
theorem reaches_and_staysWithin_iff {cell bound : Cell} :
    (reaches cell bound && staysWithin cell bound) = true ↔
      cell.compareAlike? bound = some .eq := by
  rw [reaches, staysWithin]
  cases cell.compareAlike? bound with
  | none => simp
  | some order => cases order <;> simp

/-- A range of one integer that is told from all others holds only this integer. -/
theorem accepts_single_iff {value : Int64} (exact : value.toInt.natAbs < Double.exactBound)
    {cell : Cell} (whole : cell.IntegerOrMissing) :
    (range (some (.integer value)) (some (.integer value))).accepts cell = true ↔
      cell = .integer value := by
  rcases whole with rfl | ⟨other, rfl⟩
  · simp [accepts, Cell.isMissing]
  · have compared : (Cell.integer other).compareAlike? (.integer value) =
        (Double.ofInt other.toInt).compare? (Double.ofInt value.toInt) := rfl
    have between : (range (some (.integer value)) (some (.integer value))).accepts
        (.integer other) = (reaches (.integer other) (.integer value) &&
          staysWithin (.integer other) (.integer value)) := rfl
    rw [between, reaches_and_staysWithin_iff, compared, Double.compare?_ofInt_eq_iff exact,
      Int64.toInt_inj, Cell.integer.injEq]

end Test

end Medals
