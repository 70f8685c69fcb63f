import Medals.Proofs.Csv.Policy
import Medals.Proofs.Table.Columns
import Medals.Proofs.Table.Conditions

/-!
# Columns of a declared kind

A column that is declared to hold integers holds nothing else, apart from missing cells
(`ReadOptions.integerOrMissing_under`).
-/

namespace Medals

/-- A text that is read as an integer yields one or nothing. -/
theorem Cell.integerOrMissing_parseAs (raw : String) :
    (parseAs raw .integer).IntegerOrMissing := by
  unfold parseAs
  dsimp only
  split
  · next value _ => exact .inr ⟨value, rfl⟩
  · split
    · next value _ => exact .inr ⟨Int64.ofIntClamp value, rfl⟩
    · exact .inl rfl

theorem integerOrMissing_parseCell (nullTokens : List String) (raw : String) :
    (parseCell nullTokens (some .integer) raw).IntegerOrMissing := by
  unfold parseCell
  dsimp only
  split
  · exact .inl rfl
  · exact Cell.integerOrMissing_parseAs raw

namespace ReadOptions

variable {options : ReadOptions} {names : List String} {record : Csv.Record} {name : String}

/-- The cell of a column is that of its field. -/
theorem under_rowOf {index : Nat} (found : position? names name = some index) :
    (options.rowOf names record).under name = options.cellOf name record[index]? := by
  obtain ⟨inside, same, -⟩ := List.findIdx?_eq_some_iff_getElem.mp found
  have position : position? (options.rowOf names record).names name = some index := found
  rw [Row.under_eq_cellAt position, Row.cellAt, rowOf, List.getD_eq_getElem?_getD]
  simp [inside, eq_of_beq same]

/-- A column that is declared to hold integers holds nothing else. -/
theorem integerOrMissing_under (declared : options.declaredKind? name = some .integer) :
    ((options.rowOf names record).under name).IntegerOrMissing := by
  cases found : position? names name with
  | none =>
    have absent : (options.rowOf names record).position? name = none := found
    exact .inl (by rw [Row.under, Row.get, absent])
  | some index =>
    rw [under_rowOf found]
    cases record[index]? with
    | none => exact .inl rfl
    | some field =>
      rw [cellOf, declared]
      exact integerOrMissing_parseCell options.nullTokens _

end ReadOptions

end Medals
