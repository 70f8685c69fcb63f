import Medals.Proofs.Cell.Identity
import Medals.Proofs.Table.Conditions
import Medals.Table.Group
import Medals.Table.Join

/-!
# One number in joins, groups and equalities

Joins, groups and equality conditions compare keys. On columns of numbers they therefore compare the
numbers, however these are held, and take no two for one except the greatest 64-bit integer and the
double `2 ^ 63` (`Cell.keys_identify_numbers`). Texts that read as numbers are not treated here.
-/

namespace Medals

namespace Cell

/-- The cells hold one number, or the two numbers that share a key. -/
def SameNumber (left right : Cell) : Prop :=
  left.exactValue? = right.exactValue? ∨ Collide left right

/-- The cell holds a number. -/
def HoldsNumber (cell : Cell) : Prop :=
  cell.exactValue?.isSome = true

instance : DecidablePred HoldsNumber := fun cell =>
  inferInstanceAs (Decidable (cell.exactValue?.isSome = true))

section Numbers

variable {left right : Cell}

theorem key_eq_iff_sameNumber (leftNumber : left.HoldsNumber) (rightNumber : right.HoldsNumber) :
    left.key = right.key ↔ SameNumber left right := by
  obtain ⟨x, leftValue⟩ := Option.isSome_iff_exists.mp leftNumber
  obtain ⟨y, rightValue⟩ := Option.isSome_iff_exists.mp rightNumber
  rw [key_eq_iff leftValue rightValue, SameNumber, leftValue, rightValue, Option.some.injEq]

theorem key_ne_missing (leftNumber : left.HoldsNumber) : left.key ≠ .missing := by
  cases left with
  | missing | text => simp [HoldsNumber, exactValue?] at leftNumber
  | integer value => simp [key]
  | number value =>
    rcases value.key_eq_integer_or_number with ⟨whole, found⟩ | found <;> simp [key, found]

/-- An equality with a number is passed by the cells that hold it. -/
theorem accepts_equals_iff_sameNumber (column : String) (leftNumber : left.HoldsNumber)
    (rightNumber : right.HoldsNumber) :
    (Condition.equals column right).test.accepts left = true ↔ SameNumber left right := by
  rw [Condition.test, Test.accepts_equals_iff (key_ne_missing rightNumber),
    key_eq_iff_sameNumber leftNumber rightNumber]

end Numbers

end Cell

/-- Rows with numbers in their key columns have one group when these numbers are the same. -/
theorem Groups.keyOf_eq_iff (groups : Groups) {left right : Row}
    (numbers : ∀ index ∈ groups.keyPositions,
      (left.cellAt index).HoldsNumber ∧ (right.cellAt index).HoldsNumber) :
    groups.keyOf left = groups.keyOf right ↔
      ∀ index ∈ groups.keyPositions, (left.cellAt index).SameNumber (right.cellAt index) := by
  rw [keyOf, keyOf, List.map_inj_left]
  refine forall₂_congr fun index member => ?_
  exact Cell.key_eq_iff_sameNumber (numbers index member).1 (numbers index member).2

/-- A row with numbers in its key columns has a key to be joined on. -/
theorem Join.rowKey?_of_numbers {positions : List Nat} {row : Row}
    (numbers : ∀ index ∈ positions, (row.cellAt index).HoldsNumber) :
    rowKey? positions row = some (positions.map fun index => (row.cellAt index).key) := by
  have known : (positions.map fun index => (row.cellAt index).key).any CellKey.isMissing = false := by
    simp only [List.any_eq_false, List.mem_map, forall_exists_index, and_imp]
    rintro key index member rfl missing
    have present := Cell.key_ne_missing (numbers index member)
    cases held : (row.cellAt index).key <;> simp_all [CellKey.isMissing]
  rw [rowKey?, known]
  rfl

/-- Rows with numbers in their key columns are partners when these numbers are the same. -/
theorem Join.rowKey?_eq_iff {leftKeys rightKeys : List Nat} {left right : Row}
    (leftNumbers : ∀ index ∈ leftKeys, (left.cellAt index).HoldsNumber)
    (rightNumbers : ∀ index ∈ rightKeys, (right.cellAt index).HoldsNumber) :
    rowKey? leftKeys left = rowKey? rightKeys right ↔
      List.Forall₂ (fun one other => (left.cellAt one).SameNumber (right.cellAt other))
        leftKeys rightKeys := by
  rw [rowKey?_of_numbers leftNumbers, rowKey?_of_numbers rightNumbers, Option.some.injEq]
  induction leftKeys generalizing rightKeys with
  | nil => cases rightKeys <;> simp
  | cons one ones ih =>
    cases rightKeys with
    | nil => simp
    | cons other others =>
      rw [List.forall_mem_cons] at leftNumbers rightNumbers
      rw [List.map_cons, List.map_cons, List.cons.injEq, List.forall₂_cons,
        ih leftNumbers.2 rightNumbers.2,
        Cell.key_eq_iff_sameNumber leftNumbers.1 rightNumbers.1]

/-- Integers share a key when they are equal, an integer and a finite double when the double is that
integer, finite doubles when they are one number, the zeros included. The one exception are the
greatest 64-bit integer and the double `2 ^ 63`. Accordingly a join takes rows with numbers in their
key columns for partners, a grouping puts them into one group, and an equality accepts a number,
when the numbers are the same. -/
theorem Cell.keys_identify_numbers {i j : Int64} {f g : Double} (fFinite : f.isFinite = true)
    (gFinite : g.isFinite = true) :
    ((integer i).key = (integer j).key ↔ i = j) ∧
      ((integer i).key = (number f).key ↔
        f.exactValue = i.toInt ∨ i = Int64.maxValue ∧ f = Double.beyondInt64) ∧
      ((number f).key = (number g).key ↔ f.exactValue = g.exactValue) ∧
      (∀ {leftKeys rightKeys : List Nat} {left right : Row},
        (∀ index ∈ leftKeys, (left.cellAt index).HoldsNumber) →
        (∀ index ∈ rightKeys, (right.cellAt index).HoldsNumber) →
        (Join.rowKey? leftKeys left = Join.rowKey? rightKeys right ↔
          List.Forall₂ (fun one other => (left.cellAt one).SameNumber (right.cellAt other))
            leftKeys rightKeys)) ∧
      (∀ (groups : Groups) {left right : Row},
        (∀ index ∈ groups.keyPositions,
          (left.cellAt index).HoldsNumber ∧ (right.cellAt index).HoldsNumber) →
        (groups.keyOf left = groups.keyOf right ↔
          ∀ index ∈ groups.keyPositions,
            (left.cellAt index).SameNumber (right.cellAt index))) ∧
      ∀ (column : String) {left right : Cell}, left.HoldsNumber → right.HoldsNumber →
        ((Condition.equals column right).test.accepts left = true ↔ left.SameNumber right) := by
  refine ⟨by simp [key], ?_, Double.key_eq_key_iff fFinite gFinite, Join.rowKey?_eq_iff,
    Groups.keyOf_eq_iff, fun column {_ _} => accepts_equals_iff_sameNumber column⟩
  rw [key, key, eq_comm, Double.key_eq_integer_iff fFinite, and_comm]

/-- A row with the integer 2012 is joined with one that holds it as a double, but the double differs
from negative zero. -/
theorem Cell.keys_of_2012 :
    (⟨0x409f700000000000⟩ : Double).isFinite = true ∧
      (⟨0x8000000000000000⟩ : Double).isFinite = true ∧
      (integer 2012).key = (number ⟨0x409f700000000000⟩).key ∧
      (number ⟨0x409f700000000000⟩).key ≠ (number ⟨0x8000000000000000⟩).key ∧
      Join.rowKey? [0] ⟨["a"], [integer 2012], rfl⟩ =
        Join.rowKey? [0] ⟨["b"], [number ⟨0x409f700000000000⟩], rfl⟩ := by
  have finite : (⟨0x409f700000000000⟩ : Double).isFinite = true := by decide
  have zero : (⟨0x8000000000000000⟩ : Double).isFinite = true := by decide
  have value := (Double.toInt?_eq_some_iff finite).mp
    (show (⟨0x409f700000000000⟩ : Double).toInt? = some 2012 by decide +kernel)
  have nothing : (⟨0x8000000000000000⟩ : Double).exactValue = 0 :=
    Double.exactValue_of_isZero (by decide)
  obtain ⟨-, mixed, doubles, joined, -⟩ := @keys_identify_numbers 2012 2012 _ _ finite zero
  refine ⟨finite, zero, mixed.mpr (.inl value), ?_, ?_⟩
  · rw [Ne, doubles, value, nothing]
    norm_num
  · refine (joined (by decide) (by decide)).mpr (.cons (.inl ?_) .nil)
    change some _ = some _
    rw [value]
    rfl

/-- The key of the greatest 64-bit integer is also that of the double next to it. -/
theorem Cell.keys_merge_numbers :
    ¬ ∀ (i : Int64) (f : Double), f.isFinite = true →
      ((integer i).key = (number f).key ↔ f.exactValue = i.toInt) := by
  intro exact
  have shared : (integer Int64.maxValue).key = (number Double.beyondInt64).key := by decide +kernel
  exact Double.beyondInt64.exactValue_ne_maxValue ((exact _ _ (by decide)).mp shared)

end Medals
