import Medals.Cell.Order
import Medals.Proofs.Table.Conditions

/-!
# Ranges of integers

A range compares integers as doubles, while sorting compares them exactly. Rounding reverses no two
integers, so that a range loses no cell that lies between its bounds; but it lets in a cell beyond a
bound when the two are rounded to one double. `Test.accepts_range_iff` says this for open and closed
ranges, and `Double.Separates` for which integers it makes no difference.
-/

namespace Medals

namespace Double

/-- Numeric comparison of rounded integers is that of their patterns, as no integer is rounded to
negative zero. -/
theorem compare?_ofInt (left right : Int) :
    (ofInt left).compare? (ofInt right) = some ((ofInt left).compareTotal (ofInt right)) := by
  have number : ∀ whole : Int, (ofInt whole).isNaN = false := fun whole =>
    decide_eq_false (Nat.not_lt.mpr (magnitude_ofRatio_le _ _ _))
  have positive : ∀ whole : Int, whole < 0 → 0 < (ofInt whole).magnitude := by
    intro whole negative
    have atLeast := magnitude_ofRatio_one_le false (decide (whole < 0))
      (show 1 ≤ whole.natAbs by omega)
    exact Nat.lt_of_lt_of_le (by decide +kernel) atLeast
  have sign : ∀ whole : Int, (ofInt whole).isNegative = decide (whole < 0) := fun whole =>
    isNegative_ofRatio _ _ _
  have less : ∀ one other : Int, (ofInt one).signedMagnitude < (ofInt other).signedMagnitude ↔
      (ofInt one).rank < (ofInt other).rank := by
    intro one other
    have onePositive := positive one
    have otherPositive := positive other
    simp only [signedMagnitude, rank, sign, decide_eq_true_eq]
    split <;> split <;> omega
  rw [compare?, number, number, Bool.or_self, if_neg Bool.false_ne_true, compareTotal,
    Int.compare_eq_ite_lt, Int.compare_eq_ite_lt]
  simp only [less]

/-- Rounding keeps two integers in order, but can make them equal. -/
theorem compareTotal_ofInt_ne_gt_iff {left right : Int} :
    (ofInt left).compareTotal (ofInt right) ≠ .gt ↔ left ≤ right ∨ ofInt left = ofInt right := by
  rw [compareTotal, Int.compare_ne_gt]
  constructor
  · intro ranks
    by_cases ordered : left ≤ right
    · exact .inl ordered
    · have back := rank_ofInt_le (show right ≤ left by omega)
      exact .inr (rank_injective (Int.le_antisymm ranks back))
  · rintro (ordered | same)
    · exact rank_ofInt_le ordered
    · rw [same]

/-- One of the integers is of magnitude below `2 ^ 53`, or none is beyond it. -/
def Separates (left right : Int) : Prop :=
  left.natAbs < exactBound ∨ right.natAbs < exactBound ∨
    left.natAbs ≤ exactBound ∧ right.natAbs ≤ exactBound

/-- Such integers are rounded to one double only if they are equal. -/
theorem Separates.eq_of_ofInt {left right : Int} (separated : Separates left right)
    (same : ofInt left = ofInt right) : left = right := by
  have equal : (ofInt left).compare? (ofInt right) = some .eq := by
    rw [compare?_ofInt, same, compareTotal, compare_eq_iff_eq.mpr rfl]
  rcases separated with small | small | ⟨leftBounded, rightBounded⟩
  · refine ((compare?_ofInt_eq_iff small).mp ?_).symm
    rwa [same] at equal ⊢
  · exact (compare?_ofInt_eq_iff small).mp equal
  · rcases Int.lt_trichotomy left right with less | equal | greater
    · have ranks := rank_ofInt_lt less leftBounded rightBounded
      rw [same] at ranks
      exact absurd ranks (Int.lt_irrefl _)
    · exact equal
    · have ranks := rank_ofInt_lt greater rightBounded leftBounded
      rw [same] at ranks
      exact absurd ranks (Int.lt_irrefl _)

end Double

namespace Test

variable {value bound : Int64}

theorem reaches_integer_iff :
    reaches (.integer value) (.integer bound) = true ↔
      bound.toInt ≤ value.toInt ∨ Double.ofInt bound.toInt = Double.ofInt value.toInt := by
  have compared : (Cell.integer value).compareAlike? (.integer bound) =
      some ((Double.ofInt value.toInt).compareTotal (Double.ofInt bound.toInt)) :=
    Double.compare?_ofInt value.toInt bound.toInt
  have swapped : (Double.ofInt value.toInt).compareTotal (Double.ofInt bound.toInt) =
      ((Double.ofInt bound.toInt).compareTotal (Double.ofInt value.toInt)).swap :=
    Std.OrientedOrd.eq_swap
  rw [reaches, compared, ← Double.compareTotal_ofInt_ne_gt_iff, swapped]
  cases (Double.ofInt bound.toInt).compareTotal (Double.ofInt value.toInt) <;> decide

theorem staysWithin_integer_iff :
    staysWithin (.integer value) (.integer bound) = true ↔
      value.toInt ≤ bound.toInt ∨ Double.ofInt value.toInt = Double.ofInt bound.toInt := by
  have compared : (Cell.integer value).compareAlike? (.integer bound) =
      some ((Double.ofInt value.toInt).compareTotal (Double.ofInt bound.toInt)) :=
    Double.compare?_ofInt value.toInt bound.toInt
  rw [staysWithin, compared, ← Double.compareTotal_ofInt_ne_gt_iff, bne_iff_ne]

/-- The integer lies between the bounds, each included and each optional. -/
def Between (low? high? : Option Int64) (value : Int64) : Prop :=
  (∀ low ∈ low?, low.toInt ≤ value.toInt) ∧ ∀ high ∈ high?, value.toInt ≤ high.toInt

/-- A range of integers holds the integers between its bounds and those that are one double with the
bound beyond which they lie. Where the bounds are separated from an integer, the range holds it
exactly if it lies between them in the order of cells. A filter of the one condition passes the rows
whose cell the range holds. -/
theorem accepts_range_iff (value : Int64) (low? high? : Option Int64) :
    let test := range (low?.map .integer) (high?.map .integer)
    (test.accepts (.integer value) = true ↔
      (∀ low ∈ low?, low.toInt ≤ value.toInt ∨
        Double.ofInt low.toInt = Double.ofInt value.toInt) ∧
      ∀ high ∈ high?, value.toInt ≤ high.toInt ∨
        Double.ofInt value.toInt = Double.ofInt high.toInt) ∧
    (Between low? high? value ↔
      (∀ low ∈ low?, Cell.order (.integer low) (.integer value) ≠ .gt) ∧
      ∀ high ∈ high?, Cell.order (.integer value) (.integer high) ≠ .gt) ∧
    ((∀ bound, bound ∈ low? ∨ bound ∈ high? → Double.Separates bound.toInt value.toInt) →
      (test.accepts (.integer value) = true ↔ Between low? high? value)) ∧
    ∀ (row : Row) (column : String), row.get column = .ok (.integer value) →
      Filter.eval ⟨[.range column (low?.map .integer) (high?.map .integer)]⟩ row =
        .ok (test.accepts (.integer value)) := by
  intro test
  have accepted : test.accepts (.integer value) = true ↔
      (∀ low ∈ low?, low.toInt ≤ value.toInt ∨
        Double.ofInt low.toInt = Double.ofInt value.toInt) ∧
      ∀ high ∈ high?, value.toInt ≤ high.toInt ∨
        Double.ofInt value.toInt = Double.ofInt high.toInt := by
    have both : test.accepts (.integer value) =
        ((low?.map .integer).all (reaches (.integer value)) &&
          (high?.map .integer).all (staysWithin (.integer value))) := rfl
    rw [both, Bool.and_eq_true, Option.all_map, Option.all_map]
    simp only [Option.all_eq_true, reaches_integer_iff, staysWithin_integer_iff, Option.mem_def]
  refine ⟨accepted, ?_, fun separated => accepted.trans ?_, fun row column found => ?_⟩
  · have exactly : ∀ one other : Int64,
        Cell.order (.integer one) (.integer other) ≠ .gt ↔ one.toInt ≤ other.toInt :=
      fun one other => Int.compare_ne_gt
    simp only [exactly, Between]
  · constructor
    · rintro ⟨above, below⟩
      refine ⟨fun low listed => ?_, fun high listed => ?_⟩
      · exact (above low listed).elim id fun same =>
          Int.le_of_eq ((separated low (.inl listed)).eq_of_ofInt same)
      · exact (below high listed).elim id fun same =>
          Int.le_of_eq ((separated high (.inr listed)).eq_of_ofInt same.symm).symm
    · rintro ⟨above, below⟩
      exact ⟨fun low listed => .inl (above low listed), fun high listed => .inl (below high listed)⟩
  · rw [Filter.eval, Filter.evalConditions, Condition.column, found]
    change (if test.accepts (.integer value) = true then _ else _) = _
    cases test.accepts (.integer value) <;> rfl

/-- A range from an odd integer beyond `2 ^ 53` on holds the integer in front of it. -/
theorem accepts_range_not_exact :
    ¬ ∀ (value : Int64) (low? high? : Option Int64),
      (range (low?.map .integer) (high?.map .integer)).accepts (.integer value) = true ↔
        Between low? high? value := by
  intro exact
  have held : (range (some (.integer 9007199254740993)) none).accepts
      (.integer 9007199254740992) = true := by decide +kernel
  have between := (exact 9007199254740992 (some 9007199254740993) none).mp held
  exact absurd (between.1 9007199254740993 rfl) (by decide)

end Test

end Medals
