import Medals.Cell.Order
import Medals.Proofs.Number.Whole

/-!
# When the order of cells is transitive

Integers are compared exactly with one another and as doubles with numbers, so that the order is
transitive only as far as integers are doubles. `Cell.roundedOrder` compares all of them as
doubles; it is a total preorder on all cells, and `Cell.roundedOrder_eq` says that it is the order
of cells on those that `Cell.Exact` admits. Where no integer meets a number the order needs no such
bound: there it is `Cell.kindwiseOrder`, which tells all cells apart (`Cell.kindwiseOrder_eq`). The
same holds with missing cells last.
-/

namespace Medals

namespace Cell

/-- An integer is a double of its own; other cells are always admitted. -/
def Exact : Cell → Prop
  | integer value => value.toInt.natAbs ≤ Double.exactBound
  | _ => True

instance : DecidablePred Exact
  | missing => .isTrue trivial
  | integer _ => inferInstanceAs (Decidable (_ ≤ _))
  | number _ => .isTrue trivial
  | text _ => .isTrue trivial

/-- The cell with an integer rounded to a double. -/
def rounded : Cell → Cell
  | integer value => number (Double.ofInt value.toInt)
  | cell => cell

@[simp] theorem isMissing_rounded (cell : Cell) : cell.rounded.isMissing = cell.isMissing := by
  cases cell <;> rfl

/-- Compare all numbers as doubles. -/
def roundedOrder (left right : Cell) : Ordering :=
  order left.rounded right.rounded

/-- Compare all numbers as doubles, with missing cells last in both directions. -/
def roundedMissingLast (descending : Bool) (left right : Cell) : Ordering :=
  orderMissingLast descending left.rounded right.rounded

section Laws

/-- Numbers come first, then texts, then missing cells. -/
private def kindPlace : Cell → Nat
  | integer _ => 0
  | number _ => 0
  | text _ => 1
  | missing => 2

private def doubleRank : Cell → Int
  | integer value => (Double.ofInt value.toInt).rank
  | number value => value.rank
  | _ => 0

private def ownText : Cell → String
  | text value => value
  | _ => ""

private theorem roundedOrder_eq_compareLex :
    roundedOrder =
      compareLex (compareOn kindPlace) (compareLex (compareOn doubleRank) (compareOn ownText)) := by
  funext left right
  cases left <;> cases right <;>
    simp [roundedOrder, rounded, order, Double.compareTotal, compareLex, compareOn, kindPlace,
      doubleRank, ownText, Nat.compare_eq_ite_lt]

instance : Std.TransCmp roundedOrder := by
  rw [roundedOrder_eq_compareLex]
  infer_instance

/-- Put integers before numbers, and compare other cells in their order. -/
def kindwiseOrder : Cell → Cell → Ordering
  | integer _, number _ => .lt
  | number _, integer _ => .gt
  | left, right => order left right

private def integerPlace : Cell → Nat
  | integer _ => 0
  | _ => 1

private def ownInteger : Cell → Int
  | integer value => value.toInt
  | _ => 0

private def numberRank : Cell → Int
  | number value => value.rank
  | _ => 0

private theorem kindwiseOrder_eq_compareLex :
    kindwiseOrder =
      compareLex (compareOn integerPlace) (compareLex (compareOn kindPlace)
        (compareLex (compareOn ownInteger)
          (compareLex (compareOn numberRank) (compareOn ownText)))) := by
  funext left right
  cases left <;> cases right <;>
    simp [kindwiseOrder, order, Double.compareTotal, compareLex, compareOn, integerPlace, kindPlace,
      ownInteger, numberRank, ownText, Nat.compare_eq_ite_lt]

instance : Std.TransCmp kindwiseOrder := by
  rw [kindwiseOrder_eq_compareLex]
  infer_instance

instance : Std.LawfulEqCmp kindwiseOrder where
  eq_of_compare {left right} same := by
    cases left <;> cases right <;>
      simp_all [kindwiseOrder, order, Double.compareTotal, Int64.toInt_inj,
        Double.rank_injective.eq_iff]

section MissingLast

/-- Compare by an order, but with missing cells last in both directions. -/
def missingLast (compare : Cell → Cell → Ordering) (descending : Bool) (left right : Cell) :
    Ordering :=
  match left.isMissing, right.isMissing with
  | true, true => .eq
  | true, false => .gt
  | false, true => .lt
  | false, false => if descending then (compare left right).swap else compare left right

variable {compare : Cell → Cell → Ordering} {descending : Bool}

private theorem missingLast_eq_compareLex [Std.TransCmp compare] :
    missingLast compare descending = compareLex (compareOn isMissing)
      (if descending then fun left right => compare right left else compare) := by
  funext left right
  have same : compare missing missing = .eq := Std.ReflCmp.compare_self
  cases descending with
  | false => cases left <;> cases right <;> first | rfl | exact same.symm
  | true =>
    have swapped : (compare left right).swap = compare right left := Std.OrientedCmp.eq_swap.symm
    rw [missingLast, if_pos rfl, swapped]
    cases left <;> cases right <;> first | rfl | exact same.symm

instance [Std.TransCmp compare] : Std.TransCmp (missingLast compare descending) := by
  rw [missingLast_eq_compareLex]
  cases descending
  · exact inferInstanceAs (Std.TransCmp (compareLex (compareOn isMissing) compare))
  · exact inferInstanceAs (Std.TransCmp
      (compareLex (compareOn isMissing) fun left right => compare right left))

instance [Std.LawfulEqCmp compare] : Std.LawfulEqCmp (missingLast compare descending) where
  compare_self {cell} := by
    have same : compare cell cell = .eq := Std.ReflCmp.compare_self
    cases cell <;> cases descending <;> simp_all [missingLast, isMissing]
  eq_of_compare {left right} same := by
    have equal : compare left right = .eq := by
      cases left <;> cases right <;> cases descending <;> simp_all [missingLast, isMissing]
    exact Std.LawfulEqCmp.eq_of_compare equal

end MissingLast

instance (descending : Bool) : Std.TransCmp (roundedMissingLast descending) := by
  have same : roundedMissingLast descending = missingLast roundedOrder descending := by
    funext left right
    rw [roundedMissingLast, orderMissingLast, isMissing_rounded, isMissing_rounded]
    rfl
  rw [same]
  infer_instance

end Laws

theorem compare_rank_ofInt {left right : Int} (leftExact : left.natAbs ≤ Double.exactBound)
    (rightExact : right.natAbs ≤ Double.exactBound) :
    (Double.ofInt left).compareTotal (Double.ofInt right) = compare left right := by
  unfold Double.compareTotal
  rcases Int.lt_trichotomy left right with less | rfl | greater
  · rw [Int.compare_eq_lt.mpr less,
      Int.compare_eq_lt.mpr (Double.rank_ofInt_lt less leftExact rightExact)]
  · simp
  · rw [Int.compare_eq_gt.mpr greater,
      Int.compare_eq_gt.mpr (Double.rank_ofInt_lt greater rightExact leftExact)]

/-- On admitted cells it makes no difference whether integers are rounded. -/
theorem roundedOrder_eq {left right : Cell} (leftExact : left.Exact) (rightExact : right.Exact) :
    roundedOrder left right = order left right := by
  cases left <;> cases right <;> try rfl
  exact compare_rank_ofInt leftExact rightExact

theorem roundedMissingLast_eq (descending : Bool) {left right : Cell} (leftExact : left.Exact)
    (rightExact : right.Exact) :
    roundedMissingLast descending left right = orderMissingLast descending left right := by
  have same := roundedOrder_eq leftExact rightExact
  rw [roundedOrder] at same
  rw [roundedMissingLast, orderMissingLast, orderMissingLast, isMissing_rounded, isMissing_rounded,
    same]

/-- Integers and numbers do not meet among the cells. -/
def Unmixed (cells : List Cell) : Prop :=
  ∀ value number, integer value ∈ cells → Cell.number number ∉ cells

theorem Unmixed.perm {cells others : List Cell} (unmixed : Unmixed cells)
    (perm : cells.Perm others) : Unmixed others := by
  intro value number one other
  exact unmixed value number (perm.mem_iff.mpr one) (perm.mem_iff.mpr other)

/-- The cell holds an integer. -/
def IsInteger (cell : Cell) : Prop :=
  ∃ value, cell = integer value

theorem unmixed_of_isInteger {cells : List Cell} (all : ∀ cell ∈ cells, cell.IsInteger) :
    Unmixed cells := by
  intro value double _ other
  obtain ⟨count, same⟩ := all _ other
  cases same

theorem unmixed_of_not_isInteger {cells : List Cell} (none : ∀ cell ∈ cells, ¬ cell.IsInteger) :
    Unmixed cells := by
  intro value double one _
  exact none _ one ⟨value, rfl⟩

/-- Where no integer meets a number it makes no difference whether kinds are compared first. -/
theorem kindwiseOrder_eq {cells : List Cell} (unmixed : Unmixed cells) {left right : Cell}
    (one : left ∈ cells) (other : right ∈ cells) : kindwiseOrder left right = order left right := by
  cases left <;> cases right <;> try rfl
  · exact absurd other (unmixed _ _ one)
  · exact absurd one (unmixed _ _ other)

theorem kindwiseMissingLast_eq (descending : Bool) {cells : List Cell} (unmixed : Unmixed cells)
    {left right : Cell} (one : left ∈ cells) (other : right ∈ cells) :
    missingLast kindwiseOrder descending left right = orderMissingLast descending left right := by
  calc missingLast kindwiseOrder descending left right
      = missingLast order descending left right := by
        rw [missingLast, missingLast, kindwiseOrder_eq unmixed one other]
    _ = orderMissingLast descending left right := rfl

/-- Cells in order, missing ones last, are in the one order that there is, unless an integer meets a
number. -/
theorem eq_of_ordered {descending : Bool} {cells others : List Cell} (perm : cells.Perm others)
    (unmixed : Unmixed cells)
    (ordered : cells.Pairwise fun left right => orderMissingLast descending left right ≠ .gt)
    (again : others.Pairwise fun left right => orderMissingLast descending left right ≠ .gt) :
    cells = others := by
  refine perm.eq_of_pairwise (fun left right one other forth back => ?_) ordered again
  have member : right ∈ cells := perm.mem_iff.mpr other
  rw [← kindwiseMissingLast_eq descending unmixed one member] at forth
  rw [← kindwiseMissingLast_eq descending unmixed member one] at back
  have swapped : missingLast kindwiseOrder descending right left =
      (missingLast kindwiseOrder descending left right).swap := Std.OrientedCmp.eq_swap
  have equal : missingLast kindwiseOrder descending left right = .eq := by
    cases compared : missingLast kindwiseOrder descending left right <;> simp_all
  exact Std.LawfulEqCmp.eq_of_compare equal

end Cell

end Medals
