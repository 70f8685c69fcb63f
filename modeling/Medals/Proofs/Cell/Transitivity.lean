import Medals.Proofs.Cell.Order
import Medals.Proofs.Number.Comparison

/-!
# Where the order of cells is not transitive

Beyond `2 ^ 53` two integers can be rounded to one double, which then compares equal with both of
them. `Cell.order_transitive_unless_straddled` says that the order of cells is a total preorder but
for such a double between two integers, and that putting missing cells last makes no difference to
that in either direction.
-/

namespace Medals

/-- The outer elements are in the wrong order, though neighbours are in order. -/
def Breaks {α : Type} (compare : α → α → Ordering) (first middle last : α) : Prop :=
  compare first middle ≠ .gt ∧ compare middle last ≠ .gt ∧ compare first last = .gt

namespace Cell

/-- Two integers, the greater one first, with the double between them that both are rounded to. -/
def Straddled (first middle last : Cell) : Prop :=
  ∃ one other : Int64, first = integer one ∧ last = integer other ∧ other.toInt < one.toInt ∧
    middle = number (Double.ofInt one.toInt) ∧ middle = number (Double.ofInt other.toInt)

theorem order_self (cell : Cell) : order cell cell = .eq := by
  cases cell <;> simp [order, Double.compareTotal]

theorem order_swap (left right : Cell) : order right left = (order left right).swap := by
  cases left <;> cases right <;> first | rfl | exact Std.OrientedOrd.eq_swap

/-- Rounding integers can make them equal, but reverses none. -/
theorem roundedOrder_ne_gt {left right : Cell} (inOrder : order left right ≠ .gt) :
    roundedOrder left right ≠ .gt := by
  cases left with
  | integer one =>
    cases right with
    | integer other =>
      have atMost : one.toInt ≤ other.toInt := Int.compare_ne_gt.mp inOrder
      exact Int.compare_ne_gt.mpr (Double.rank_ofInt_le atMost)
    | missing | number | text => exact inOrder
  | missing | number | text => cases right <;> exact inOrder

/-- Only integers are compared otherwise when they have been rounded. -/
theorem integers_of_roundedOrder_ne {left right : Cell}
    (differ : roundedOrder left right ≠ order left right) :
    ∃ one other, left = integer one ∧ right = integer other := by
  cases left <;> cases right <;> first | exact ⟨_, _, rfl, rfl⟩ | exact absurd rfl differ

theorem breaks_order_iff {first middle last : Cell} :
    Breaks order first middle last ↔ Straddled first middle last := by
  constructor
  · rintro ⟨front, back, outer⟩
    have rounded : roundedOrder first last ≠ .gt :=
      Ordering.ne_gt_iff_isLE.mpr (Std.TransCmp.isLE_trans
        (Ordering.ne_gt_iff_isLE.mp (roundedOrder_ne_gt front))
        (Ordering.ne_gt_iff_isLE.mp (roundedOrder_ne_gt back)))
    obtain ⟨one, other, rfl, rfl⟩ := integers_of_roundedOrder_ne
      (show roundedOrder first last ≠ order first last by rwa [outer])
    have less : other.toInt < one.toInt := Int.compare_eq_gt.mp outer
    have upper := Double.rank_ofInt_le (Int.le_of_lt less)
    cases middle with
    | missing => exact absurd rfl back
    | text => exact absurd rfl back
    | integer between =>
      -- Three integers are compared exactly.
      have low : one.toInt ≤ between.toInt := Int.compare_ne_gt.mp front
      have high : between.toInt ≤ other.toInt := Int.compare_ne_gt.mp back
      omega
    | number between =>
      have low : (Double.ofInt one.toInt).rank ≤ between.rank := Int.compare_ne_gt.mp front
      have high : between.rank ≤ (Double.ofInt other.toInt).rank := Int.compare_ne_gt.mp back
      refine ⟨one, other, rfl, rfl, less, ?_, ?_⟩
      · rw [Double.rank_injective (show between.rank = (Double.ofInt one.toInt).rank by omega)]
      · rw [Double.rank_injective (show between.rank = (Double.ofInt other.toInt).rank by omega)]
  · rintro ⟨one, other, rfl, rfl, less, rfl, same⟩
    refine ⟨?_, ?_, Int.compare_eq_gt.mpr less⟩
    · simp [order, Double.compareTotal]
    · rw [same]
      simp [order, Double.compareTotal]

theorem orderMissingLast_self (descending : Bool) (cell : Cell) :
    orderMissingLast descending cell cell = .eq := by
  unfold orderMissingLast
  cases cell.isMissing <;> cases descending <;> simp [order_self]

theorem orderMissingLast_swap (descending : Bool) (left right : Cell) :
    orderMissingLast descending right left = (orderMissingLast descending left right).swap := by
  unfold orderMissingLast
  cases left.isMissing <;> cases right.isMissing <;> cases descending <;>
    simp [order_swap left right]

theorem isMissing_of_straddled {first middle last : Cell}
    (straddled : Straddled first middle last) :
    first.isMissing = false ∧ middle.isMissing = false ∧ last.isMissing = false := by
  obtain ⟨one, other, rfl, rfl, -, rfl, -⟩ := straddled
  exact ⟨rfl, rfl, rfl⟩

/-- Missing cells are never part of a break, and the other direction reverses the straddled cells. -/
theorem breaks_orderMissingLast_iff {descending : Bool} {first middle last : Cell} :
    Breaks (orderMissingLast descending) first middle last ↔
      if descending then Straddled last middle first else Straddled first middle last := by
  by_cases present : first.isMissing = false ∧ middle.isMissing = false ∧ last.isMissing = false
  · obtain ⟨one, two, three⟩ := present
    cases descending with
    | false =>
      simp [← breaks_order_iff, Breaks, orderMissingLast, one, two, three]
    | true =>
      simp only [← breaks_order_iff, Breaks, orderMissingLast, one, two, three, if_true,
        ← order_swap]
      exact and_left_comm
  · have noBreak : ¬ Breaks (orderMissingLast descending) first middle last := by
      unfold Breaks orderMissingLast
      cases one : first.isMissing <;> cases two : middle.isMissing <;>
        cases three : last.isMissing <;> simp_all
    refine iff_of_false noBreak fun straddled => present ?_
    cases descending with
    | false => exact isMissing_of_straddled straddled
    | true =>
      obtain ⟨one, two, three⟩ := isMissing_of_straddled straddled
      exact ⟨three, two, one⟩

/-- The order of cells compares every cell as equal with itself and is reversed when the cells
change places. It is transitive except around a double between two integers that both are rounded
to it, of which one lies beyond `2 ^ 53`. With missing cells last the same holds in both
directions. -/
theorem order_transitive_unless_straddled (first middle last : Cell) :
    order first first = .eq ∧ order middle first = (order first middle).swap ∧
      (Breaks order first middle last ↔ Straddled first middle last) ∧
      (Straddled first middle last → ¬ (first.Exact ∧ last.Exact)) ∧
      ∀ descending,
        orderMissingLast descending first first = .eq ∧
          orderMissingLast descending middle first =
            (orderMissingLast descending first middle).swap ∧
          (Breaks (orderMissingLast descending) first middle last ↔
            if descending then Straddled last middle first else Straddled first middle last) := by
  refine ⟨order_self first, order_swap first middle, breaks_order_iff, ?_, fun descending =>
    ⟨orderMissingLast_self descending first, orderMissingLast_swap descending first middle,
      breaks_orderMissingLast_iff⟩⟩
  rintro ⟨one, other, rfl, rfl, less, rfl, same⟩ ⟨oneExact, otherExact⟩
  have ranks := Double.rank_ofInt_lt less otherExact oneExact
  rw [number.inj same] at ranks
  exact Int.lt_irrefl _ ranks

/-- The double next to an odd integer beyond `2 ^ 53` compares equal with both its neighbours. -/
theorem order_not_transitive :
    ¬ ∀ first middle last : Cell, order first middle ≠ .gt → order middle last ≠ .gt →
      order first last ≠ .gt := by
  intro transitive
  exact transitive (.integer 9007199254740993) (.number ⟨0x4340000000000000⟩)
    (.integer 9007199254740992) (by decide +kernel) (by decide +kernel) (by decide +kernel)

end Cell

end Medals
