import Medals.Proofs.Cell.Order
import Medals.Table.Group

/-!
# What a summary says about the cells of a group

`AggregateFunction.Summarises` says what the cell that ends an aggregation has to be, in terms of
all cells of a group and without accumulators. `Accumulator.summarises` is that every accumulator
which takes the cells one by one ends with such a cell.
-/

namespace Medals

namespace Cell

/-- The value of an integer cell. -/
def whole? : Cell → Option Int
  | integer value => some value.toInt
  | _ => none

/-- The cell is not missing, compares as wanted with all cells before it, and none after it compares
so with it. -/
def Leads (wanted : Ordering) (cells : List Cell) (best : Cell) : Prop :=
  ∃ before after, cells = before ++ best :: after ∧ best.isMissing = false ∧
    (∀ cell ∈ before, cell.isMissing = false → best.order cell = wanted) ∧
    ∀ cell ∈ after, cell.isMissing = false → cell.order best ≠ wanted

/-- The first of the best cells, or a missing cell if all of them are missing. -/
def LeadsIfAny (wanted : Ordering) (cells : List Cell) (best : Cell) : Prop :=
  (best = .missing ∧ ∀ cell ∈ cells, cell.isMissing = true) ∨ Leads wanted cells best

section Extremes

variable {order : Cell → Cell → Ordering} [Std.TransCmp order] {wanted : Ordering}

/-- A cell that replaces the best one leads. -/
theorem Leads.replace {cells : List Cell} {best cell : Cell} (leads : Leads wanted cells best)
    (same : ∀ one ∈ cells ++ [cell], ∀ other ∈ cells ++ [cell],
      one.order other = wanted ↔ order one other = .lt)
    (present : cell.isMissing = false) (ahead : cell.order best = wanted) :
    Leads wanted (cells ++ [cell]) cell := by
  obtain ⟨before, after, rfl, _, front, back⟩ := leads
  refine ⟨_, [], rfl, present, fun other member otherPresent => ?_, by simp⟩
  have last : cell ∈ before ++ best :: after ++ [cell] := by simp
  have listed : other ∈ before ++ best :: after ++ [cell] := List.mem_append_left _ member
  have bestListed : best ∈ before ++ best :: after ++ [cell] := by simp
  have first := (same cell last best bestListed).mp ahead
  rw [same cell last other listed]
  rcases List.mem_append.mp member with early | late
  · exact Std.TransCmp.lt_trans first
      ((same best bestListed other listed).mp (front other early otherPresent))
  · rcases List.mem_cons.mp late with rfl | later
    · exact first
    · have notAhead : order other best ≠ .lt := fun less =>
        back other later otherPresent ((same other listed best bestListed).mpr less)
      exact Std.TransCmp.lt_of_lt_of_isLE first (Ordering.ne_gt_iff_isLE.mp fun greater =>
        notAhead (Std.OrientedCmp.lt_of_gt greater))

theorem Leads.keep {cells : List Cell} {best cell : Cell} (leads : Leads wanted cells best)
    (behind : cell.isMissing = false → cell.order best ≠ wanted) :
    Leads wanted (cells ++ [cell]) best := by
  obtain ⟨before, after, rfl, present, front, back⟩ := leads
  refine ⟨before, after ++ [cell], by simp, present, front, fun other member => ?_⟩
  rcases List.mem_append.mp member with early | last
  · exact back other early
  · rw [List.mem_singleton.mp last]
    exact behind

end Extremes

end Cell

namespace AggregateFunction

/-- What the summary of a group's cells has to be. Extremes are told for cells on which the order
is transitive, and sums for integers whose running sums have 64 bits. -/
def Summarises (cells : List Cell) (summary : Cell) : AggregateFunction → Prop
  | count => summary = .integer (Int64.ofNat cells.length)
  | countPresent =>
    summary = .integer (Int64.ofNat (cells.countP fun cell => !cell.isMissing))
  | sum =>
    (∀ cell ∈ cells, cell.kind? ≠ some .number) →
    (∀ front, front <+: cells →
      Int64.minValue.toInt ≤ (front.filterMap Cell.whole?).sum ∧
        (front.filterMap Cell.whole?).sum ≤ Int64.maxValue.toInt) →
    ∃ total : Int64, summary = .integer total ∧ total.toInt = (cells.filterMap Cell.whole?).sum
  | least => (∀ cell ∈ cells, cell.Exact) → Cell.LeadsIfAny .lt cells summary
  | greatest => (∀ cell ∈ cells, cell.Exact) → Cell.LeadsIfAny .gt cells summary
  | average =>
    let numbers := cells.filterMap Cell.toDouble?
    (summary = .missing ↔ ∀ cell ∈ cells, cell.toDouble? = none) ∧
    (numbers ≠ [] → summary =
      .number (numbers.foldl (· + ·) (Double.zero false) / Double.ofInt numbers.length))

end AggregateFunction

namespace Accumulator

theorem foldl_count (cells : List Cell) (rows : Nat) :
    cells.foldl update (count rows) = count (rows + cells.length) := by
  induction cells generalizing rows with
  | nil => rfl
  | cons cell rest ih =>
    rw [List.foldl_cons, update, ih, List.length_cons]
    congr 1
    omega

theorem foldl_countPresent (cells : List Cell) (rows : Nat) :
    cells.foldl update (countPresent rows) =
      countPresent (rows + cells.countP fun cell => !cell.isMissing) := by
  induction cells generalizing rows with
  | nil => rfl
  | cons cell rest ih =>
    rw [List.foldl_cons, update, ih, List.countP_cons]
    congr 1
    cases cell.isMissing
    · simp
      omega
    · simp

theorem foldl_average (cells : List Cell) (total : Double) (numbers : Nat) :
    cells.foldl update (average total numbers) =
      average ((cells.filterMap Cell.toDouble?).foldl (· + ·) total)
        (numbers + (cells.filterMap Cell.toDouble?).length) := by
  induction cells generalizing total numbers with
  | nil => rfl
  | cons cell rest ih =>
    rw [List.foldl_cons, update, List.filterMap_cons]
    cases cell.toDouble? with
    | none => exact ih total numbers
    | some value =>
      rw [ih, List.foldl_cons, List.length_cons]
      congr 1
      omega

/-- As long as running sums fit, an exact sum stays exact. -/
theorem foldl_exactSum {cells : List Cell} {total : Int64}
    (whole : ∀ cell ∈ cells, cell.kind? ≠ some .number)
    (fits : ∀ front, front <+: cells →
      Int64.minValue.toInt ≤ total.toInt + (front.filterMap Cell.whole?).sum ∧
        total.toInt + (front.filterMap Cell.whole?).sum ≤ Int64.maxValue.toInt) :
    ∃ total', cells.foldl update (exactSum total) = exactSum total' ∧
      total'.toInt = total.toInt + (cells.filterMap Cell.whole?).sum := by
  induction cells generalizing total with
  | nil => exact ⟨total, rfl, by simp⟩
  | cons cell rest ih =>
    have wholeRest : ∀ cell ∈ rest, cell.kind? ≠ some .number := fun other later =>
      whole other (List.mem_cons_of_mem cell later)
    cases cell with
    | integer value =>
      have first := fits [.integer value] (List.prefix_append _ _)
      simp only [List.filterMap_cons, Cell.whole?, List.filterMap_nil, List.sum_singleton] at first
      have exact : (Int64.ofInt (total.toInt + value.toInt)).toInt = total.toInt + value.toInt :=
        Int64.toInt_ofInt_of_le first.1 (Int.lt_of_le_sub_one first.2)
      obtain ⟨total', folded, same⟩ := @ih (Int64.ofInt (total.toInt + value.toInt)) wholeRest
        fun front short => by
          have longer := fits (.integer value :: front)
            ((List.prefix_cons_inj _).mpr short)
          simp only [List.filterMap_cons, Cell.whole?, List.sum_cons] at longer
          rw [exact]
          omega
      refine ⟨total', ?_, ?_⟩
      · rw [List.foldl_cons, update, addIntegers, if_pos first, folded]
      · rw [same, exact, List.filterMap_cons, Cell.whole?, List.sum_cons, Int.add_assoc]
    | number value => exact absurd rfl (whole _ List.mem_cons_self)
    | missing =>
      apply ih wholeRest
      intro front short
      exact fits (.missing :: front) ((List.prefix_cons_inj _).mpr short)
    | text value =>
      apply ih wholeRest
      intro front short
      exact fits (.text value :: front) ((List.prefix_cons_inj _).mpr short)

theorem foldl_least (cells : List Cell) (best? : Option Cell) :
    cells.foldl update (least best?) = least (cells.foldl (better .lt) best?) :=
  List.foldl_hom least fun _ _ => rfl

theorem foldl_greatest (cells : List Cell) (best? : Option Cell) :
    cells.foldl update (greatest best?) = greatest (cells.foldl (better .gt) best?) :=
  List.foldl_hom greatest fun _ _ => rfl

section Extremes

variable (order : Cell → Cell → Ordering) [Std.TransCmp order] {wanted : Ordering}

/-- The cell that is left after all cells leads them. -/
theorem foldl_better {cells : List Cell}
    (same : ∀ one ∈ cells, ∀ other ∈ cells, one.order other = wanted ↔ order one other = .lt) :
    (cells.foldl (better wanted) none = none ∧ ∀ cell ∈ cells, cell.isMissing = true) ∨
      ∃ best, cells.foldl (better wanted) none = some best ∧ Cell.Leads wanted cells best := by
  induction cells using List.reverseRecOn with
  | nil => exact .inl ⟨rfl, by simp⟩
  | append_singleton cells cell ih =>
    have earlier := ih fun one oneListed other otherListed =>
      same one (List.mem_append_left _ oneListed) other (List.mem_append_left _ otherListed)
    rw [List.foldl_concat]
    cases present : cell.isMissing with
    | true =>
      rcases earlier with ⟨folded, missing⟩ | ⟨best, folded, leads⟩
      · refine .inl ⟨by simp [better, present, folded], fun other member => ?_⟩
        rcases List.mem_append.mp member with early | last
        · exact missing other early
        · rw [List.mem_singleton.mp last, present]
      · exact .inr ⟨best, by simp [better, present, folded], leads.keep (by simp [present])⟩
    | false =>
      rcases earlier with ⟨folded, missing⟩ | ⟨best, folded, leads⟩
      · refine .inr ⟨cell, by simp [better, present, folded], cells, [], rfl, present, ?_, by simp⟩
        intro other early otherPresent
        simp [missing other early] at otherPresent
      · by_cases ahead : cell.order best = wanted
        · exact .inr ⟨cell, by simp [better, present, folded, ahead],
            leads.replace same present ahead⟩
        · exact .inr ⟨best, by simp [better, present, folded, ahead], leads.keep fun _ => ahead⟩

theorem leadsIfAny_foldl_better {cells : List Cell}
    (same : ∀ one ∈ cells, ∀ other ∈ cells, one.order other = wanted ↔ order one other = .lt) :
    Cell.LeadsIfAny wanted cells ((cells.foldl (better wanted) none).getD .missing) := by
  rcases foldl_better order same with ⟨folded, missing⟩ | ⟨best, folded, leads⟩
  · rw [folded]
    exact .inl ⟨rfl, missing⟩
  · rw [folded]
    exact .inr leads

end Extremes

/-- Whatever cells an accumulator takes, it ends with a summary of them. -/
theorem summarises (function : AggregateFunction) (cells : List Cell) :
    function.Summarises cells (cells.foldl update (start function)).result := by
  cases function with
  | count =>
    rw [start, foldl_count, Nat.zero_add]
    rfl
  | countPresent =>
    rw [start, foldl_countPresent, Nat.zero_add]
    rfl
  | sum =>
    intro whole fits
    obtain ⟨total, folded, same⟩ := @foldl_exactSum cells 0 whole (by simpa using fits)
    refine ⟨total, ?_, by simpa using same⟩
    rw [start, folded]
    rfl
  | least =>
    intro exact
    rw [start, foldl_least]
    apply leadsIfAny_foldl_better Cell.roundedOrder
    intro one oneListed other otherListed
    rw [Cell.roundedOrder_eq (exact one oneListed) (exact other otherListed)]
  | greatest =>
    intro exact
    rw [start, foldl_greatest]
    apply leadsIfAny_foldl_better fun one other => Cell.roundedOrder other one
    intro one oneListed other otherListed
    rw [← Cell.roundedOrder_eq (exact one oneListed) (exact other otherListed)]
    exact Std.OrientedCmp.gt_iff_lt
  | average =>
    rw [start, foldl_average, Nat.zero_add, result]
    have noNumbers : (cells.filterMap Cell.toDouble?).length = 0 ↔
        ∀ cell ∈ cells, cell.toDouble? = none := by
      rw [List.length_eq_zero_iff, List.filterMap_eq_nil_iff]
    constructor
    · rw [← noNumbers]
      split <;> simp_all
    · intro someNumbers
      rw [if_neg (by simpa [List.length_eq_zero_iff] using someNumbers)]

end Accumulator

end Medals
