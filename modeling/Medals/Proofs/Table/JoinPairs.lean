import Mathlib.Data.Multiset.Bind
import Medals.Table.Join

/-!
# The pairs of a join

Both ways of finding pairs are compared with `Join.matchingPairs`, which looks at every right row
for every left row. `Join.partners_buildIndex` says what a probe of the index finds;
`Join.pairsByRight_eq` adds that putting the pairs of the right probe in place undoes its order,
because no two pairs of an inner join share their places.
-/

namespace Medals

namespace Join

/-- The rows have one key between them, and none of its parts is missing. -/
def agree (leftKeys rightKeys : List Nat) (left right : Row) : Bool :=
  (rowKey? leftKeys left).isSome && rowKey? leftKeys left == rowKey? rightKeys right

theorem agree_comm (leftKeys rightKeys : List Nat) (left right : Row) :
    agree leftKeys rightKeys left right = agree rightKeys leftKeys right left := by
  unfold agree
  by_cases same : rowKey? leftKeys left = rowKey? rightKeys right
  · rw [same]
  · rw [beq_false_of_ne same, beq_false_of_ne (Ne.symm same), Bool.and_false, Bool.and_false]

/-- What a key finds in an index after more rows have been filed is what it found before, then
the filed rows with this key in their order. -/
theorem getD_foldl_file (positions : List Nat) (key : List CellKey) (rows : List Placed)
    (index : Index) :
    ((rows.foldl (file positions) index).getD key #[]).toList =
      (index.getD key #[]).toList ++
        rows.filter fun row => rowKey? positions row.2 == some key := by
  induction rows generalizing index with
  | nil => simp
  | cons row rest ih =>
    rw [List.foldl_cons, ih]
    cases found : rowKey? positions row.2 with
    | none => simp [file, found]
    | some rowKey =>
      by_cases same : rowKey = key
      · subst same
        simp [file, found]
      · simp [file, found, Std.HashMap.getD_insert, same]

/-- A probe finds the indexed rows that agree with the probing row, in their order. -/
theorem partners_buildIndex (indexed probing : List Nat) (rows : List Row) (row : Row) :
    partners (buildIndex indexed rows) probing row =
      (placed rows).filter fun other => agree probing indexed row other.2 := by
  unfold partners buildIndex
  cases found : rowKey? probing row with
  | none => simp [agree, found]
  | some key =>
    simp only [getD_foldl_file, Std.HashMap.getD_empty, List.nil_append]
    apply List.filter_congr
    intro other _
    simp [agree, found, Bool.beq_comm]

/-- For every left row the right rows that agree with it. -/
def matchingPairs (leftKeys rightKeys : List Nat) (left right : List Row) : List Pair :=
  (placed left).flatMap fun row =>
    ((placed right).filter fun other => agree leftKeys rightKeys row.2 other.2).map fun other =>
      (row, some other)

theorem pairsByLeft_inner (leftKeys rightKeys : List Nat) (left right : List Row) :
    pairsByLeft .inner leftKeys rightKeys left right =
      matchingPairs leftKeys rightKeys left right := by
  unfold pairsByLeft matchingPairs
  refine congrArg (fun step => (placed left).flatMap step) (funext fun row => ?_)
  rw [partners_buildIndex]
  split
  · next unmatched => simp [unmatched]
  · rfl

section Order

/-- The place of a row tells the row. -/
theorem getElem?_of_mem_placed {rows : List Row} {row : Placed} (member : row ∈ placed rows) :
    rows[row.1]? = some row.2 := by
  obtain ⟨entry, listed, rfl⟩ := List.mem_map.mp member
  exact List.mem_zipIdx_iff_getElem?.mp listed

theorem placed_ext {rows : List Row} {first second : Placed} (one : first ∈ placed rows)
    (other : second ∈ placed rows) (same : first.1 = second.1) : first = second := by
  have firstRow := getElem?_of_mem_placed one
  have secondRow := getElem?_of_mem_placed other
  rw [same, secondRow, Option.some.injEq] at firstRow
  exact Prod.ext same firstRow.symm

theorem pairwise_placed (rows : List Row) :
    (placed rows).Pairwise fun first second => first.1 < second.1 := by
  have places : (placed rows).map Prod.fst = List.range rows.length := by
    simp [placed, Function.comp_def, List.range_eq_range']
  have ascending := List.pairwise_lt_range (n := rows.length)
  rwa [← places, List.pairwise_map] at ascending

theorem inPlace_trans (first second third : Pair) (one : inPlace first second)
    (other : inPlace second third) : inPlace first third := by
  obtain ⟨⟨firstPlace, _⟩, firstPartner⟩ := first
  obtain ⟨⟨secondPlace, _⟩, secondPartner⟩ := second
  obtain ⟨⟨thirdPlace, _⟩, thirdPartner⟩ := third
  cases firstPartner <;> cases secondPartner <;> cases thirdPartner <;>
    simp [inPlace] at one other ⊢ <;> omega

theorem inPlace_total (first second : Pair) : inPlace first second || inPlace second first := by
  obtain ⟨⟨firstPlace, _⟩, firstPartner⟩ := first
  obtain ⟨⟨secondPlace, _⟩, secondPartner⟩ := second
  cases firstPartner <;> cases secondPartner <;> simp [inPlace] <;> omega

theorem mem_matchingPairs {leftKeys rightKeys : List Nat} {left right : List Row} {pair : Pair}
    (member : pair ∈ matchingPairs leftKeys rightKeys left right) :
    ∃ row ∈ placed left, ∃ other ∈ placed right, pair = (row, some other) := by
  obtain ⟨row, rowPlaced, inner⟩ := List.mem_flatMap.mp member
  obtain ⟨other, found, rfl⟩ := List.mem_map.mp inner
  exact ⟨row, rowPlaced, other, List.mem_of_mem_filter found, rfl⟩

/-- Pairs that come neither before nor after one another are the same pair. -/
theorem inPlace_antisymm {leftKeys rightKeys : List Nat} {left right : List Row}
    {first second : Pair} (firstPair : first ∈ matchingPairs leftKeys rightKeys left right)
    (secondPair : second ∈ matchingPairs leftKeys rightKeys left right)
    (forth : inPlace first second) (back : inPlace second first) : first = second := by
  obtain ⟨row, rowPlaced, other, otherPlaced, rfl⟩ := mem_matchingPairs firstPair
  obtain ⟨row', rowPlaced', other', otherPlaced', rfl⟩ := mem_matchingPairs secondPair
  have places : row.1 = row'.1 ∧ other.1 = other'.1 := by
    simp [inPlace] at forth back
    omega
  rw [placed_ext rowPlaced rowPlaced' places.1, placed_ext otherPlaced otherPlaced' places.2]

theorem pairwise_matchingPairs (leftKeys rightKeys : List Nat) (left right : List Row) :
    (matchingPairs leftKeys rightKeys left right).Pairwise fun first second =>
      inPlace first second := by
  refine List.pairwise_flatMap.mpr ⟨fun row _ => ?_, ?_⟩
  · refine List.pairwise_map.mpr (((pairwise_placed right).filter _).imp fun before => ?_)
    simp [inPlace, Nat.le_of_lt before]
  · refine (pairwise_placed left).imp fun before => ?_
    rintro _ one _ other
    obtain ⟨_, _, rfl⟩ := List.mem_map.mp one
    obtain ⟨_, _, rfl⟩ := List.mem_map.mp other
    simp [inPlace, before]

end Order

/-- Two nested loops list the same elements whichever is the outer one. -/
theorem flatMap_comm_perm {α β γ : Type} (outer : List α) (inner : List β)
    (step : α → β → List γ) :
    (outer.flatMap fun one => inner.flatMap fun other => step one other).Perm
      (inner.flatMap fun other => outer.flatMap fun one => step one other) := by
  rw [← Multiset.coe_eq_coe]
  simpa only [Multiset.coe_bind] using
    Multiset.bind_bind (outer : Multiset α) (inner : Multiset β)
      (f := fun one other => (step one other : Multiset γ))

theorem map_filter_eq_flatMap {α β : Type} (rows : List α) (keep : α → Bool) (make : α → β) :
    (rows.filter keep).map make = rows.flatMap fun row => if keep row then [make row] else [] := by
  induction rows with
  | nil => rfl
  | cons row rest ih => cases kept : keep row <;> simp [kept, ih]

/-- Probing with the right rows finds the pairs of the nested loop, and sorting puts them into its
order. -/
theorem pairsByRight_eq (leftKeys rightKeys : List Nat) (left right : List Row) :
    pairsByRight leftKeys rightKeys left right = matchingPairs leftKeys rightKeys left right := by
  unfold pairsByRight
  simp only [partners_buildIndex]
  have sameElements :
      ((placed right).flatMap fun other =>
        ((placed left).filter fun row => agree rightKeys leftKeys other.2 row.2).map fun row =>
          ((row, some other) : Pair)).Perm (matchingPairs leftKeys rightKeys left right) := by
    simp only [matchingPairs, map_filter_eq_flatMap, agree_comm rightKeys leftKeys]
    exact flatMap_comm_perm _ _ _
  have sorted := (List.mergeSort_perm _ inPlace).trans sameElements
  refine List.Perm.eq_of_pairwise ?_ (List.pairwise_mergeSort inPlace_trans inPlace_total _)
    (pairwise_matchingPairs leftKeys rightKeys left right) sorted
  intro first second one other
  exact inPlace_antisymm (sorted.mem_iff.mp one) other

/-- The pairs of an inner join do not depend on the operand that is indexed. -/
theorem pairsByRight_eq_pairsByLeft (leftKeys rightKeys : List Nat) (left right : List Row) :
    pairsByRight leftKeys rightKeys left right =
      pairsByLeft .inner leftKeys rightKeys left right := by
  rw [pairsByRight_eq, pairsByLeft_inner]

end Join

end Medals
