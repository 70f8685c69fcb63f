import Medals.Proofs.Stream.Grouping
import Medals.Proofs.Table.Conditions
import Medals.Proofs.Table.Refusals

/-!
# Sums and the order of rows

A sum of integers stays an integer as long as the cells met so far have a sum of 64 bits, and is a
double from the first row on where they have not (`Accumulator.result_of_integers`). Where that is
depends on the order of the rows. `Table.sums_exactly_iff` says that a group is summed exactly in
every order if and only if its positive cells and its negative cells each have a sum of 64 bits.
-/

namespace Medals

/-- The integer has 64 bits. -/
def FitsInt64 (total : Int) : Prop :=
  Int64.minValue.toInt ≤ total ∧ total ≤ Int64.maxValue.toInt

instance (total : Int) : Decidable (FitsInt64 total) :=
  inferInstanceAs (Decidable (_ ∧ _))

theorem fitsInt64_toInt (total : Int64) : FitsInt64 total.toInt :=
  ⟨Int64.minValue_le_toInt total, Int64.toInt_le total⟩

namespace Cell

/-- The sum of the integers among some cells. -/
def wholeSum (cells : List Cell) : Int :=
  (cells.filterMap whole?).sum

/-- The cell holds the sum of the integers among some cells, as an integer. -/
def IsSumOf (summary : Cell) (cells : List Cell) : Prop :=
  ∃ total : Int64, summary = .integer total ∧ total.toInt = wholeSum cells

def isPositive (cell : Cell) : Bool :=
  decide (0 < cell.whole?.getD 0)

def isNegative (cell : Cell) : Bool :=
  decide (cell.whole?.getD 0 < 0)

/-- At every cell the integers met so far have a sum of 64 bits. -/
def RunsExactly (cells : List Cell) : Prop :=
  ∀ front, front <+: cells → FitsInt64 (wholeSum front)

instance (cells : List Cell) : Decidable (RunsExactly cells) :=
  decidable_of_iff (∀ front ∈ cells.inits, FitsInt64 (wholeSum front)) (by simp [RunsExactly])

variable {cells other front : List Cell}

theorem wholeSum_cons (cell : Cell) (cells : List Cell) :
    wholeSum (cell :: cells) = cell.whole?.getD 0 + wholeSum cells := by
  unfold wholeSum
  cases whole : cell.whole? <;> simp [whole]

theorem wholeSum_perm (perm : other.Perm cells) : wholeSum other = wholeSum cells :=
  (perm.filterMap whole?).sum_eq

theorem wholeSum_filter_cons (cell : Cell) (cells : List Cell) :
    wholeSum ((cell :: cells).filter isPositive) =
        max (cell.whole?.getD 0) 0 + wholeSum (cells.filter isPositive) ∧
      wholeSum ((cell :: cells).filter isNegative) =
        min (cell.whole?.getD 0) 0 + wholeSum (cells.filter isNegative) := by
  simp only [List.filter_cons, isPositive, isNegative, decide_eq_true_eq]
  have more := wholeSum_cons cell
  constructor
  · split
    · rw [more]
      omega
    · omega
  · split
    · rw [more]
      omega
    · omega

/-- Some of the cells have a sum between that of the negative and that of the positive cells. -/
theorem wholeSum_of_sublist (part : front.Sublist cells) :
    wholeSum (cells.filter isNegative) ≤ wholeSum front ∧
      wholeSum front ≤ wholeSum (cells.filter isPositive) := by
  induction part with
  | slnil => exact ⟨Int.le_refl _, Int.le_refl _⟩
  | @cons _ rest cell _ ih =>
    obtain ⟨positive, negative⟩ := wholeSum_filter_cons cell rest
    omega
  | @cons_cons _ rest cell _ ih =>
    obtain ⟨positive, negative⟩ := wholeSum_filter_cons cell rest
    have first := wholeSum_cons cell
    simp only [first]
    omega

/-- Cells are summed exactly in every order if the positive and the negative ones are. -/
theorem runsExactly_of_fits (negative : FitsInt64 (wholeSum (cells.filter isNegative)))
    (positive : FitsInt64 (wholeSum (cells.filter isPositive))) (perm : other.Perm cells) :
    RunsExactly other := by
  intro front short
  obtain ⟨low, high⟩ := wholeSum_of_sublist short.sublist
  rw [wholeSum_perm (perm.filter _)] at low high
  exact ⟨negative.1.trans low, high.trans positive.2⟩

theorem IntegerOrMissing.kind?_ne {cell : Cell} (whole : cell.IntegerOrMissing) :
    cell.kind? ≠ some .number := by
  rcases whole with rfl | ⟨value, rfl⟩ <;> simp [kind?]

end Cell

namespace Accumulator

/-- A sum that is a double stays one. -/
theorem foldl_roundedSum (cells : List Cell) (total : Double) :
    ∃ total', cells.foldl update (roundedSum total) = roundedSum total' := by
  induction cells generalizing total with
  | nil => exact ⟨total, rfl⟩
  | cons cell rest ih =>
    obtain ⟨next, stays⟩ : ∃ next, update (roundedSum total) cell = roundedSum next := by
      cases cell <;> exact ⟨_, rfl⟩
    rw [List.foldl_cons, stays]
    exact ih next

/-- A running sum that does not fit makes the sum a double. -/
theorem foldl_exactSum_of_overflow {cells front : List Cell} {total : Int64}
    (whole : ∀ cell ∈ cells, cell.IntegerOrMissing) (short : front <+: cells)
    (overflows : ¬ FitsInt64 (total.toInt + Cell.wholeSum front)) :
    ∃ rounded, cells.foldl update (exactSum total) = roundedSum rounded := by
  induction cells generalizing total front with
  | nil =>
    rw [List.prefix_nil.mp short] at overflows
    exact absurd (by simpa [Cell.wholeSum] using fitsInt64_toInt total) overflows
  | cons cell rest ih =>
    obtain ⟨here, wholeRest⟩ := List.forall_mem_cons.mp whole
    rcases List.prefix_cons_iff.mp short with rfl | ⟨front, rfl, shorter⟩
    · -- What is held so far fits, so that the overflow comes after some cell.
      exact absurd (by simpa [Cell.wholeSum] using fitsInt64_toInt total) overflows
    · rw [Cell.wholeSum_cons] at overflows
      rw [List.foldl_cons]
      rcases here with rfl | ⟨value, rfl⟩
      · exact ih wholeRest shorter (by simpa [Cell.whole?] using overflows)
      · rw [update, addIntegers]
        split
        · next fits =>
          have exact : (Int64.ofInt (total.toInt + value.toInt)).toInt =
              total.toInt + value.toInt :=
            Int64.toInt_ofInt_of_le fits.1 (Int.lt_of_le_sub_one fits.2)
          refine ih wholeRest shorter ?_
          rwa [exact, Int.add_assoc]
        · exact foldl_roundedSum rest _

/-- Integers are summed to their exact sum if the running sums fit, and to a double otherwise. -/
theorem result_of_integers {cells : List Cell} (whole : ∀ cell ∈ cells, cell.IntegerOrMissing) :
    (Cell.RunsExactly cells → ((cells.foldl update (start .sum)).result).IsSumOf cells) ∧
      (¬ Cell.RunsExactly cells →
        ∃ total, (cells.foldl update (start .sum)).result = .number total) := by
  constructor
  · intro fits
    obtain ⟨total, folded, same⟩ := @foldl_exactSum cells 0 (fun cell member =>
      (whole cell member).kind?_ne) (by simpa [Cell.RunsExactly, FitsInt64, Cell.wholeSum] using fits)
    refine ⟨total, ?_, by simpa [Cell.wholeSum] using same⟩
    rw [start, folded, result]
  · intro beyond
    obtain ⟨front, short, overflows⟩ :
        ∃ front, front <+: cells ∧ ¬ FitsInt64 (Cell.wholeSum front) := by
      simpa [Cell.RunsExactly] using beyond
    obtain ⟨rounded, folded⟩ :=
      @foldl_exactSum_of_overflow cells front 0 whole short (by simpa using overflows)
    exact ⟨rounded, by rw [start, folded, result]⟩

/-- The exact sum is the result exactly if the running sums fit. -/
theorem result_isSumOf_iff {cells : List Cell} (whole : ∀ cell ∈ cells, cell.IntegerOrMissing) :
    ((cells.foldl update (start .sum)).result).IsSumOf cells ↔ Cell.RunsExactly cells := by
  obtain ⟨fits, overflows⟩ := result_of_integers whole
  refine ⟨fun ⟨total, held, _⟩ => ?_, fits⟩
  by_contra beyond
  obtain ⟨rounded, other⟩ := overflows beyond
  simp [other] at held

end Accumulator

namespace Grouping

/-- The cells that an aggregation takes from the rows of a key. -/
def cellsTaken (grouping : Grouping) (aggregation : Aggregation) (rows : List Row)
    (key : List CellKey) : List Cell :=
  (grouping.groupOf rows key).map aggregation.cellOf

variable {grouping : Grouping} {group rows : List Row} {row : Row}

/-- The cells for a group, read by the names of the result. -/
theorem under_of_cells (distinct : grouping.outputNames.Nodup)
    (names : row.names = grouping.outputNames) (cells : row.cells = grouping.cellsFor group) :
    grouping.keys.map row.under = grouping.keys.map (group.headD default).under ∧
      ∀ aggregation ∈ grouping.aggregations, row.under aggregation.label =
        ((group.map aggregation.cellOf).foldl Accumulator.update
          (.start aggregation.function)).result := by
  have listed := Row.map_under_names (names ▸ distinct)
  rw [names, outputNames, List.map_append, cells, cellsFor, List.map_map] at listed
  obtain ⟨keys, summaries⟩ := List.append_inj listed (by simp)
  exact ⟨keys, List.map_inj_left.mp summaries⟩

/-- The rows of a key, and among them the first, have this key. -/
theorem keyOf_headD {key : List CellKey} (listed : key ∈ grouping.keysOf rows) :
    grouping.keyOf ((grouping.groupOf rows key).headD default) = key := by
  obtain ⟨first, rest, found⟩ := List.exists_cons_of_ne_nil (ofKey_ne_nil listed)
  have member : first ∈ grouping.groupOf rows key := by
    rw [groupOf, found]
    exact List.mem_cons_self
  rw [groupOf, found]
  exact (mem_ofKey.mp member).2

end Grouping

namespace Table

variable {source other result : Table} {grouping : Grouping} {aggregation : Aggregation}
  {key : List CellKey}

/-- The result of a grouping has one row for each key, with the summaries of its rows. -/
theorem row_of_groupBy (grouped : source.groupBy grouping = .ok result)
    (listed : key ∈ grouping.keysOf source.rows) :
    ∃ row, (∀ one, one ∈ result.rows ∧ grouping.keyOf one = key ↔ one = row) ∧
      ∀ aggregation ∈ grouping.aggregations, row.under aggregation.label =
        ((grouping.cellsTaken aggregation source.rows key).foldl Accumulator.update
          (.start aggregation.function)).result := by
  obtain ⟨groups, accepted⟩ := bind_of_groupBy grouped
  obtain ⟨made, same, names, cells⟩ := Groups.cells_of_foldl_add accepted source.aligned
  rw [groupBy_of_bind accepted, same] at grouped
  obtain rfl := Except.ok.inj grouped
  have distinct := Groups.nodup_of_bind accepted
  have keyed : ∀ row ∈ made.rows, ∀ key ∈ grouping.keysOf source.rows,
      row.cells = grouping.cellsFor (grouping.groupOf source.rows key) →
        grouping.keyOf row = key := fun row member key listed held => by
    obtain ⟨under, -⟩ := Grouping.under_of_cells distinct
      ((made.aligned row member).trans names) held
    have keys := congrArg (List.map Cell.key) under
    rw [List.map_map, List.map_map] at keys
    exact keys.trans (Grouping.keyOf_headD listed)
  have cellsOf : ∀ row ∈ made.rows, ∃ key ∈ grouping.keysOf source.rows,
      row.cells = grouping.cellsFor (grouping.groupOf source.rows key) := fun row member => by
    obtain ⟨key, listed, held⟩ := List.mem_map.mp (cells ▸ List.mem_map_of_mem member)
    exact ⟨key, listed, held.symm⟩
  obtain ⟨row, member, held⟩ : ∃ row ∈ made.rows,
      row.cells = grouping.cellsFor (grouping.groupOf source.rows key) :=
    List.mem_map.mp (cells ▸ List.mem_map_of_mem listed)
  refine ⟨row, fun one => ⟨fun ⟨oneMember, oneKey⟩ => ?_, ?_⟩,
    (Grouping.under_of_cells distinct ((made.aligned row member).trans names) held).2⟩
  · obtain ⟨oneOf, oneListed, oneHeld⟩ := cellsOf one oneMember
    obtain rfl : oneOf = key := (keyed one oneMember oneOf oneListed oneHeld).symm.trans oneKey
    exact Row.ext_cells ((made.aligned one oneMember).trans (made.aligned row member).symm)
      (oneHeld.trans held.symm)
  · rintro rfl
    exact ⟨member, keyed one member key listed held⟩

/-- Grouping the table yields the exact sum for the group of a key. -/
def SumsExactly (table : Table) (grouping : Grouping) (aggregation : Aggregation)
    (key : List CellKey) : Prop :=
  ∃ result row, table.groupBy grouping = .ok result ∧ row ∈ result.rows ∧
    grouping.keyOf row = key ∧
    (row.under aggregation.label).IsSumOf (grouping.cellsTaken aggregation table.rows key)

/-- In the order of its rows a group is summed exactly if the running sums fit. -/
theorem sumsExactly_iff (grouped : source.groupBy grouping = .ok result)
    (sums : aggregation.function = .sum) (listed : aggregation ∈ grouping.aggregations)
    (keyed : key ∈ grouping.keysOf source.rows)
    (whole : ∀ cell ∈ grouping.cellsTaken aggregation source.rows key, cell.IntegerOrMissing) :
    source.SumsExactly grouping aggregation key ↔
      Cell.RunsExactly (grouping.cellsTaken aggregation source.rows key) := by
  obtain ⟨row, only, summaries⟩ := row_of_groupBy grouped keyed
  rw [← Accumulator.result_isSumOf_iff whole, ← sums, ← summaries aggregation listed]
  constructor
  · rintro ⟨again, one, same, member, oneKey, exact⟩
    obtain rfl := Except.ok.inj (same.symm.trans grouped)
    obtain rfl := (only one).mp ⟨member, oneKey⟩
    exact exact
  · intro exact
    obtain ⟨member, rowKey⟩ := (only row).mpr rfl
    exact ⟨result, row, grouped, member, rowKey, exact⟩

/-- The rows of another order make a table that is grouped as well, and its groups have the same
cells in another order. -/
theorem sumsExactly_of_perm (grouped : source.groupBy grouping = .ok result)
    (sums : aggregation.function = .sum) (listed : aggregation ∈ grouping.aggregations)
    (keyed : key ∈ grouping.keysOf source.rows)
    (whole : ∀ cell ∈ grouping.cellsTaken aggregation source.rows key, cell.IntegerOrMissing)
    (names : other.names = source.names) (perm : other.rows.Perm source.rows) :
    (other.SumsExactly grouping aggregation key ↔
        Cell.RunsExactly (grouping.cellsTaken aggregation other.rows key)) ∧
      (grouping.cellsTaken aggregation other.rows key).Perm
        (grouping.cellsTaken aggregation source.rows key) := by
  have cellsPerm : (grouping.cellsTaken aggregation other.rows key).Perm
      (grouping.cellsTaken aggregation source.rows key) := (perm.filter _).map _
  obtain ⟨groups, accepted⟩ := bind_of_groupBy grouped
  obtain ⟨made, again, -⟩ := Groups.cells_of_foldl_add accepted fun row member =>
    (other.aligned row member).trans names
  obtain ⟨row, member, same⟩ := mem_distinctKeys.mp keyed
  exact ⟨sumsExactly_iff ((groupBy_of_bind (names ▸ accepted)).trans again) sums listed
    (mem_distinctKeys.mpr ⟨row, perm.mem_iff.mpr member, same⟩)
    fun cell taken => whole cell (cellsPerm.mem_iff.mp taken), cellsPerm⟩

/-- Rows whose summarised cell passes a test can be put before the others. -/
theorem exists_reordered (source : Table) (aggregation : Aggregation) (wanted : Cell → Bool) :
    ∃ other : Table, other.names = source.names ∧ other.rows.Perm source.rows ∧
      ∀ (grouping : Grouping) (key : List CellKey),
        (grouping.cellsTaken aggregation source.rows key).filter wanted <+:
          grouping.cellsTaken aggregation other.rows key := by
  have perm := List.filter_append_perm (fun row => wanted (aggregation.cellOf row)) source.rows
  refine ⟨⟨source.schema, _, fun row member => source.aligned row (perm.mem_iff.mp member)⟩, rfl,
    perm, fun grouping key => ?_⟩
  have front : (grouping.cellsTaken aggregation source.rows key).filter wanted =
      grouping.cellsTaken aggregation
        (source.rows.filter fun row => wanted (aggregation.cellOf row)) key := by
    simp only [Grouping.cellsTaken, Grouping.groupOf, ofKey, List.filter_map, List.filter_filter,
      Function.comp_apply, Bool.and_comm]
  rw [front]
  simp only [Grouping.cellsTaken, Grouping.groupOf, ofKey, List.filter_append, List.map_append]
  exact List.prefix_append _ _

/-- In the result of a grouping there is one row for each key. If the cells that are summed for a key
are integers or missing, their sum is exact and an integer if the running sums, in the order of the
rows, have 64 bits, and a double otherwise. It is exact in every order of the rows if and only if the
positive cells and the negative cells each have a sum of 64 bits. A source without faults is summed
as the table of its rows. -/
theorem sums_exactly_iff (grouped : source.groupBy grouping = .ok result)
    (sums : aggregation.function = .sum) (listed : aggregation ∈ grouping.aggregations) :
    (∀ key ∈ grouping.keysOf source.rows, ∀ cells,
      grouping.cellsTaken aggregation source.rows key = cells →
      (∀ cell ∈ cells, cell.IntegerOrMissing) →
        (∃ row, (∀ one, one ∈ result.rows ∧ grouping.keyOf one = key ↔ one = row) ∧
          (Cell.RunsExactly cells → (row.under aggregation.label).IsSumOf cells) ∧
          (¬ Cell.RunsExactly cells → ∃ total, row.under aggregation.label = .number total)) ∧
        ((∀ other : Table, other.names = source.names → other.rows.Perm source.rows →
            other.SumsExactly grouping aggregation key) ↔
          FitsInt64 (Cell.wholeSum (cells.filter Cell.isNegative)) ∧
            FitsInt64 (Cell.wholeSum (cells.filter Cell.isPositive)))) ∧
    ∀ pipeline : Pipeline, pipeline.names = source.names →
      pipeline.collect.1 = .ok source.rows → (pipeline.groupBy grouping).1 = .ok result := by
  constructor
  · rintro key keyed cells rfl whole
    constructor
    · obtain ⟨row, only, summaries⟩ := row_of_groupBy grouped keyed
      refine ⟨row, only, ?_⟩
      rw [summaries aggregation listed, sums]
      exact Accumulator.result_of_integers whole
    · constructor
      · intro always
        -- With the wanted cells in front their sum is one of the running sums.
        have fits : ∀ wanted, FitsInt64 (Cell.wholeSum
            ((grouping.cellsTaken aggregation source.rows key).filter wanted)) := fun wanted => by
          obtain ⟨other, names, perm, front⟩ := source.exists_reordered aggregation wanted
          obtain ⟨exact, -⟩ := sumsExactly_of_perm grouped sums listed keyed whole names perm
          exact exact.mp (always other names perm) _ (front grouping key)
        exact ⟨fits _, fits _⟩
      · rintro ⟨negative, positive⟩ other names perm
        obtain ⟨exact, cellsPerm⟩ := sumsExactly_of_perm grouped sums listed keyed whole names perm
        exact exact.mpr (Cell.runsExactly_of_fits negative positive cellsPerm)
  · intro pipeline names faultless
    obtain ⟨groups, accepted⟩ := bind_of_groupBy grouped
    rw [Pipeline.groupBy_of_collect (names ▸ accepted) faultless, ← groupBy_of_bind accepted,
      grouped]

section Extremes

/-- The integers in a column of their own. -/
def ofIntegers (name : String) (values : List Int64) : Table where
  schema := ⟨[⟨name, .integer, false⟩]⟩
  rows := values.map fun value => ⟨[name], [.integer value], rfl⟩
  aligned := by simp [Schema.names]

theorem cellsTaken_ofIntegers (name : String) (values : List Int64) :
    Grouping.cellsTaken ⟨[], [.sum name]⟩ (.sum name) (ofIntegers name values).rows [] =
      values.map .integer := by
  have all : Grouping.groupOf ⟨[], [.sum name]⟩ (ofIntegers name values).rows [] =
      (ofIntegers name values).rows := List.filter_eq_self.mpr fun _ _ => decide_eq_true rfl
  rw [Grouping.cellsTaken, all, ofIntegers, List.map_map]
  refine List.map_congr_left fun value _ => ?_
  have found : position? [name] name = some 0 := by simp [position?]
  exact @Row.under_eq_cellAt ⟨[name], [.integer value], rfl⟩ name 0 found

/-- The column can be summed as a whole, and its cells are those that are summed. -/
theorem exists_groupBy_ofIntegers (name : String) (values : List Int64) (nonempty : values ≠ []) :
    ∃ result, (ofIntegers name values).groupBy ⟨[], [.sum name]⟩ = .ok result ∧
      [] ∈ Grouping.keysOf ⟨[], [.sum name]⟩ (ofIntegers name values).rows ∧
      ∀ cell ∈ Grouping.cellsTaken ⟨[], [.sum name]⟩ (.sum name) (ofIntegers name values).rows [],
        cell.IntegerOrMissing := by
  obtain ⟨groups, accepted⟩ := @Groups.exists_bind [name] ⟨[], [.sum name]⟩ (by simp)
    (by simp [Groups.Has, Aggregation.sum]) (by simp [Grouping.outputNames])
  obtain ⟨result, made, -⟩ := Groups.cells_of_foldl_add accepted (ofIntegers name values).aligned
  refine ⟨result, (groupBy_of_bind accepted).trans made, ?_, ?_⟩
  · obtain ⟨row, member⟩ := List.exists_mem_of_ne_nil (ofIntegers name values).rows
      (by simpa [ofIntegers] using nonempty)
    exact mem_distinctKeys.mpr ⟨row, member, rfl⟩
  · rw [cellsTaken_ofIntegers]
    simp [Cell.IntegerOrMissing]

/-- The integers `2 ^ 63 - 1`, `-1` and `1` are summed exactly in this order, but not in every
one. -/
theorem sums_exactly_of_three_rows :
    ∃ result row,
      (ofIntegers "v" [Int64.maxValue, -1, 1]).groupBy ⟨[], [.sum "v"]⟩ = .ok result ∧
      row ∈ result.rows ∧ row.under "sum_v" = .integer Int64.maxValue ∧
      ¬ ∀ other : Table, other.names = ["v"] →
        other.rows.Perm (ofIntegers "v" [Int64.maxValue, -1, 1]).rows →
        other.SumsExactly ⟨[], [.sum "v"]⟩ (.sum "v") [] := by
  obtain ⟨result, grouped, keyed, whole⟩ :=
    exists_groupBy_ofIntegers "v" [Int64.maxValue, -1, 1] (by simp)
  rw [cellsTaken_ofIntegers] at whole
  obtain ⟨⟨row, only, exact, -⟩, everyOrder⟩ :=
    (sums_exactly_iff grouped rfl List.mem_cons_self).1 [] keyed _ (cellsTaken_ofIntegers _ _) whole
  obtain ⟨total, held, same⟩ := exact (by decide +kernel)
  obtain rfl : total = Int64.maxValue := Int64.toInt_inj.mp (same.trans (by decide +kernel))
  refine ⟨result, row, grouped, ((only row).mpr rfl).1, held, fun always => ?_⟩
  exact absurd (everyOrder.mp always).2 (by decide +kernel)

/-- With `1` before `-1` the running sum leaves 64 bits, although the sum of the group does not. -/
theorem sums_not_exactly :
    ¬ ∀ (source result : Table) (grouping : Grouping) (aggregation : Aggregation)
      (key : List CellKey), source.groupBy grouping = .ok result → aggregation.function = .sum →
      aggregation ∈ grouping.aggregations → key ∈ grouping.keysOf source.rows →
      (∀ cell ∈ grouping.cellsTaken aggregation source.rows key, cell.IntegerOrMissing) →
      FitsInt64 (Cell.wholeSum (grouping.cellsTaken aggregation source.rows key)) →
      source.SumsExactly grouping aggregation key := by
  intro always
  obtain ⟨result, grouped, keyed, whole⟩ :=
    exists_groupBy_ofIntegers "v" [Int64.maxValue, 1, -1] (by simp)
  have fits : FitsInt64 (Cell.wholeSum ([Int64.maxValue, 1, -1].map .integer)) := by
    decide +kernel
  have exact := always _ result _ _ [] grouped rfl List.mem_cons_self keyed whole
    (by rwa [cellsTaken_ofIntegers])
  have runs := (sumsExactly_iff grouped rfl List.mem_cons_self keyed whole).mp exact
  rw [cellsTaken_ofIntegers] at runs
  exact absurd runs (by decide +kernel)

end Extremes

end Table

end Medals
