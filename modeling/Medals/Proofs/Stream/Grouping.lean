import Medals.Proofs.Stream.Run
import Medals.Proofs.Table.Group

/-!
# Grouping a stream and its table

`Pipeline.groupBy_eq_groupBy_of_table` says that grouping partitions the rows exactly: a stream of
rows and the table of the same rows give one result, in which every group is summarised once.
-/

namespace Medals

/-- A table is grouped by one pass over its rows. -/
theorem Table.groupBy_of_bind {table : Table} {grouping : Grouping} {groups : Groups}
    (accepted : Groups.bind grouping table.names = .ok groups) :
    table.groupBy grouping = (table.rows.foldl Groups.add groups).table := by
  rw [Table.groupBy, accepted]
  rfl

/-- A grouping that succeeds has been accepted, whatever the rows. -/
theorem Table.bind_of_groupBy {table result : Table} {grouping : Grouping}
    (grouped : table.groupBy grouping = .ok result) :
    ∃ groups, Groups.bind grouping table.names = .ok groups := by
  obtain ⟨groups, accepted, -⟩ := bind_eq_ok_iff.mp grouped
  exact ⟨groups, accepted⟩

namespace Pipeline

/-- A source without faults is grouped by one pass over its rows. -/
theorem groupBy_of_collect {pipeline : Pipeline} {grouping : Grouping} {groups : Groups}
    {rows : List Row} (accepted : Groups.bind grouping pipeline.names = .ok groups)
    (faultless : pipeline.collect.1 = .ok rows) :
    (pipeline.groupBy grouping).1 = (rows.foldl Groups.add groups).table := by
  have run := collect_eq_ok_iff.mp (Prod.ext faultless rfl)
  simp only [Pipeline.groupBy, accepted, run.fold]

/-- Rows of one layout have one result under a grouping that is accepted, whether they come as a
table or from a stream. It has one row for each key, in the order of the first rows, that stands for
the rows of the key. Every row is in exactly one group, so that the counts add up to the number of
rows. -/
theorem groupBy_eq_groupBy_of_table {layout : List String} {rows : List Row} {grouping : Grouping}
    {groups : Groups} (aligned : ∀ row ∈ rows, row.names = layout)
    (accepted : Groups.bind grouping layout = .ok groups) :
    ∃ source result, Table.inferred layout rows = .ok source ∧
      source.groupBy grouping = .ok result ∧
      ((ofRows layout rows).groupBy grouping).1 = .ok result ∧
      (∀ pipeline : Pipeline, pipeline.names = layout → pipeline.collect.1 = .ok rows →
        (pipeline.groupBy grouping).1 = .ok result) ∧
      result.names = grouping.outputNames ∧
      List.Forall₂ (fun key row => grouping.Stands (grouping.groupOf rows key) row)
        (grouping.keysOf rows) result.rows ∧
      (grouping.keysOf rows).Nodup ∧
      (∀ row ∈ rows, ∃! key, key ∈ grouping.keysOf rows ∧ row ∈ grouping.groupOf rows key) ∧
      ((grouping.keysOf rows).flatMap (grouping.groupOf rows)).Perm rows ∧
      ∀ place aggregation, grouping.aggregations[place]? = some aggregation →
        aggregation.function = .count → rows.length < 2 ^ 63 →
        (result.rows.map fun row =>
          (row.cellAt (grouping.keys.length + place)).whole?.getD 0).sum = rows.length := by
  obtain ⟨source, built, sourceNames, sourceRows⟩ := Table.inferred_ok aligned
  obtain ⟨result, made, names, stand⟩ := Groups.foldl_add_table accepted aligned
  refine ⟨source, result, built, ?_, ?_, ?_, names, stand, nodup_distinctKeys, ?_,
    flatMap_ofKey_perm, ?_⟩
  · rw [Table.groupBy_of_bind (sourceNames ▸ accepted), sourceRows, made]
  · rw [groupBy_of_collect accepted (congrArg Prod.fst (runs_ofRows aligned).collect), made]
  · intro pipeline sameNames faultless
    rw [groupBy_of_collect (sameNames ▸ accepted) faultless, made]
  · intro row member
    refine ⟨grouping.keyOf row, ⟨mem_distinctKeys.mpr ⟨row, member, rfl⟩,
      mem_ofKey.mpr ⟨member, rfl⟩⟩, fun key ⟨_, grouped⟩ => ?_⟩
    exact (mem_ofKey.mp grouped).2.symm
  · intro place aggregation listed counts countable
    exact Grouping.sum_counts stand countable listed counts

/-- The text and the integer 2012 are one key, so that there are two groups. -/
theorem groupBy_of_three_rows :
    let rows : List Row :=
      [⟨["Year", "Medals"], [.text "2012", .integer 3], rfl⟩,
        ⟨["Year", "Medals"], [.integer 2016, .missing], rfl⟩,
        ⟨["Year", "Medals"], [.integer 2012, .integer 4], rfl⟩]
    let grouping : Grouping := ⟨["Year"], [.count, .sum "Medals"]⟩
    ∃ result, ((ofRows ["Year", "Medals"] rows).groupBy grouping).1 = .ok result ∧
      result.names = ["Year", "count_all", "sum_Medals"] ∧ result.rows.length = 2 := by
  intro rows grouping
  obtain ⟨_, result, _, _, streamed, _, names, stand, _⟩ :=
    @groupBy_eq_groupBy_of_table ["Year", "Medals"] rows grouping _ (by simp [rows]) rfl
  refine ⟨result, streamed, names, ?_⟩
  rw [← stand.length_eq]
  cbv

end Pipeline

end Medals
