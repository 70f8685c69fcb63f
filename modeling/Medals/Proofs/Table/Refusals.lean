import Medals.Proofs.Csv.WellFormed
import Medals.Proofs.Table.Group

/-!
# What a layout refuses

Filters, projections and groupings name columns, which are resolved to positions of a layout before
any row is read. A refusal names the first column that the layout lacks, in the order in which they
are resolved; a grouping is also refused for an aggregation without its column and for the first
name of its result that comes again (`Grouping.refusal?`). What is not refused is resolved to
positions inside the layout.
-/

namespace Medals

section Missing

variable {layout names more : List String} {name : String}

/-- The fault of the first name that a layout lacks. -/
def missingColumn? (layout names : List String) : Option Fault :=
  (names.find? (· ∉ layout)).map .unknownColumn

theorem missingColumn?_append : missingColumn? layout (names ++ more) =
    (missingColumn? layout names).or (missingColumn? layout more) := by
  simp [missingColumn?, List.find?_append, Option.map_or]

theorem missingColumn?_cons : missingColumn? layout (name :: names) =
    (missingColumn? layout [name]).or (missingColumn? layout names) :=
  @missingColumn?_append layout [name] names

theorem missingColumn?_eq_none_iff :
    missingColumn? layout names = none ↔ ∀ name ∈ names, name ∈ layout := by
  simp [missingColumn?]

/-- The refusal for the columns of some items is that of the first item whose column is lacking. -/
theorem missingColumn?_map_eq_some_iff {α : Type} {column : α → String} {items : List α}
    {fault : Fault} :
    missingColumn? layout (items.map column) = some fault ↔
      ∃ front item back, items = front ++ item :: back ∧
        (∀ earlier ∈ front, column earlier ∈ layout) ∧ column item ∉ layout ∧
        fault = .unknownColumn (column item) := by
  rw [missingColumn?, List.find?_map, Option.map_map, Option.map_eq_some_iff]
  constructor
  · rintro ⟨item, found, rfl⟩
    obtain ⟨lacking, front, back, split, known⟩ := List.find?_eq_some_iff_append.mp found
    exact ⟨front, item, back, split, by simpa using known, by simpa using lacking, rfl⟩
  · rintro ⟨front, item, back, split, known, lacking, rfl⟩
    refine ⟨item, List.find?_eq_some_iff_append.mpr ⟨?_, front, back, split, ?_⟩, rfl⟩
    · simpa using lacking
    · simpa using known

theorem fault?_requirePosition :
    fault? (requirePosition layout name) = missingColumn? layout [name] := by
  cases found : requirePosition layout name with
  | ok index =>
    have held := exists_requirePosition_iff.mp ⟨index, found⟩
    exact (missingColumn?_eq_none_iff.mpr (by simpa using held)).symm
  | error fault =>
    have lacking : name ∉ layout := fun held => by
      simpa [found] using exists_requirePosition_iff.mpr held
    simp [fault?, requirePosition_error found, missingColumn?, lacking]

/-- The first name that a layout lacks is the first that cannot be required. -/
theorem missingColumn?_eq_findSome? (layout names : List String) :
    missingColumn? layout names =
      names.findSome? fun name => fault? (requirePosition layout name) := by
  induction names with
  | nil => rfl
  | cons name rest ih =>
    rw [missingColumn?_cons, List.findSome?_cons, fault?_requirePosition, ih]
    cases missingColumn? layout [name] <;> rfl

end Missing

namespace Filter

variable {layout : List String}

/-- The columns of the conditions, in order. -/
def columns (filter : Filter) : List String :=
  filter.conditions.map Condition.column

theorem fault?_bindConditions (conditions : List Condition) :
    fault? (bindConditions layout conditions) =
      missingColumn? layout (conditions.map Condition.column) := by
  rw [bindConditions_eq, fault?_mapM, missingColumn?_eq_findSome?, List.findSome?_map]
  simp only [fault?_map, Function.comp_def]

/-- A filter is refused for the first of its columns that the layout lacks. -/
theorem fault?_bind (filter : Filter) :
    fault? (filter.bind layout) = missingColumn? layout filter.columns :=
  (fault?_map _ _).trans (fault?_bindConditions filter.conditions)

theorem resolves_of_bindConditions {conditions : List Condition} {tests : List (Nat × Test)}
    (bound : bindConditions layout conditions = .ok tests) :
    Resolves layout (conditions.map Condition.column) (tests.map Prod.fst) := by
  rw [Resolves, List.forall₂_map_left_iff, List.forall₂_map_right_iff]
  refine (bindConditions_eq_ok_iff.mp bound).imp ?_
  rintro condition test ⟨index, found, rfl⟩
  exact found

/-- A bound filter tests cells at positions of its columns. -/
theorem resolves_of_bind {filter : Filter} {bound : BoundFilter}
    (binds : filter.bind layout = .ok bound) :
    Resolves layout filter.columns (bound.tests.map Prod.fst) := by
  obtain ⟨tests, found, rfl⟩ := map_eq_ok_iff.mp binds
  exact resolves_of_bindConditions found

end Filter

namespace Projection

variable {layout : List String}

/-- A choice of columns is refused for the first of them that the layout lacks. -/
theorem fault?_bind (names : List String) :
    fault? (bind layout names) = missingColumn? layout names := by
  rw [← fault?_map _ positions, map_positions_bind, fault?_mapM, missingColumn?_eq_findSome?]

theorem fault?_bindOptional (columns : Option (List String)) :
    fault? (bindOptional layout columns) = missingColumn? layout (columns.getD []) := by
  cases columns with
  | none => rfl
  | some names => exact (fault?_map _ _).trans (fault?_bind names)

/-- The positions of the chosen columns, or none if all are kept. -/
def optionalPositions (projection? : Option Projection) : List Nat :=
  projection?.elim [] positions

theorem lt_length_of_bindOptional {columns : Option (List String)} {projection : Option Projection}
    (bound : bindOptional layout columns = .ok projection) :
    ∀ index ∈ optionalPositions projection, index < layout.length := by
  cases columns with
  | none =>
    obtain rfl := Except.ok.inj bound
    simp [optionalPositions]
  | some names =>
    obtain ⟨chosen, found, rfl⟩ := map_eq_ok_iff.mp bound
    exact (resolves_of_bind found).2.lt_length

end Projection

section Grouping

variable {layout : List String}

/-- The aggregation has its column in the layout, or counts rows. -/
def Groups.Has (layout : List String) (aggregation : Aggregation) : Prop :=
  (aggregation.column = none ∧ aggregation.function = .count) ∨
    ∃ name ∈ layout, aggregation.column = some name

/-- The fault of an aggregation that is not served by a layout. -/
def Aggregation.refusal? (aggregation : Aggregation) (layout : List String) : Option Fault :=
  match aggregation.column with
  | some name => missingColumn? layout [name]
  | none =>
    if aggregation.function = .count then none
    else some (.aggregationWithoutColumn aggregation.label)

/-- The fault of a grouping over a layout: for the first key that is missing, then for the first
aggregation that is not served, then for the first name of the result that comes again. -/
def Grouping.refusal? (grouping : Grouping) (layout : List String) : Option Fault :=
  (missingColumn? layout grouping.keys).or
    ((grouping.aggregations.findSome? fun aggregation => aggregation.refusal? layout).or
      ((RowReader.firstRepeated? [] grouping.outputNames).map .columnExists))

namespace Groups

theorem fault?_bindKeys (names : List String) :
    fault? (bindKeys layout names) = missingColumn? layout names := by
  rw [bindKeys_eq, fault?_mapM, missingColumn?_eq_findSome?]

theorem fault?_bindAggregation (aggregation : Aggregation) :
    fault? (bindAggregation layout aggregation) = aggregation.refusal? layout := by
  obtain ⟨function, column, label⟩ := aggregation
  cases column with
  | some name => exact (fault?_map _ _).trans fault?_requirePosition
  | none => cases function <;> rfl

theorem fault?_bindAggregations (aggregations : List Aggregation) :
    fault? (bindAggregations layout aggregations) =
      aggregations.findSome? fun aggregation => aggregation.refusal? layout := by
  rw [bindAggregations_eq, fault?_mapM]
  simp only [fault?_bindAggregation]

theorem fault?_distinctNames (seen names : List String) :
    fault? (Row.distinctNames seen names) =
      (RowReader.firstRepeated? seen names).map .columnExists := by
  induction names generalizing seen with
  | nil => rfl
  | cons name rest ih =>
    rw [Row.distinctNames, RowReader.firstRepeated?]
    split
    · rfl
    · exact ih (name :: seen)

/-- A grouping is refused for its first offender. -/
theorem fault?_bind (grouping : Grouping) :
    fault? (bind grouping layout) = grouping.refusal? layout := by
  rw [Grouping.refusal?, ← fault?_bindKeys, ← fault?_bindAggregations, ← fault?_distinctNames]
  refine Medals.fault?_bind fun keys => ?_
  refine Medals.fault?_bind fun aggregations => ?_
  refine (Medals.fault?_bind fun _ => ?_).trans (Option.or_none ..)
  rfl

/-- The positions of the cells that a grouping reads. -/
def positions (groups : Groups) : List Nat :=
  groups.keyPositions ++ groups.aggregations.filterMap Prod.snd

theorem lt_length_of_bindAggregation {aggregation : Aggregation}
    {bound : AggregateFunction × Option Nat}
    (binds : bindAggregation layout aggregation = .ok bound) :
    ∀ index ∈ bound.2, index < layout.length := by
  obtain ⟨function, column, label⟩ := aggregation
  cases column with
  | none =>
    cases function <;> simp [bindAggregation] at binds
    simp [← binds]
  | some name =>
    obtain ⟨index, found, rfl⟩ := map_eq_ok_iff.mp binds
    have resolved : Resolves layout [name] [index] :=
      .cons (requirePosition_eq_ok_iff.mp found) .nil
    simpa using resolved.lt_length

/-- A grouping reads cells inside the layout only. -/
theorem lt_length_of_bind {grouping : Grouping} {groups : Groups}
    (accepted : bind grouping layout = .ok groups) :
    ∀ index ∈ groups.positions, index < layout.length := by
  intro index member
  obtain ⟨keys, summaries, -⟩ := resolved_of_bind accepted
  rcases List.mem_append.mp member with key | aggregated
  · exact keys.lt_length index key
  · obtain ⟨computed, listed, reads⟩ := List.mem_filterMap.mp aggregated
    obtain ⟨place, inside, rfl⟩ := List.getElem_of_mem listed
    have bound := summaries.get (summaries.length_eq ▸ inside) inside
    exact lt_length_of_bindAggregation bound index reads

end Groups

theorem RowReader.firstRepeated?_eq_some {seen names : List String} {name : String}
    (repeated : firstRepeated? seen names = some name) :
    ∃ before after, names = before ++ name :: after ∧ before.Nodup ∧
      (∀ other ∈ before, other ∉ seen) ∧ (name ∈ seen ∨ name ∈ before) := by
  induction names generalizing seen with
  | nil => simp [firstRepeated?] at repeated
  | cons first rest ih =>
    rw [firstRepeated?] at repeated
    split at repeated
    · next known =>
      obtain rfl := Option.some.inj repeated
      exact ⟨[], rest, rfl, List.nodup_nil, by simp, .inl (by simpa using known)⟩
    · next fresh =>
      obtain ⟨before, after, rfl, distinct, unseen, again⟩ := ih repeated
      have new : first ∉ before := fun member => unseen first member List.mem_cons_self
      refine ⟨first :: before, after, rfl, List.nodup_cons.mpr ⟨new, distinct⟩, ?_, ?_⟩
      · rintro other member
        rcases List.mem_cons.mp member with rfl | later
        · simpa using fresh
        · exact fun known => unseen other later (List.mem_cons_of_mem _ known)
      · rcases again with known | earlier
        · rcases List.mem_cons.mp known with rfl | known
          · exact .inr List.mem_cons_self
          · exact .inl known
        · exact .inr (List.mem_cons_of_mem _ earlier)

theorem Aggregation.refusal?_eq_none_iff {aggregation : Aggregation} :
    aggregation.refusal? layout = none ↔ Groups.Has layout aggregation := by
  obtain ⟨function, column, label⟩ := aggregation
  cases column with
  | none => simp [refusal?, Groups.Has]
  | some name => simp [refusal?, Groups.Has, missingColumn?_eq_none_iff]

/-- A grouping is accepted exactly if the layout has its keys, every aggregation has its column or
counts rows, and the names of the result are distinct. -/
theorem Grouping.refusal?_eq_none_iff {grouping : Grouping} : grouping.refusal? layout = none ↔
    (∀ key ∈ grouping.keys, key ∈ layout) ∧
      (∀ aggregation ∈ grouping.aggregations, Groups.Has layout aggregation) ∧
      grouping.outputNames.Nodup := by
  simp [refusal?, missingColumn?_eq_none_iff, Aggregation.refusal?_eq_none_iff,
    RowReader.firstRepeated?_eq_none_iff]

/-- A grouping is accepted by a layout with its columns when the names of its result are
distinct. -/
theorem Groups.exists_bind {grouping : Grouping} (keys : ∀ name ∈ grouping.keys, name ∈ layout)
    (has : ∀ aggregation ∈ grouping.aggregations, Groups.Has layout aggregation)
    (distinct : grouping.outputNames.Nodup) : ∃ groups, Groups.bind grouping layout = .ok groups :=
  fault?_eq_none_iff.mp ((Groups.fault?_bind grouping).trans
    (Grouping.refusal?_eq_none_iff.mpr ⟨keys, has, distinct⟩))

/-- The names of an accepted grouping's result are distinct. -/
theorem Groups.nodup_of_bind {grouping : Grouping} {groups : Groups}
    (accepted : bind grouping layout = .ok groups) : grouping.outputNames.Nodup := by
  have unrefused := fault?_eq_none_iff.mpr ⟨groups, accepted⟩
  rw [fault?_bind] at unrefused
  exact (Grouping.refusal?_eq_none_iff.mp unrefused).2.2

end Grouping

end Medals
