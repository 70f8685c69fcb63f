import Medals.Proofs.Query.Events

/-!
# Events by NOC

Queries group events by NOC, those of one year also by the year that they share.
`Engine.EventGroups.byNoc` says what is found: a row for each NOC, with the cell that names it first
and the number of its medals.
-/

namespace Medals

namespace Row

/-- The identity of a row's NOC. -/
def nocKey (row : Row) : CellKey :=
  (row.under "NOC").key

/-- The row is that of a medal. -/
def HasMedal (row : Row) : Prop :=
  (row.under "Medal").isMissing = false

instance : DecidablePred HasMedal := fun _ =>
  inferInstanceAs (Decidable (_ = _))

end Row

section Medals

variable {year : Int64} {row : Row}

/-- The conditions for the medals of a year ask for the key of the year. -/
theorem accepts_medals_iff :
    (∀ condition ∈ [Condition.present "Medal", .equals "Year" (.integer year)],
      condition.test.accepts (row.under condition.column) = true) ↔
      row.HasMedal ∧ (row.under "Year").key = .integer year := by
  rw [List.forall_mem_cons, List.forall_mem_singleton]
  refine and_congr ?_ ?_
  · rw [Condition.test, Condition.column, Test.accepts_present, Bool.not_eq_true', Row.HasMedal]
  · rw [Condition.test, Condition.column, Test.accepts_equals_iff (by simp [Cell.key]), Cell.key]

/-- The cells of medals that are not missing are as many as the medals. -/
theorem countPresent_medals {group : List Row} {label : String} {summary : Cell}
    (summarises : AggregateFunction.countPresent.Summarises
      (group.map ((Aggregation.countPresent "Medal").named label).cellOf) summary) :
    summary = .integer (Int64.ofNat (group.countP fun row => row.HasMedal)) := by
  refine summarises.trans (congrArg (fun number => Cell.integer (Int64.ofNat number)) ?_)
  rw [List.countP_map]
  refine List.countP_congr fun row _ => ?_
  rw [Function.comp_apply, Bool.not_eq_true', decide_eq_true_iff]
  rfl

end Medals

/-- The NOCs of events, in the order of their first ones. -/
def nocsOf (events : List Row) : List CellKey :=
  distinctKeys Row.nocKey events

/-- The events of a NOC. -/
def eventsOf (events : List Row) (noc : CellKey) : List Row :=
  ofKey Row.nocKey events noc

/-- What events are grouped by that are of any year, or all of one. -/
def groupColumns (year? : Option Int64) : List String :=
  if year?.isSome then ["NOC", "Year"] else ["NOC"]

theorem noc_mem_groupColumns (year? : Option Int64) : "NOC" ∈ groupColumns year? := by
  unfold groupColumns
  split <;> simp

theorem year_mem_groupColumns {year? : Option Int64} {year : Int64} (wanted : year ∈ year?) :
    "Year" ∈ groupColumns year? := by
  simp [groupColumns, Option.mem_def.mp wanted]

/-- The key of the group of a NOC. -/
def groupKey (year? : Option Int64) (noc : CellKey) : List CellKey :=
  match year? with
  | some year => [noc, .integer year]
  | none => [noc]

theorem groupKey_injective (year? : Option Int64) : Function.Injective (groupKey year?) := by
  intro one other same
  unfold groupKey at same
  split at same <;> exact (List.cons.inj same).1

/-- The NOC alone tells the groups apart. -/
theorem keysUnder_groupColumns {year? : Option Int64} {row : Row}
    (inYear : ∀ year ∈ year?, (row.under "Year").key = .integer year) :
    row.keysUnder (groupColumns year?) = groupKey year? row.nocKey := by
  cases year? with
  | none => rfl
  | some year =>
    rw [groupColumns, Option.isSome_some, if_pos rfl, Row.keysUnder, List.map_cons,
      List.map_singleton, inYear year rfl, groupKey, Row.nocKey]

namespace Grouping

section ByNoc

variable {grouping : Grouping} {rows : List Row} {wrap : CellKey → List CellKey}
  (injective : Function.Injective wrap) (keyed : ∀ row ∈ rows, grouping.keyOf row = wrap row.nocKey)

include injective keyed

theorem keysOf_byNoc : grouping.keysOf rows = (distinctKeys Row.nocKey rows).map wrap := by
  rw [keysOf, ← distinctKeys_wrap injective]
  exact distinctKeys_congr keyed

theorem groupOf_byNoc (key : CellKey) :
    grouping.groupOf rows (wrap key) = ofKey Row.nocKey rows key := by
  rw [groupOf, ← ofKey_wrap injective key]
  exact ofKey_congr keyed _

end ByNoc

/-- What a row with one summary says that stands for a group. -/
theorem Stands.under {keys : List String} {aggregation : Aggregation} {group : List Row} {row : Row}
    (stands : (⟨keys, [aggregation]⟩ : Grouping).Stands group row)
    (named : row.names = keys ++ [aggregation.label])
    (distinct : (keys ++ [aggregation.label]).Nodup) :
    ∃ first rest, group = first :: rest ∧ (∀ name ∈ keys, row.under name = first.under name) ∧
      aggregation.function.Summarises (group.map aggregation.cellOf)
        (row.under aggregation.label) := by
  obtain ⟨first, rest, summaries, rfl, cells, summarised⟩ := stands
  cases summarised with
  | @cons _ summary _ _ summarises none =>
    cases none
    have under := Row.map_under_names (named ▸ distinct : row.names.Nodup)
    rw [named, cells, List.map_append] at under
    obtain ⟨keyCells, last⟩ := List.append_inj under (by simp)
    have own : row.under aggregation.label = summary := by simpa using last
    refine ⟨first, rest, rfl, fun name listed => List.map_inj_left.mp keyCells name listed, ?_⟩
    rw [own]
    exact summarises

end Grouping

/-- The row is the one that counts the medals of a NOC. -/
structure Row.Tells (year? : Option Int64) (noc : CellKey) (group : List Row) (medals : Nat)
    (row : Row) : Prop where
  key : row.nocKey = noc
  first : row.under "NOC" = (group.headD default).under "NOC"
  year : ∀ year ∈ year?, row.under "Year" = .integer year
  count : row.under "medal_count" = .integer (Int64.ofNat medals)

/-- A row with the same cells tells the same. -/
theorem Row.Tells.congr {year? : Option Int64} {noc : CellKey} {group : List Row} {medals : Nat}
    {row other : Row} (tells : row.Tells year? noc group medals)
    (same : ∀ name ∈ groupColumns year? ++ ["medal_count"], other.under name = row.under name) :
    other.Tells year? noc group medals := by
  have nocCell := same "NOC" (List.mem_append_left _ (noc_mem_groupColumns year?))
  constructor
  · rw [Row.nocKey, nocCell]
    exact tells.key
  · rw [nocCell, tells.first]
  · intro year wanted
    rw [same "Year" (List.mem_append_left _ (year_mem_groupColumns wanted)), tells.year year wanted]
  · rw [same "medal_count" (by simp), tells.count]

/-- A row that stands for the events of a NOC, all of them of the year if there is one, tells how
many medals they are. -/
theorem Row.tells_of_stands {year? : Option Int64} {aggregation : Aggregation} {noc : CellKey}
    {group : List Row} {medals : Nat} {row : Row}
    (stands : (⟨groupColumns year?, [aggregation]⟩ : Grouping).Stands group row)
    (named : row.names = groupColumns year? ++ ["medal_count"])
    (label : aggregation.label = "medal_count")
    (own : ∀ event ∈ group, event.nocKey = noc ∧ ∀ year ∈ year?, event.under "Year" = .integer year)
    (number : ∀ summary, aggregation.function.Summarises (group.map aggregation.cellOf) summary →
      summary = .integer (Int64.ofNat medals)) : row.Tells year? noc group medals := by
  have distinct : (groupColumns year? ++ ["medal_count"]).Nodup := by
    unfold groupColumns
    split <;> simp
  rw [← label] at named distinct
  obtain ⟨first, rest, rfl, cells, summarises⟩ := stands.under named distinct
  obtain ⟨same, inYear⟩ := own first List.mem_cons_self
  have nocCell := cells "NOC" (noc_mem_groupColumns year?)
  constructor
  · rw [Row.nocKey, nocCell]
    exact same
  · exact nocCell
  · intro year wanted
    rw [cells "Year" (year_mem_groupColumns wanted)]
    exact inYear year wanted
  · rw [← label]
    exact number _ summarises

namespace Engine

variable {engine : Engine} {files : Files}

/-- The events that pass a filter are those whose cells pass the tests of its conditions. -/
theorem ReadsEvents.filter_eq {reader : RowReader} {events : List Row} {filter : Filter}
    {bound : BoundFilter} (reads : engine.ReadsEvents files reader events)
    (binds : filter.bind reader.names = .ok bound) {selects : Row → Prop} [DecidablePred selects]
    (tests : ∀ row ∈ events, (∀ condition ∈ filter.conditions,
      condition.test.accepts (row.under condition.column) = true) ↔ selects row) :
    events.filter bound.accepts = events.filter fun row => selects row := by
  refine List.filter_congr fun row member => ?_
  rw [← reads.aligned row member] at binds
  rw [Bool.eq_iff_iff, decide_eq_true_iff, Filter.accepts_iff binds]
  exact tests row member

/-- Events of any year, or all of one, are counted by their NOC. -/
theorem EventGroups.byNoc {filter : Filter} {aggregation : Aggregation} {counted : Pipeline}
    {counts : Table} (year? : Option Int64) (selects : Row → Prop) [DecidablePred selects]
    (medals : List Row → Nat)
    (groups : engine.EventGroups files filter ⟨groupColumns year?, [aggregation]⟩ counted counts)
    (tests : ∀ row, (row.under "Year").IntegerOrMissing → ((∀ condition ∈ filter.conditions,
      condition.test.accepts (row.under condition.column) = true) ↔ selects row))
    (inYear : ∀ row, selects row → ∀ year ∈ year?, (row.under "Year").key = .integer year)
    (label : aggregation.label = "medal_count")
    (numbers : ∀ group, (∀ row ∈ group, selects row) → ∀ summary,
      aggregation.function.Summarises (group.map aggregation.cellOf) summary →
        summary = .integer (Int64.ofNat (medals group))) :
    ∃ reader events, engine.ReadsEvents files reader events ∧
      (∀ condition ∈ filter.conditions, condition.column ∈ reader.names) ∧
      (∀ name ∈ groupColumns year?, name ∈ reader.names) ∧
      counts.names = groupColumns year? ++ ["medal_count"] ∧
      List.Forall₂ (fun noc row =>
          let group := eventsOf (events.filter fun row => selects row) noc
          row.Tells year? noc group (medals group))
        (nocsOf (events.filter fun row => selects row)) counts.rows := by
  obtain ⟨reader, events, bound, start, reads, binds, accepted, made⟩ := groups.reads
  rw [reads.filter_eq binds fun row member => tests row (reads.integerOrMissing_year row member)]
    at made
  obtain ⟨result, again, names, stand⟩ := Groups.foldl_add_table accepted
    fun row member => reads.aligned row (List.mem_filter.mp member).1
  obtain rfl : result = counts := Except.ok.inj (again.symm.trans made)
  have layout : result.names = groupColumns year? ++ ["medal_count"] := label ▸ names
  have keyed : ∀ row ∈ events.filter fun row => selects row,
      (⟨groupColumns year?, [aggregation]⟩ : Grouping).keyOf row =
        groupKey year? row.nocKey := by
    intro row member
    have selected : selects row := by simpa using (List.mem_filter.mp member).2
    exact keysUnder_groupColumns (inYear row selected)
  rw [Grouping.keysOf_byNoc (groupKey_injective year?) keyed, List.forall₂_map_left_iff] at stand
  -- Rows correspond to keys one by one; each row brings its layout along.
  have rows := (List.forall₂_and_left _ _).mpr
    ⟨fun row member => (result.aligned row member).trans layout, List.Forall₂.flip stand⟩
  refine ⟨reader, events, reads, Filter.exists_bind_iff.mp ⟨bound, binds⟩,
    Resolves.exists_iff.mp ⟨_, (Groups.of_bind accepted).1⟩, layout,
    List.Forall₂.flip (rows.imp ?_)⟩
  rintro row noc ⟨named, stands⟩
  rw [Grouping.groupOf_byNoc (groupKey_injective year?) keyed] at stands
  have own : ∀ event ∈ eventsOf (events.filter fun row => selects row) noc,
      event ∈ events ∧ selects event ∧ event.nocKey = noc := by
    intro event member
    obtain ⟨chosen, same⟩ := mem_ofKey.mp member
    simpa [same] using List.mem_filter.mp chosen
  refine Row.tells_of_stands stands named label ?_
    (numbers _ fun event member => (own event member).2.1)
  intro event member
  obtain ⟨listed, selected, same⟩ := own event member
  refine ⟨same, fun year wanted => ?_⟩
  exact (reads.integerOrMissing_year event listed).key_eq_iff.mp (inYear event selected year wanted)

end Engine

end Medals
