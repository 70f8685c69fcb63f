import Medals.Proofs.Query.Groups
import Medals.Proofs.Table.Carrying

/-!
# The medals of a year

`medalCounts` lists, from the events alone, how many medals each NOC won in a year.
`Engine.EventGroups.medalCounts_eq` says that a query which groups the medals and counts them finds
this list, whichever of its aggregations does the counting.
-/

namespace Medals

namespace Row

/-- The row is that of a medal won in a year. -/
def IsMedalOf (year : Int64) (row : Row) : Prop :=
  (row.under "Medal").isMissing = false ∧ row.under "Year" = .integer year

instance (year : Int64) : DecidablePred (IsMedalOf year) := fun _ =>
  inferInstanceAs (Decidable (_ ∧ _))

end Row

/-- The medals of a year. -/
def medalsOf (year : Int64) (events : List Row) : List Row :=
  events.filter fun row => row.IsMedalOf year

/-- For each NOC that won a medal in a year, the cell that names it first and the number of its
medals. -/
def medalCounts (year : Int64) (events : List Row) : List (List Cell) :=
  (distinctKeys Row.nocKey (medalsOf year events)).map fun key =>
    let won := ofKey Row.nocKey (medalsOf year events) key
    [(won.headD default).under "NOC", .integer (Int64.ofNat won.length)]

/-- The filter for the medals of a year. -/
def medalFilter (year : Int64) : Filter :=
  ⟨[.present "Medal", .equals "Year" (.integer year)]⟩

/-- The filter for the medals of a year passes them, where years are integers or missing. -/
theorem accepts_medalFilter_iff {year : Int64} {row : Row}
    (whole : (row.under "Year").IntegerOrMissing) :
    (∀ condition ∈ (medalFilter year).conditions,
      condition.test.accepts (row.under condition.column) = true) ↔ row.IsMedalOf year := by
  rw [medalFilter, accepts_medals_iff, whole.key_eq_iff, Row.HasMedal, Row.IsMedalOf]

namespace Engine

variable {engine : Engine} {files : Files} {year : Int64}

section Groups

variable {aggregation : Aggregation}

/-- The aggregation counts the rows of a group of medals. -/
def CountsMedals (aggregation : Aggregation) : Prop :=
  aggregation.label = "medal_count" ∧
    ∀ group : List Row, (∀ row ∈ group, (row.under "Medal").isMissing = false) →
      ∀ summary, aggregation.function.Summarises (group.map aggregation.cellOf) summary →
        summary = .integer (Int64.ofNat group.length)

theorem countsMedals_countPresent :
    CountsMedals ((Aggregation.countPresent "Medal").named "medal_count") := by
  refine ⟨rfl, fun group medals summary summarises => ?_⟩
  have all : (group.countP fun row => row.HasMedal) = group.length := by
    rw [List.countP_eq_length]
    intro row member
    exact decide_eq_true (medals row member)
  rw [countPresent_medals summarises, all]

theorem countsMedals_count : CountsMedals (Aggregation.count.named "medal_count") := by
  refine ⟨rfl, fun group _ summary summarises => ?_⟩
  exact summarises.trans (by rw [List.length_map])

/-- A query that groups the medals of a year and counts them finds how many each NOC won. -/
theorem EventGroups.medalCounts_eq (number : CountsMedals aggregation) {counted : Pipeline}
    {counts : Table} (groups : engine.EventGroups files (medalFilter year)
      ⟨["NOC", "Year"], [aggregation]⟩ counted counts) :
    ∃ reader events, engine.ReadsEvents files reader events ∧
      (∀ name ∈ medalColumns, name ∈ reader.names) ∧
      counts.names = ["NOC", "Year", "medal_count"] ∧
      (counts.rows.map fun row => row.cellsUnder ["NOC", "medal_count"]) =
        medalCounts year events := by
  obtain ⟨label, number⟩ := number
  obtain ⟨reader, events, reads, conditions, keys, names, rows⟩ :=
    byNoc (some year) (Row.IsMedalOf year) List.length groups
      (fun row whole => accepts_medalFilter_iff whole)
      (fun row medal other wanted => by
        rw [medal.2, Option.some.inj wanted, Cell.key])
      label (fun group medals => number group fun row member => (medals row member).1)
  refine ⟨reader, events, reads, ?_, names, ?_⟩
  · simp only [medalFilter, Condition.column, List.forall_mem_cons] at conditions
    simp only [groupColumns, Option.isSome_some, if_true, List.forall_mem_cons] at keys
    simp [medalColumns, conditions, keys]
  · rw [medalCounts, ← List.forall₂_eq_eq_eq, List.forall₂_map_left_iff,
      List.forall₂_map_right_iff]
    refine List.Forall₂.flip (rows.imp ?_)
    rintro noc row ⟨-, first, -, count⟩
    rw [flip, Row.cellsUnder, List.map_cons, List.map_singleton, first, count]
    rfl

end Groups

end Engine

end Medals
