import Medals.Proofs.Query.Rankings

/-!
# The leaderboard

`LeaderboardParams.standings` lists, from the events and the countries alone, what a leaderboard has
to say of each NOC. `Engine.leaderboard_standings` concludes that the leaderboard shows the first of
these lines, sorted by their counts.
-/

namespace Medals

namespace LeaderboardParams

/-- An event counts when all years do, or when it is a medal of the wanted year. -/
def Counts (params : LeaderboardParams) (row : Row) : Prop :=
  ∀ year ∈ params.year, row.HasMedal ∧ (row.under "Year").key = .integer year

instance (params : LeaderboardParams) : DecidablePred params.Counts := fun _ =>
  Option.decidableForallMem params.year

/-- The events that count. -/
def counted (params : LeaderboardParams) (events : List Row) : List Row :=
  events.filter fun row => params.Counts row

/-- How many medals a NOC won. -/
def medals (params : LeaderboardParams) (events : List Row) (noc : CellKey) : Nat :=
  (eventsOf (params.counted events) noc).countP fun row => row.HasMedal

/-- For each NOC the cell that names it first, its region, the year if one is wanted, and how many
medals it won. -/
def standings (params : LeaderboardParams) (countries : Table) (events : List Row) :
    List (List Cell) :=
  (nocsOf (params.counted events)).map fun noc =>
    [((eventsOf (params.counted events) noc).headD default).under "NOC",
      countries.lookup ["NOC"] [noc] "region"] ++
    (params.year.map Cell.integer).toList ++ [.integer (Int64.ofNat (params.medals events noc))]

variable {params : LeaderboardParams} {row : Row}

theorem accepts_filter_iff : (∀ condition ∈ params.filter.conditions,
    condition.test.accepts (row.under condition.column) = true) ↔ params.Counts row := by
  unfold filter Counts
  cases params.year with
  | none => simp [Filter.all]
  | some year => simp only [accepts_medals_iff, Option.mem_some_iff, forall_eq']

end LeaderboardParams

namespace Engine

variable {engine : Engine} {files : Files} {cache after : Option TableCache}
  {params : LeaderboardParams}

/-- The counts of a leaderboard have a row for each NOC. -/
theorem EventGroups.leaderboardRows {counted : Pipeline} {counts : Table}
    (groups : engine.EventGroups files params.filter params.grouping counted counts) :
    ∃ reader events, engine.ReadsEvents files reader events ∧
      counts.names = groupColumns params.year ++ ["medal_count"] ∧
      List.Forall₂ (fun noc row =>
          row.Tells params.year noc (eventsOf (params.counted events) noc)
            (params.medals events noc))
        (nocsOf (params.counted events)) counts.rows := by
  obtain ⟨reader, events, reads, -, -, names, rows⟩ :=
    byNoc params.year params.Counts (fun group => group.countP fun row => row.HasMedal) groups
      (fun _ _ => LeaderboardParams.accepts_filter_iff)
      (fun _ counts year wanted => (counts year wanted).2) rfl
      (fun _ _ _ summarises => countPresent_medals summarises)
  exact ⟨reader, events, reads, names, rows⟩

/-- The leaderboard shows the first of the standings in descending order of their medals, those with
equally many in the order in which their NOCs come first. The counts are exact, and those of a
leaderboard that is long enough add up to the number of all medals that count. -/
theorem leaderboard_standings {board : QueryResult} (once : engine.CountriesOnce files cache)
    (success : engine.leaderboard files params cache = (.ok board, after)) :
    ∃ events countries listed ranked, engine.eventRows files = .ok events ∧
      (engine.load files .countries cache).1 = .ok countries ∧ board.columns = params.columns ∧
      (listed.map fun row => row.cellsUnder params.columns) = params.standings countries events ∧
      StableOrder (SortKey.order ⟨"medal_count", true⟩) listed ranked ∧
      board.rows = ranked.take params.topN ∧
      (events.length < 2 ^ 63 →
        (listed.map fun row => (row.under "medal_count").whole?) =
            (nocsOf (params.counted events)).map (fun noc => some (params.medals events noc : Int)) ∧
          ((nocsOf (params.counted events)).length ≤ params.topN →
            (board.rows.map fun row => (row.under "medal_count").whole?.getD 0).sum =
              (params.counted events).countP fun row => row.HasMedal)) := by
  obtain ⟨counted, counts, regions, joined, sorted, answer, groups, loaded, joins, sorts, projects,
    rfl⟩ := leaderboard_eq_ok_iff.mp success
  obtain ⟨reader, events, reads, names, counts⟩ := groups.leaderboardRows
  obtain ⟨countries, found, -, rows⟩ := locatedRows once loaded joins names counts
  have unmixed : Cell.Unmixed (joined.rows.map fun row => row.under "medal_count") := by
    refine Cell.unmixed_of_isInteger (List.forall_mem_map.mpr fun row member => ?_)
    obtain ⟨_, tells, -⟩ := exists_of_forall₂ rows row member
    exact ⟨_, tells.count⟩
  have chosen : "medal_count" ∈ params.columns := by
    unfold LeaderboardParams.columns
    split <;> simp
  obtain ⟨listed, ranked, columns, lines, stable, top, -, exactly⟩ :=
    Table.listed_of_ranked ⟨"medal_count", true⟩ (params.medals events) rows
      (fun noc row told => told.1.count) sorts unmixed projects chosen chosen
  refine ⟨events, countries, listed, ranked, reads.eventRows_eq, congrArg Prod.fst found, columns,
    ?_, stable, top, fun countable => ?_⟩
  · refine map_of_forall₂ lines ?_
    rintro noc row ⟨origin, ⟨⟨-, first, inYear, count⟩, region⟩, cells⟩
    unfold LeaderboardParams.columns at cells ⊢
    cases wanted : params.year with
    | none =>
      simp only [wanted, Option.isSome_none, Bool.false_eq_true, if_false,
        List.forall_mem_cons] at cells
      simp [Row.cellsUnder, cells, first, count, region]
    | some year =>
      simp only [wanted, Option.isSome_some, if_true, List.forall_mem_cons] at cells
      simp [Row.cellsUnder, cells, first, count, region, inYear year wanted]
  · have small : ∀ noc ∈ nocsOf (params.counted events), params.medals events noc < 2 ^ 63 := by
      intro noc _
      refine Nat.lt_of_le_of_lt (List.countP_le_length.trans ?_) countable
      exact (List.length_filter_le _ _).trans (List.length_filter_le _ _)
    obtain ⟨numbers, total⟩ := exactly small
    refine ⟨numbers, fun enough => (total enough).trans ?_⟩
    exact congrArg Nat.cast (sum_countP_ofKey _)

section Example

/-- Over all years a NOC without medals is listed too, last and without a region of its own. -/
theorem leaderboard_of_three_events :
    ∃ (engine : Engine) (board : QueryResult), engine.settings = .standard ∧
      engine.leaderboard (eventFiles threeEvents) ⟨none, 10⟩ none = (.ok board, none) ∧
      (board.rows.map fun row => row.cellsUnder ["NOC", "region", "medal_count"]) =
        [[.text "A", .text "R", .integer 2], [.text "B", .missing, .integer 0]] := by
  obtain ⟨engine, standard⟩ := exists_standard
  obtain ⟨reader, countries, -, reads, loaded, held, once, -, -, -, boards, -⟩ :=
    rankings_of_eventFiles standard (show RowReader.Told _ _ threeEvents by decide)
  obtain ⟨board, made⟩ := boards ⟨none, 10⟩
  refine ⟨engine, board, standard, made, ?_⟩
  obtain ⟨events, others, listed, ranked, read, found, -, lines, stable, top, -⟩ :=
    leaderboard_standings once made
  obtain rfl : threeEvents = events := Except.ok.inj (reads.eventRows_eq.symm.trans read)
  obtain rfl : countries = others := Except.ok.inj ((congrArg Prod.fst loaded).symm.trans found)
  have standings : LeaderboardParams.standings ⟨none, 10⟩ countries threeEvents =
      [[.text "A", .text "R", .integer 2], [.text "B", .missing, .integer 0]] := by
    simp only [LeaderboardParams.standings, Table.lookup, Table.rowsOf, held]
    decide
  have columns : LeaderboardParams.columns ⟨none, 10⟩ = ["NOC", "region", "medal_count"] := rfl
  rw [standings, columns] at lines
  obtain ⟨first, rest, rfl, own, others⟩ := List.map_eq_cons_iff.mp lines
  obtain ⟨second, rfl, further⟩ := List.map_eq_singleton_iff.mp others
  have two : first.under "medal_count" = .integer 2 := congrArg (List.getD · 2 .missing) own
  have zero : second.under "medal_count" = .integer 0 := congrArg (List.getD · 2 .missing) further
  -- The standings come in the order of their medals already.
  obtain rfl := SortKey.eq_of_ordered stable (by simp [Cell.Unmixed, two, zero]) (by
    simp only [List.pairwise_pair, SortKey.order, two, zero]
    decide)
  rw [top, List.take_of_length_le (by simp), lines]

end Example

end Engine

end Medals
