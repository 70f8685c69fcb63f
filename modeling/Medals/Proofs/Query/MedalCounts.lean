import Medals.Proofs.Engine.Paths
import Medals.Proofs.Query.Medals
import Medals.Proofs.Query.Totality
import Medals.Proofs.Query.Written

/-!
# Medal counts

The leaderboard, the efficiency ranking and the search count the medals of a year in ways of their
own. `Engine.medalCounts_agree` concludes that they agree on every NOC: the first two because both
list `medalCounts` and the tables they look up carry it to the answer, the third because its range
of years holds one integer only.
-/

namespace Medals

/-- The search for the medals that a NOC won in a year. -/
def SearchParams.medalsOf (noc : String) (year : Int64) (page pageSize : Nat)
    (order : SearchOrder) : SearchParams :=
  { SearchParams.standard with
    yearMin := some year, yearMax := some year, noc := some noc, medalOnly := true
    page, pageSize, order }

theorem SearchParams.filter_medalsOf {noc : String} (year : Int64) (page pageSize : Nat)
    (order : SearchOrder) (selector : selected? (some noc) = some noc) :
    (SearchParams.medalsOf noc year page pageSize order).filter = ⟨[.present "Medal",
      .range "Year" (some (.integer year)) (some (.integer year)), .equals "NOC" (.text noc)]⟩ := by
  have anywhere : SearchParams.selectorCondition "NOC" (some noc) =
      [.equals "NOC" (.text noc)] := by
    rw [SearchParams.selectorCondition, selector]
  rw [SearchParams.filter, SearchParams.medalsOf, anywhere]
  rfl

namespace Engine

variable {engine : Engine} {files : Files} {reader : RowReader} {events : List Row} {year : Int64}

section Queries

variable {cache after : Option TableCache}

/-- The countries that are loaded through a cache have at most one row for each NOC key. -/
def CountriesOnce (engine : Engine) (files : Files) (cache : Option TableCache) : Prop :=
  ∀ countries, (engine.load files .countries cache).1 = .ok countries →
    countries.KeyedOnce ["NOC"]

/-- The statistics that are loaded through a cache have at most one row for each key of NOC and
year. -/
def StatsOnce (engine : Engine) (files : Files) (cache : Option TableCache) : Prop :=
  ∀ stats, (engine.load files .stats cache).1 = .ok stats → stats.KeyedOnce ["NOC", "Year"]

/-- The regions that a query joins have one row for each NOC key if the countries have. -/
theorem keyedOnce_of_loadRegions {regions : Table}
    (once : engine.CountriesOnce files cache)
    (loaded : engine.loadRegions files cache = (.ok regions, after)) :
    regions.KeyedOnce ["NOC"] := by
  obtain ⟨countries, found, projected⟩ := loadRegions_eq_ok_iff.mp loaded
  exact (once countries (congrArg Prod.fst found)).project projected (by simp)

/-- The leaderboard of a year lists how many medals each NOC won. -/
theorem leaderboard_medalCounts {topN : Nat} {board : QueryResult}
    (once : engine.CountriesOnce files cache)
    (success : engine.leaderboard files ⟨some year, topN⟩ cache = (.ok board, after))
    (enough : ∀ events, engine.eventRows files = .ok events →
      (medalCounts year events).length ≤ topN) :
    ∃ reader events, engine.ReadsEvents files reader events ∧
      (∀ name ∈ medalColumns, name ∈ reader.names) ∧
      board.columns = ["NOC", "region", "Year", "medal_count"] ∧
      (board.rows.map fun row => row.cellsUnder ["NOC", "medal_count"]).Perm
        (medalCounts year events) := by
  obtain ⟨counted, counts, regions, joined, sorted, answer, groups, loaded, joins, sorts, projects,
    rfl⟩ := leaderboard_eq_ok_iff.mp success
  obtain ⟨reader, events, reads, columns, names, cells⟩ :=
    EventGroups.medalCounts_eq countsMedals_countPresent groups
  have held : ∀ name ∈ ["NOC", "medal_count"], name ∈ counts.names := by simp [names]
  have few : counts.rows.length ≤ topN := by simpa [← cells] using enough events reads.eventRows_eq
  have first := Table.carries_join joins (keyedOnce_of_loadRegions once loaded) held
  have second := first.trans (Table.carries_sortBy sorts first.names)
  have third := second.trans (Table.carries_head (second.size_eq ▸ few) second.names)
  have last := third.trans (Table.carries_project projects (by simp [LeaderboardParams.columns]))
  obtain ⟨-, -, chosen, -⟩ := Table.rows_of_project projects
  exact ⟨reader, events, reads, columns, chosen, cells ▸ last.cells⟩

theorem carries_withCountryName {kept : List String} {table result : Table}
    (named : withCountryName table = .ok result) (held : ∀ name ∈ kept, name ∈ table.names) :
    Table.Carries kept table result := by
  unfold withCountryName at named
  split at named
  · obtain rfl := Except.ok.inj named
    exact .refl held
  · exact Table.carries_addColumn named held

/-- The efficiency ranking of a year lists how many medals each NOC won. -/
theorem efficiency_medalCounts {params : EfficiencyParams} {ranking : QueryResult}
    (direct : engine.settings.nocCodesFile = none)
    (anySeason : selected? params.season = none) (anyMedal : selected? params.medal = none)
    (once : engine.CountriesOnce files cache)
    (statsOnce : engine.StatsOnce files (engine.load files .countries cache).2)
    (success : engine.efficiency files params cache = (.ok ranking, after))
    (enough : ∀ events, engine.eventRows files = .ok events →
      (medalCounts params.year events).length ≤ params.topN) :
    ∃ reader events, engine.ReadsEvents files reader events ∧
      ranking.columns = EfficiencyParams.columns ∧
      (ranking.rows.map fun row => row.cellsUnder ["NOC", "medal_count"]).Perm
        (medalCounts params.year events) := by
  obtain ⟨counted, counts, regions, middle, located, measured, named, perMillion, scored, sorted,
    answer, groups, loaded, joins, attached, names', people, money, sorts, projects, rfl⟩ :=
    efficiency_eq_ok_iff.mp success
  obtain ⟨stats, found, attaches⟩ := (attachStats_eq_ok_iff direct).mp attached
  have filter : params.filter = medalFilter params.year := by
    simp [EfficiencyParams.filter, EfficiencyParams.selectorCondition, anySeason, anyMedal,
      medalFilter]
  rw [filter] at groups
  obtain ⟨reader, events, reads, columns, names, cells⟩ :=
    EventGroups.medalCounts_eq countsMedals_count groups
  have held : ∀ name ∈ ["NOC", "medal_count"], name ∈ counts.names := by simp [names]
  have few : counts.rows.length ≤ params.topN := by
    simpa [← cells] using enough events reads.eventRows_eq
  obtain ⟨countries, consulted, -⟩ := loadRegions_eq_ok_iff.mp loaded
  have statsKeyed : stats.KeyedOnce ["NOC", "Year"] :=
    statsOnce stats (by rw [consulted, found])
  -- No step changes the cells of NOC and count, since both are on the left of every join.
  have located' := Table.carries_join joins (keyedOnce_of_loadRegions once loaded) held
  have measured' := located'.trans (Table.carries_join attaches statsKeyed located'.names)
  have named' := measured'.trans (carries_withCountryName names' measured'.names)
  have people' := named'.trans (Table.carries_addColumn people named'.names)
  have scored' := people'.trans (Table.carries_addColumn money people'.names)
  have sorted' := scored'.trans (Table.carries_sortBy sorts scored'.names)
  have top := sorted'.trans (Table.carries_head (sorted'.size_eq ▸ few) sorted'.names)
  have last := top.trans (Table.carries_project projects (by simp [EfficiencyParams.columns]))
  obtain ⟨-, -, chosen, -⟩ := Table.rows_of_project projects
  exact ⟨reader, events, reads, chosen, cells ▸ last.cells⟩

/-- A search for the medals of a NOC finds all of them, however they are paged. -/
theorem ReadsEvents.search_medalsOf (reads : engine.ReadsEvents files reader events)
    (columns : ∀ name ∈ medalColumns, name ∈ reader.names)
    (small : year.toInt.natAbs < Double.exactBound) {noc : String}
    (selector : selected? (some noc) = some noc) (page : Nat) {pageSize : Nat}
    (positive : 0 < pageSize) (capped : pageSize ≤ engine.settings.maxPageSize)
    (order : SearchOrder) :
    ∃ found, engine.search files (.medalsOf noc year page pageSize order) = .ok found ∧
      found.total = (ofKey Row.nocKey (medalsOf year events) (Cell.text noc).key).length := by
  have filter := SearchParams.filter_medalsOf year page pageSize order selector
  simp only [medalColumns, List.forall_mem_cons] at columns
  obtain ⟨bound, binds⟩ := (@Filter.exists_bind_iff
    (SearchParams.medalsOf noc year page pageSize order).filter reader.names).mpr
      (by simp [filter, Condition.column, columns])
  obtain ⟨found, made, total⟩ := reads.search positive capped binds
    (show Projection.bindOptional reader.names none = .ok none from rfl) columns.2.1
  refine ⟨found, made, ?_⟩
  rw [total, ofKey, Medals.medalsOf, List.filter_filter]
  refine congrArg List.length (List.filter_congr fun row member => ?_)
  rw [← reads.aligned row member, filter] at binds
  rw [Bool.eq_iff_iff, Filter.accepts_iff binds, List.forall_mem_cons, List.forall_mem_cons,
    List.forall_mem_singleton]
  have whole := reads.integerOrMissing_year row member
  rw [Bool.and_eq_true, decide_eq_true_iff, decide_eq_true_iff]
  simp only [Condition.test, Condition.column, Test.accepts_present, Bool.not_eq_true',
    Test.accepts_single_iff small whole, Test.accepts_equals_iff (Cell.key_text_ne_missing noc)]
  constructor
  · rintro ⟨medal, inYear, same⟩
    exact ⟨same, medal, inYear⟩
  · rintro ⟨same, medal, inYear⟩
    exact ⟨medal, inYear, same⟩

end Queries

section Agreement

/-- A text that names a NOC in the counts names it in all its medals. -/
theorem count_of_mem_medalCounts {noc : String} {count : Cell}
    (listed : [.text noc, count] ∈ medalCounts year events) :
    count = .integer (Int64.ofNat
      (ofKey Row.nocKey (medalsOf year events) (Cell.text noc).key).length) := by
  obtain ⟨key, member, same⟩ := List.mem_map.mp listed
  obtain ⟨first, rest, won⟩ := List.exists_cons_of_ne_nil (ofKey_ne_nil member)
  have own : first ∈ ofKey Row.nocKey (medalsOf year events) key := by simp [won]
  have keyed : first.nocKey = key := (mem_ofKey.mp own).2
  simp only [List.cons.injEq, and_true] at same
  rw [won, List.headD_cons] at same
  rw [Row.nocKey, same.1] at keyed
  rw [← same.2, ← won, keyed]

/-- The leaderboard and the efficiency ranking of a year list the same NOCs with the same number of
medals, and a search for the medals of one of them finds this number. The tables that are looked up
have at most one row for each key, doubles tell the year from all others, and both lists are long
enough for all NOCs. -/
theorem medalCounts_agree {topN : Nat} {params : EfficiencyParams}
    {boardCache boardAfter rankingCache rankingAfter : Option TableCache}
    {board ranking : QueryResult} (direct : engine.settings.nocCodesFile = none)
    (small : params.year.toInt.natAbs < 2 ^ 53)
    (anySeason : selected? params.season = none) (anyMedal : selected? params.medal = none)
    (boardOnce : engine.CountriesOnce files boardCache)
    (rankingOnce : engine.CountriesOnce files rankingCache)
    (statsOnce : engine.StatsOnce files (engine.load files .countries rankingCache).2)
    (boardMade : engine.leaderboard files ⟨some params.year, topN⟩ boardCache =
      (.ok board, boardAfter))
    (rankingMade : engine.efficiency files params rankingCache = (.ok ranking, rankingAfter))
    (enough : ∀ events, engine.eventRows files = .ok events →
      (medalCounts params.year events).length ≤ topN ∧
        (medalCounts params.year events).length ≤ params.topN) :
    (∀ name ∈ ["NOC", "medal_count"], name ∈ board.columns ∧ name ∈ ranking.columns) ∧
      (board.rows.map fun row => row.cellsUnder ["NOC", "medal_count"]).Perm
        (ranking.rows.map fun row => row.cellsUnder ["NOC", "medal_count"]) ∧
      ∀ row ∈ board.rows ++ ranking.rows, ∀ noc, row.under "NOC" = .text noc →
        selected? (some noc) = some noc → ∀ page pageSize order, 0 < pageSize →
          pageSize ≤ engine.settings.maxPageSize →
            ∃ found, engine.search files (.medalsOf noc params.year page pageSize order) =
                .ok found ∧
              row.under "medal_count" = .integer (Int64.ofNat found.total) := by
  obtain ⟨reader, events, reads, columns, boardColumns, boardCells⟩ :=
    leaderboard_medalCounts boardOnce boardMade fun events read => (enough events read).1
  obtain ⟨_, others, again, rankingColumns, rankingCells⟩ :=
    efficiency_medalCounts direct anySeason anyMedal rankingOnce statsOnce rankingMade
      fun events read => (enough events read).2
  obtain rfl : events = others :=
    Except.ok.inj (reads.eventRows_eq.symm.trans again.eventRows_eq)
  refine ⟨?_, boardCells.trans rankingCells.symm, ?_⟩
  · simp [boardColumns, rankingColumns, EfficiencyParams.columns]
  · intro row member noc named selector page pageSize order positive capped
    have listed : row.cellsUnder ["NOC", "medal_count"] ∈ medalCounts params.year events := by
      rcases List.mem_append.mp member with inBoard | inRanking
      · exact boardCells.mem_iff.mp (List.mem_map_of_mem inBoard)
      · exact rankingCells.mem_iff.mp (List.mem_map_of_mem inRanking)
    obtain ⟨found, made, total⟩ :=
      reads.search_medalsOf columns small selector page positive capped order
    refine ⟨found, made, ?_⟩
    rw [Row.cellsUnder, List.map_cons, List.map_singleton, named] at listed
    rw [total, count_of_mem_medalCounts listed]

section Example

/-- Two medals of one NOC and an event without a medal. -/
def threeEvents : List Row :=
  [⟨["NOC", "Year", "Medal"], [.text "A", .integer 1, .text "G"], rfl⟩,
    ⟨["NOC", "Year", "Medal"], [.text "A", .integer 1, .text "S"], rfl⟩,
    ⟨["NOC", "Year", "Medal"], [.text "B", .integer 1, .missing], rfl⟩]

def oneCountry : List Row :=
  [⟨["NOC", "region"], [.text "A", .text "R"], rfl⟩]

def oneYear : List Row :=
  [⟨["NOC", "Year", "Population", "GDP_USD"], [.text "A", .integer 1, .missing, .missing], rfl⟩]

/-- Events, a country and the statistics of a year as files. -/
def eventFiles (events : List Row) : Files :=
  .tables ⟨CsvWriter.encoded 0x2c ["NOC", "Year", "Medal"] events, 0⟩
    ⟨CsvWriter.encoded 0x2c ["NOC", "region"] oneCountry, 0⟩
    ⟨CsvWriter.encoded 0x2c ["NOC", "Year", "Population", "GDP_USD"] oneYear, 0⟩

/-- The files of the looked up tables are there whatever the events are. -/
theorem find_eventFiles (events : List Row) :
    (eventFiles events).find "data/countries.csv" =
        .file ⟨CsvWriter.encoded 0x2c ["NOC", "region"] oneCountry, 0⟩ ∧
      (eventFiles events).find "data/country_year_stats.csv" =
        .file ⟨CsvWriter.encoded 0x2c ["NOC", "Year", "Population", "GDP_USD"] oneYear, 0⟩ :=
  (Files.find_tables _ _ _).2

/-- Tables at their standard places are held as they were written. -/
theorem holds_tables (standard : engine.settings = .standard) {events countries stats : List Row}
    (eventsTold : RowReader.Told (Settings.standard.readOptionsOf .events) ["NOC", "Year", "Medal"]
      events)
    (countriesTold : RowReader.Told (Settings.standard.readOptionsOf .countries) ["NOC", "region"]
      countries)
    (writable : RowReader.Writable ["NOC", "Year", "Population", "GDP_USD"] stats) :
    let files : Files := .tables ⟨CsvWriter.encoded 0x2c ["NOC", "Year", "Medal"] events, 0⟩
      ⟨CsvWriter.encoded 0x2c ["NOC", "region"] countries, 0⟩
      ⟨CsvWriter.encoded 0x2c ["NOC", "Year", "Population", "GDP_USD"] stats, 0⟩
    engine.Holds files .events ["NOC", "Year", "Medal"] events ∧
      engine.Holds files .countries ["NOC", "region"] countries ∧
      engine.Stores files .stats ["NOC", "Year", "Population", "GDP_USD"] stats := by
  intro files
  obtain ⟨eventFile, countryFile, statsFile⟩ := Files.find_tables
    ⟨CsvWriter.encoded 0x2c ["NOC", "Year", "Medal"] events, 0⟩
    ⟨CsvWriter.encoded 0x2c ["NOC", "region"] countries, 0⟩
    ⟨CsvWriter.encoded 0x2c ["NOC", "Year", "Population", "GDP_USD"] stats, 0⟩
  exact ⟨holds_of_standard standard (Settings.standard_path .events (by decide)) eventFile
      eventsTold,
    holds_of_standard standard (Settings.standard_path .countries (by decide)) countryFile
      countriesTold,
    stores_of_standard standard (Settings.standard_path .stats (by decide)) statsFile writable⟩

theorem holds_eventFiles (standard : engine.settings = .standard) {events : List Row}
    (told : RowReader.Told (Settings.standard.readOptionsOf .events) ["NOC", "Year", "Medal"]
      events) :
    engine.Holds (eventFiles events) .events ["NOC", "Year", "Medal"] events ∧
      engine.Holds (eventFiles events) .countries ["NOC", "region"] oneCountry ∧
      engine.Holds (eventFiles events) .stats ["NOC", "Year", "Population", "GDP_USD"] oneYear := by
  obtain ⟨eventsHeld, countriesHeld, statsStored⟩ := holds_tables standard told
    (show RowReader.Told _ _ oneCountry by decide) (show RowReader.Writable _ oneYear by decide)
  exact ⟨eventsHeld, countriesHeld, statsStored, by rw [standard]; decide⟩

/-- The three tables as files. -/
def threeEventFiles : Files :=
  .tables ⟨CsvWriter.encoded 0x2c ["NOC", "Year", "Medal"] threeEvents, 0⟩
    ⟨CsvWriter.encoded 0x2c ["NOC", "region"] oneCountry, 0⟩
    ⟨CsvWriter.encoded 0x2c ["NOC", "Year", "Population", "GDP_USD"] oneYear, 0⟩

theorem holds_threeEventFiles (standard : engine.settings = .standard) :
    engine.Holds threeEventFiles .events ["NOC", "Year", "Medal"] threeEvents ∧
      engine.Holds threeEventFiles .countries ["NOC", "region"] oneCountry ∧
      engine.Holds threeEventFiles .stats ["NOC", "Year", "Population", "GDP_USD"] oneYear :=
  holds_eventFiles standard (by decide)

/-- The leaderboard, the ranking and the search all count two medals of the one NOC that won any. -/
theorem medalCounts_of_three_events :
    ∃ (engine : Engine) (board ranking : QueryResult), engine.settings = .standard ∧
      engine.leaderboard threeEventFiles ⟨some 1, 10⟩ none = (.ok board, none) ∧
      engine.efficiency threeEventFiles ⟨1, none, none, .medalCount, 10⟩ none =
        (.ok ranking, none) ∧
      (board.rows.map fun row => row.cellsUnder ["NOC", "medal_count"]) =
        [[.text "A", .integer 2]] ∧
      (ranking.rows.map fun row => row.cellsUnder ["NOC", "medal_count"]) =
        [[.text "A", .integer 2]] ∧
      ∃ found, engine.search threeEventFiles (.medalsOf "A" 1 1 50 .year) = .ok found ∧
        .integer 2 = Cell.integer (Int64.ofNat found.total) := by
  obtain ⟨engine, standard⟩ := exists_standard
  have direct : engine.settings.nocCodesFile = none := by rw [standard]; rfl
  have anything : selected? none = none := rfl
  have cap : 50 ≤ engine.settings.maxPageSize := by rw [standard]; decide
  obtain ⟨events, regions, measures⟩ := holds_threeEventFiles standard
  obtain ⟨reader, reads, names⟩ := events.readsEvents
  obtain ⟨countries, loaded, held, same⟩ := regions.load
  obtain ⟨stats, measured, known, sameStats⟩ := measures.load
  have columns : ∀ name ∈ medalColumns, name ∈ reader.names := by
    rw [names]
    decide
  obtain ⟨board, boardMade⟩ := exists_leaderboard reads columns loaded
    (by rw [held]; decide) ⟨some 1, 10⟩
  obtain ⟨ranking, rankingMade⟩ := exists_efficiency direct reads columns
    ⟨1, none, none, .medalCount, 10⟩ (.inl anything) loaded (by rw [held]; decide) measured
    (by rw [known]; decide) (by rw [known]; decide)
  have once : engine.CountriesOnce threeEventFiles none := by
    intro other found
    obtain rfl : countries = other := Except.ok.inj ((congrArg Prod.fst loaded).symm.trans found)
    rw [Table.KeyedOnce, same]
    exact List.pairwise_singleton _ _
  have statsOnce : engine.StatsOnce threeEventFiles
      (engine.load threeEventFiles .countries none).2 := by
    intro other found
    rw [loaded] at found
    obtain rfl : stats = other := Except.ok.inj ((congrArg Prod.fst measured).symm.trans found)
    rw [Table.KeyedOnce, sameStats]
    exact List.pairwise_singleton _ _
  have counts : medalCounts 1 threeEvents = [[.text "A", .integer 2]] := by decide
  have enough : ∀ others, engine.eventRows threeEventFiles = .ok others →
      (medalCounts 1 others).length ≤ 10 ∧ (medalCounts 1 others).length ≤ 10 := by
    intro others read
    obtain rfl : threeEvents = others := Except.ok.inj (reads.eventRows_eq.symm.trans read)
    rw [counts]
    decide
  -- The agreement alone leaves open what is listed; the leaderboard lists `medalCounts`.
  obtain ⟨-, agree, searched⟩ := @medalCounts_agree engine threeEventFiles 10
    ⟨1, none, none, .medalCount, 10⟩ none none none none board ranking direct (by decide) anything
    anything once once statsOnce boardMade rankingMade enough
  obtain ⟨_, others, again, -, -, cells⟩ :=
    leaderboard_medalCounts once boardMade fun others read => (enough others read).1
  obtain rfl : threeEvents = others :=
    Except.ok.inj (reads.eventRows_eq.symm.trans again.eventRows_eq)
  rw [counts] at cells
  have listed := List.perm_singleton.mp cells
  obtain ⟨row, rows, told⟩ := List.map_eq_singleton_iff.mp listed
  simp only [Row.cellsUnder, List.map_cons, List.map_nil, List.cons.injEq, and_true] at told
  obtain ⟨found, made, total⟩ :=
    searched row (by simp [rows]) "A" told.1 (by decide) 1 50 .year (by decide) cap
  exact ⟨engine, board, ranking, standard, boardMade, rankingMade, listed,
    List.perm_singleton.mp (agree.symm.trans cells), found, made, told.2 ▸ total⟩

end Example

end Agreement

end Engine

end Medals
