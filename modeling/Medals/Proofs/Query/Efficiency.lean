import Medals.Proofs.Number.Rounding
import Medals.Proofs.Query.Rankings
import Medals.Proofs.Table.Mirror

/-!
# The efficiency ranking

`EfficiencyParams.ratings` lists, from the events and the tables that are looked up alone, what is
known of each NOC that won a medal, and `IsRate` says what a rate has to be: for a finite number of
units the quotient if they are above zero and it is finite (`IsRate.eq_of_finite`).
`Engine.efficiency_ratings` concludes that the ranking has just these NOCs with their rates, sorted by
the chosen metric.
-/

namespace Medals

theorem EfficiencyMetric.column_mem (metric : EfficiencyMetric) :
    metric.column ∈ EfficiencyParams.columns := by
  cases metric <;> simp [column, EfficiencyParams.columns]

/-- The cell is a count divided by units of some size: a finite number, and missing when the units
are no number above zero or the quotient is not finite. -/
def IsRate (scale : Double) (count units rate : Cell) : Prop :=
  ∃ number, count.toDouble? = some number ∧
    (rate = .missing ∨ ∃ value, rate = .number value ∧ value.isFinite = true) ∧
    (rate = .missing ↔ ∀ amount, units.toDouble? = some amount → amount.isPositive = true →
      (number / (amount / scale)).isFinite = false) ∧
    ∀ amount, units.toDouble? = some amount → rate ≠ .missing →
      rate = .number (number / (amount / scale))

/-- A rate in units of a finite number is the quotient if they are above zero and it is finite. -/
theorem IsRate.eq_of_finite {scale number amount : Double} {count units rate : Cell}
    (isRate : IsRate scale count units rate) (counted : count.toDouble? = some number)
    (measured : units.toDouble? = some amount) (finite : amount.isFinite = true) :
    rate = if 0 < amount.exactValue ∧ (number / (amount / scale)).isFinite = true then
        .number (number / (amount / scale))
      else .missing := by
  obtain ⟨same, again, -, missing, quotient⟩ := isRate
  obtain rfl : number = same := Option.some.inj (counted.symm.trans again)
  have missing : rate = .missing ↔
      (0 < amount.exactValue → (number / (amount / scale)).isFinite = false) := by
    simpa [measured, Double.isPositive_iff finite] using missing
  split
  · next both =>
    refine quotient amount measured fun absent => ?_
    simp [missing.mp absent both.1] at both
  · next either => exact missing.mpr fun above => by simpa [above] using either

/-- A rate in a whole number of units, up to the bound where doubles hold every integer. -/
theorem IsRate.eq_of_whole {scale number : Double} {whole : Int} {count rate : Cell}
    (isRate : IsRate scale count (.number (.ofInt whole)) rate)
    (counted : count.toDouble? = some number) (bounded : whole.natAbs ≤ Double.exactBound) :
    rate = if 0 < whole ∧ (number / (.ofInt whole / scale)).isFinite = true then
        .number (number / (.ofInt whole / scale))
      else .missing := by
  obtain ⟨value, finite⟩ := Double.exactValue_ofInt bounded
  simpa [value] using isRate.eq_of_finite counted rfl finite

theorem toDouble?_under (row : Row) (name : String) :
    ((row.get name).toOption).bind Cell.toDouble? = (row.under name).toDouble? := by
  unfold Row.under
  cases row.get name <;> rfl

/-- A rate is made of two cells. -/
theorem perUnit_congr {column : String} {row other : Row}
    (count : row.under "medal_count" = other.under "medal_count")
    (units : row.under column = other.under column) (scale : Double) :
    perUnit column scale row = perUnit column scale other := by
  unfold perUnit
  simp only [toDouble?_under, count, units]

theorem isRate_perUnit {row : Row} {count : Int64} (column : String) (scale : Double)
    (counted : row.under "medal_count" = .integer count) :
    IsRate scale (row.under "medal_count") (row.under column) (perUnit column scale row) := by
  refine ⟨Double.ofInt count.toInt, by rw [counted]; rfl, ?_⟩
  have number : (row.under "medal_count").toDouble? = some (Double.ofInt count.toInt) := by
    rw [counted]
    rfl
  unfold perUnit
  simp only [toDouble?_under, number]
  cases units : (row.under column).toDouble? with
  | none => simp
  | some amount =>
    by_cases positive : amount.isPositive = true
    · by_cases finite : (Double.ofInt count.toInt / (amount / scale)).isFinite = true
      · simp [positive, finite]
      · simp [positive, finite]
    · simp [positive]

/-- A rate is no integer. -/
theorem perUnit_ne_integer (column : String) (scale : Double) (row : Row) (value : Int64) :
    perUnit column scale row ≠ .integer value := by
  unfold perUnit
  simp only
  split
  · split
    · split <;> simp
    · simp
  · simp

namespace EfficiencyParams

/-- An event counts when it is a medal of the year and satisfies both selectors. -/
def Counts (params : EfficiencyParams) (row : Row) : Prop :=
  (row.HasMedal ∧ (row.under "Year").key = .integer params.year) ∧
    (∀ season ∈ selected? params.season, (row.under "Season").key = (Cell.text season).key) ∧
    ∀ medal ∈ selected? params.medal, (row.under "Medal").key = (Cell.text medal).key

instance (params : EfficiencyParams) : DecidablePred params.Counts := fun _ =>
  inferInstanceAs (Decidable ((_ ∧ _) ∧ (∀ season ∈ selected? params.season, _) ∧
    ∀ medal ∈ selected? params.medal, _))

/-- The events that count. -/
def counted (params : EfficiencyParams) (events : List Row) : List Row :=
  events.filter fun row => params.Counts row

/-- For each NOC the cell that names it first, what the countries and the statistics of the year say
of it, and how many medals it won. -/
def ratings (params : EfficiencyParams) (countries stats : Table) (events : List Row) :
    List (List Cell) :=
  (nocsOf (params.counted events)).map fun noc =>
    let won := eventsOf (params.counted events) noc
    let measure := stats.lookup ["NOC", "Year"] [noc, .integer params.year]
    [(won.headD default).under "NOC", countries.lookup ["NOC"] [noc] "region",
      measure "Country Name", .integer params.year, .integer (Int64.ofNat won.length),
      measure "Population", measure "GDP_USD"]

variable {params : EfficiencyParams} {row : Row}

theorem accepts_selectorCondition_iff {column : String} {selector : Option String} :
    (∀ condition ∈ selectorCondition column selector,
      condition.test.accepts (row.under condition.column) = true) ↔
      ∀ text ∈ selected? selector, (row.under column).key = (Cell.text text).key := by
  unfold selectorCondition
  cases selected? selector with
  | none => simp
  | some text =>
    rw [List.forall_mem_singleton, Condition.test, Condition.column,
      Test.accepts_equals_iff (Cell.key_text_ne_missing text)]
    simp

theorem accepts_filter_iff : (∀ condition ∈ params.filter.conditions,
    condition.test.accepts (row.under condition.column) = true) ↔ params.Counts row := by
  rw [filter, Counts, List.forall_mem_append, List.forall_mem_append, accepts_medals_iff,
    accepts_selectorCondition_iff, accepts_selectorCondition_iff, and_assoc]

end EfficiencyParams

/-- The row of a NOC says what the countries and the statistics of a year say of it. -/
structure Row.Knows (countries stats : Table) (year : Int64) (noc : CellKey) (group : List Row)
    (row : Row) : Prop where
  tells : row.Tells (some year) noc group group.length
  region : row.under "region" = countries.lookup ["NOC"] [noc] "region"
  measures : ∀ name ∈ ["Country Name", "Population", "GDP_USD"],
    row.under name = stats.lookup ["NOC", "Year"] [noc, .integer year] name

/-- A row with the same cells knows the same. -/
theorem Row.Knows.congr {countries stats : Table} {year : Int64} {noc : CellKey}
    {group : List Row} {row other : Row} (knows : row.Knows countries stats year noc group)
    (same : ∀ name ∈ EfficiencyParams.columns.take 7, other.under name = row.under name) :
    other.Knows countries stats year noc group := by
  simp only [EfficiencyParams.columns, List.take, List.forall_mem_cons] at same
  refine ⟨knows.tells.congr ?_, ?_, ?_⟩
  · simp [groupColumns, same]
  · rw [same.2.1, knows.region]
  · have measures := knows.measures
    simp only [List.forall_mem_cons] at measures ⊢
    simp [same, measures]

/-- The row of a NOC has a rate of its medals, and one for what it has of people and money. -/
structure Row.Rates (countries stats : Table) (year : Int64) (noc : CellKey) (group : List Row)
    (row : Row) : Prop where
  knows : row.Knows countries stats year noc group
  people : IsRate (Double.ofInt 1000000) (row.under "medal_count") (row.under "Population")
    (row.under "medals_per_million")
  money : IsRate (Double.ofInt 1000000000) (row.under "medal_count") (row.under "GDP_USD")
    (row.under "medals_per_billion_gdp")

namespace Engine

variable {engine : Engine} {files : Files} {cache after : Option TableCache}
  {params : EfficiencyParams}

/-- The counts of an efficiency ranking have a row for each NOC. -/
theorem EventGroups.efficiencyRows {counted : Pipeline} {counts : Table}
    (groups : engine.EventGroups files params.filter (.counting ["NOC", "Year"] "medal_count")
      counted counts) :
    ∃ reader events, engine.ReadsEvents files reader events ∧
      counts.names = groupColumns (some params.year) ++ ["medal_count"] ∧
      List.Forall₂ (fun noc row =>
          let won := eventsOf (params.counted events) noc
          row.Tells (some params.year) noc won won.length)
        (nocsOf (params.counted events)) counts.rows := by
  obtain ⟨reader, events, reads, -, -, names, rows⟩ :=
    byNoc (some params.year) params.Counts List.length groups
      (fun _ _ => EfficiencyParams.accepts_filter_iff)
      (fun _ counts year wanted => by rw [counts.1.2, Option.some.inj wanted]) rfl
      (fun _ _ _ summarises => summarises.trans (by rw [List.length_map]))
  exact ⟨reader, events, reads, names, rows⟩

/-- A country name that is added to rows without one changes nothing of what they say. -/
theorem under_of_withCountryName {table named : Table}
    (names : withCountryName table = .ok named) :
    named.rows.map Row.under = table.rows.map Row.under := by
  unfold withCountryName at names
  split at names
  · rw [Except.ok.inj names]
  · next absent =>
    rw [(Table.under_of_addColumn names).2]
    refine List.map_congr_left fun row member => ?_
    have unknown : "Country Name" ∉ row.names := by
      rw [table.aligned row member]
      exact mt position?_isSome.mpr absent
    exact Function.update_eq_self_iff.mpr (Row.under_of_not_mem unknown).symm

section Rows

variable {nocs : List CellKey} {eventsOf : CellKey → List Row} {year : Int64}
  {countries stats located measured named perMillion scored : Table}

/-- Located counts that are joined with the statistics of a year gain them. -/
theorem measuredRows (once : stats.KeyedOnce ["NOC", "Year"])
    (joins : located.join stats ["NOC", "Year"] .left = .ok measured)
    (names : ∀ name, name ∈ located.names ↔ name ∈ groupColumns (some year) ∨
      name = "medal_count" ∨ name = "region")
    (rows : List.Forall₂ (fun noc row =>
        row.Tells (some year) noc (eventsOf noc) (eventsOf noc).length ∧
          row.under "region" = countries.lookup ["NOC"] [noc] "region") nocs located.rows) :
    List.Forall₂ (fun noc row => row.Knows countries stats year noc (eventsOf noc)) nocs
      measured.rows := by
  refine forall₂_of_map rows (Table.under_of_join_once joins once) ?_
  rintro noc row made ⟨tells, region⟩ own
  have key : row.keysUnder ["NOC", "Year"] = [noc, .integer year] := by
    rw [Row.keysUnder, List.map_cons, List.map_singleton, tells.year year rfl, ← tells.key]
    rfl
  constructor
  · refine tells.congr fun name listed => ?_
    have held : name ∈ located.names := (names name).mpr (by
      simpa [or_assoc] using Or.inl (List.mem_append.mp listed))
    rw [own, if_pos held]
  · rw [own, if_pos ((names _).mpr (.inr (.inr rfl))), region]
  · intro name listed
    have new : name ∉ located.names := by
      rw [names]
      revert name
      simp [groupColumns]
    rw [own, if_neg new, key]

/-- A column of rates that is added to a row holds its rate and leaves its other cells. -/
theorem isRate_of_update {row made : Row} {count : Int64} {column new : String} {scale : Double}
    (own : ∀ name, made.under name = Function.update row.under new (perUnit column scale row) name)
    (counted : row.under "medal_count" = .integer count) (number : "medal_count" ≠ new)
    (units : column ≠ new) :
    IsRate scale (made.under "medal_count") (made.under column) (made.under new) ∧
      ∀ name, name ≠ new → made.under name = row.under name := by
  have kept : ∀ name, name ≠ new → made.under name = row.under name := by
    intro name other
    rw [own, Function.update_of_ne other]
  refine ⟨?_, kept⟩
  rw [kept _ number, kept _ units, own, Function.update_self]
  exact isRate_perUnit column scale counted

/-- The rates are added to what is known. -/
theorem ratedRows
    (rows : List.Forall₂ (fun noc row => row.Knows countries stats year noc (eventsOf noc)) nocs
      measured.rows)
    (names : withCountryName measured = .ok named)
    (people : named.addColumn "medals_per_million"
      (perUnit "Population" (Double.ofInt 1000000)) = .ok perMillion)
    (money : perMillion.addColumn "medals_per_billion_gdp"
      (perUnit "GDP_USD" (Double.ofInt 1000000000)) = .ok scored) :
    List.Forall₂ (fun noc row => row.Rates countries stats year noc (eventsOf noc)) nocs
      scored.rows := by
  have namedRows : List.Forall₂
      (fun noc row => row.Knows countries stats year noc (eventsOf noc)) nocs named.rows := by
    refine forall₂_of_map rows (under_of_withCountryName names) ?_
    intro noc row made knows own
    exact knows.congr fun name _ => own name
  have millionRows : List.Forall₂
      (fun noc row => row.Knows countries stats year noc (eventsOf noc) ∧
        IsRate (Double.ofInt 1000000) (row.under "medal_count") (row.under "Population")
          (row.under "medals_per_million")) nocs perMillion.rows := by
    refine forall₂_of_map namedRows (Table.under_of_addColumn people).2 ?_
    intro noc row made knows own
    obtain ⟨rate, kept⟩ := isRate_of_update own knows.tells.count (by decide) (by decide)
    refine ⟨knows.congr fun name listed => kept name ?_, rate⟩
    rintro rfl
    simp [EfficiencyParams.columns] at listed
  refine forall₂_of_map millionRows (Table.under_of_addColumn money).2 ?_
  rintro noc row made ⟨knows, people⟩ own
  obtain ⟨rate, kept⟩ := isRate_of_update own knows.tells.count (by decide) (by decide)
  refine ⟨knows.congr fun name listed => kept name ?_, ?_, rate⟩
  · rintro rfl
    simp [EfficiencyParams.columns] at listed
  · rw [kept _ (by decide), kept _ (by decide), kept _ (by decide)]
    exact people

end Rows

section Rates

variable {named perMillion scored : Table}

theorem not_isInteger_of_addColumn {table result : Table} {name column : String} {scale : Double}
    (adds : table.addColumn name (perUnit column scale) = .ok result) :
    ∀ row ∈ result.rows, ¬ (row.under name).IsInteger := by
  rintro row member ⟨value, integer⟩
  obtain ⟨-, rows⟩ := Table.under_of_addColumn adds
  have made : row.under ∈ result.rows.map Row.under := List.mem_map_of_mem member
  rw [rows] at made
  obtain ⟨origin, -, cells⟩ := List.mem_map.mp made
  rw [← cells, Function.update_self] at integer
  exact perUnit_ne_integer column scale origin value integer

/-- In the column that ranks there are only integers, or none. -/
theorem unmixed_metric
    (people : named.addColumn "medals_per_million"
      (perUnit "Population" (Double.ofInt 1000000)) = .ok perMillion)
    (money : perMillion.addColumn "medals_per_billion_gdp"
      (perUnit "GDP_USD" (Double.ofInt 1000000000)) = .ok scored)
    (whole : ∀ row ∈ scored.rows, (row.under "medal_count").IsInteger)
    (metric : EfficiencyMetric) :
    Cell.Unmixed (scored.rows.map fun row => row.under metric.column) := by
  cases metric with
  | medalCount => exact Cell.unmixed_of_isInteger (List.forall_mem_map.mpr whole)
  | medalsPerMillion =>
    have held : "medals_per_million" ∈ perMillion.names := by
      simp [(Table.under_of_addColumn people).1]
    have rates := (Table.makes_addColumn money).forall_under held (fun cell => ¬ cell.IsInteger)
      (not_isInteger_of_addColumn people)
    exact Cell.unmixed_of_not_isInteger (List.forall_mem_map.mpr rates)
  | medalsPerBillionGdp =>
    exact Cell.unmixed_of_not_isInteger
      (List.forall_mem_map.mpr (not_isInteger_of_addColumn money))

end Rates

/-- The efficiency ranking lists the NOCs that won medals of the year which satisfy the selectors, in
descending order of the chosen metric with missing ones last, equals in the order in which their
NOCs come first. What it says of a NOC is looked up in the countries and the statistics. The counts
are exact, and those of a ranking that is long enough add up to the number of all medals that
count. -/
theorem efficiency_ratings {ranking : QueryResult} (direct : engine.settings.nocCodesFile = none)
    (once : engine.CountriesOnce files cache)
    (statsOnce : engine.StatsOnce files (engine.load files .countries cache).2)
    (success : engine.efficiency files params cache = (.ok ranking, after)) :
    ∃ events countries stats listed ranked, engine.eventRows files = .ok events ∧
      (engine.load files .countries cache).1 = .ok countries ∧
      (engine.load files .stats (engine.load files .countries cache).2).1 = .ok stats ∧
      ranking.columns = EfficiencyParams.columns ∧
      (listed.map fun row => row.cellsUnder ["NOC", "region", "Country Name", "Year", "medal_count",
        "Population", "GDP_USD"]) = params.ratings countries stats events ∧
      (∀ row ∈ listed,
        IsRate (Double.ofInt 1000000) (row.under "medal_count") (row.under "Population")
            (row.under "medals_per_million") ∧
          IsRate (Double.ofInt 1000000000) (row.under "medal_count") (row.under "GDP_USD")
            (row.under "medals_per_billion_gdp")) ∧
      StableOrder (SortKey.order ⟨params.sortBy.column, true⟩) listed ranked ∧
      ranking.rows = ranked.take params.topN ∧
      ((nocsOf (params.counted events)).length ≤ params.topN → ranking.rows = ranked) ∧
      (events.length < 2 ^ 63 →
        (listed.map fun row => (row.under "medal_count").whole?) =
            (nocsOf (params.counted events)).map
              (fun noc => some ((eventsOf (params.counted events) noc).length : Int)) ∧
          ((nocsOf (params.counted events)).length ≤ params.topN →
            (ranking.rows.map fun row => (row.under "medal_count").whole?.getD 0).sum =
              (params.counted events).length)) := by
  obtain ⟨counted, counts, regions, middle, located, measured, named, perMillion, scored, sorted,
    answer, groups, loaded, joins, attached, names', people, money, sorts, projects, rfl⟩ :=
    efficiency_eq_ok_iff.mp success
  obtain ⟨stats, found, attaches⟩ := (attachStats_eq_ok_iff direct).mp attached
  obtain ⟨reader, events, reads, names, counts⟩ := groups.efficiencyRows
  obtain ⟨countries, consulted, layout, rows⟩ := locatedRows once loaded joins names counts
  have statsKeyed : stats.KeyedOnce ["NOC", "Year"] :=
    statsOnce stats (by rw [consulted, found])
  have rated := ratedRows (measuredRows statsKeyed attaches layout rows) names' people money
  have chosen := params.sortBy.column_mem
  have whole : ∀ row ∈ scored.rows, (row.under "medal_count").IsInteger := by
    intro row member
    obtain ⟨_, rates⟩ := exists_of_forall₂ rated row member
    exact ⟨_, rates.knows.tells.count⟩
  obtain ⟨listed, ranked, columns, lines, stable, top, all, exactly⟩ :=
    Table.listed_of_ranked ⟨params.sortBy.column, true⟩
      (fun noc => (eventsOf (params.counted events) noc).length) rated
      (fun noc row rates => rates.knows.tells.count) sorts
      (unmixed_metric people money whole params.sortBy) projects chosen
      (by simp [EfficiencyParams.columns])
  simp only [EfficiencyParams.columns, List.forall_mem_cons] at lines
  refine ⟨events, countries, stats, listed, ranked, reads.eventRows_eq,
    congrArg Prod.fst consulted, by rw [consulted, found], columns, ?_, ?_, stable, top, all,
    fun countable => ?_⟩
  · refine map_of_forall₂ lines ?_
    rintro noc row ⟨origin, ⟨⟨⟨-, first, inYear, count⟩, region, measures⟩, -, -⟩, cells⟩
    simp only [List.forall_mem_cons] at measures
    simp [Row.cellsUnder, cells, first, inYear params.year rfl, count, region, measures]
  · intro row member
    obtain ⟨noc, origin, rates, cells⟩ := exists_of_forall₂ lines row member
    simp only [cells]
    exact ⟨rates.people, rates.money⟩
  · obtain ⟨numbers, total⟩ := exactly fun noc _ => Nat.lt_of_le_of_lt
      ((List.length_filter_le _ _).trans (List.length_filter_le _ _)) countable
    refine ⟨numbers, fun enough => (total enough).trans ?_⟩
    exact congrArg Nat.cast sum_length_ofKey

section Example

/-- The three events and a medal of the other NOC. -/
def sharedMedals : List Row :=
  threeEvents ++ [⟨["NOC", "Year", "Medal"], [.text "B", .integer 1, .text "S"], rfl⟩]

/-- Four million people without money, and half a million with two billion. -/
def measuredYear : List Row :=
  [⟨["NOC", "Year", "Population", "GDP_USD"],
      [.text "A", .integer 1, .integer 4000000, .integer 0], rfl⟩,
    ⟨["NOC", "Year", "Population", "GDP_USD"],
      [.text "B", .integer 1, .integer 500000, .integer 2000000000], rfl⟩]

def measuredFiles : Files :=
  .tables ⟨CsvWriter.encoded 0x2c ["NOC", "Year", "Medal"] sharedMedals, 0⟩
    ⟨CsvWriter.encoded 0x2c ["NOC", "region"] oneCountry, 0⟩
    ⟨CsvWriter.encoded 0x2c ["NOC", "Year", "Population", "GDP_USD"] measuredYear, 0⟩

/-- Populations and money are read as numbers. -/
def readYear : List Row :=
  [⟨["NOC", "Year", "Population", "GDP_USD"],
      [.text "A", .integer 1, .number (.ofInt 4000000), .number (.ofInt 0)], rfl⟩,
    ⟨["NOC", "Year", "Population", "GDP_USD"],
      [.text "B", .integer 1, .number (.ofInt 500000), .number (.ofInt 2000000000)], rfl⟩]

theorem holds_measuredFiles {engine : Engine} (standard : engine.settings = .standard) :
    engine.Holds measuredFiles .events ["NOC", "Year", "Medal"] sharedMedals ∧
      engine.Holds measuredFiles .countries ["NOC", "region"] oneCountry ∧
      engine.Stores measuredFiles .stats ["NOC", "Year", "Population", "GDP_USD"]
        measuredYear :=
  holds_tables standard (by decide) (by decide) (by decide)

/-- Of the NOCs that won medals, the one with fewer people comes first though it won fewer, and
without money there is no rate for it. -/
theorem efficiency_of_four_events :
    ∃ (engine : Engine) (ranking : QueryResult), engine.settings = .standard ∧
      engine.efficiency measuredFiles ⟨1, none, none, .medalsPerMillion, 10⟩ none =
        (.ok ranking, none) ∧
      (ranking.rows.map fun row => row.cellsUnder EfficiencyParams.columns) =
        [[.text "B", .missing, .missing, .integer 1, .integer 1, .number (.ofInt 500000),
            .number (.ofInt 2000000000), .number (.ofInt 2), .number (.ofRatio false 1 2)],
          [.text "A", .text "R", .missing, .integer 1, .integer 2, .number (.ofInt 4000000),
            .number (.ofInt 0), .number (.ofRatio false 1 2), .missing]] := by
  obtain ⟨engine, standard⟩ := exists_standard
  obtain ⟨eventsHeld, countriesHeld, statsStored⟩ := holds_measuredFiles standard
  have reread : measuredYear.map (RowReader.reread (Settings.standard.readOptionsOf .stats)
      ["NOC", "Year", "Population", "GDP_USD"]) = readYear := by
    decide +kernel
  obtain ⟨reader, countries, stats, reads, loaded, held, once, measured, known, statsOnce, -,
    rankings⟩ := rankings_of_stored standard eventsHeld countriesHeld statsStored reread (by decide)
      (by decide)
  obtain ⟨ranking, made⟩ := rankings ⟨1, none, none, .medalsPerMillion, 10⟩ rfl
  refine ⟨engine, ranking, standard, made, ?_⟩
  have direct : engine.settings.nocCodesFile = none := by rw [standard]; rfl
  have middle : (engine.load measuredFiles .countries none).2 = none := congrArg Prod.snd loaded
  obtain ⟨events, others, measures, listed, ranked, read, found, again, -, lines, rates, stable, -,
    all, -⟩ := efficiency_ratings direct once (middle.symm ▸ statsOnce) made
  obtain rfl : sharedMedals = events := Except.ok.inj (reads.eventRows_eq.symm.trans read)
  obtain rfl : countries = others := Except.ok.inj ((congrArg Prod.fst loaded).symm.trans found)
  rw [middle] at again
  obtain rfl : stats = measures := Except.ok.inj ((congrArg Prod.fst measured).symm.trans again)
  have ratings : EfficiencyParams.ratings ⟨1, none, none, .medalsPerMillion, 10⟩ countries stats
      sharedMedals =
        [[.text "A", .text "R", .missing, .integer 1, .integer 2, .number (.ofInt 4000000),
            .number (.ofInt 0)],
          [.text "B", .missing, .missing, .integer 1, .integer 1, .number (.ofInt 500000),
            .number (.ofInt 2000000000)]] := by
    simp only [EfficiencyParams.ratings, Table.lookup, Table.rowsOf, held, known]
    decide +kernel
  rw [ratings] at lines
  obtain ⟨first, _, rfl, own, others⟩ := List.map_eq_cons_iff.mp lines
  obtain ⟨second, rfl, further⟩ := List.map_eq_singleton_iff.mp others
  simp only [Row.cellsUnder, List.map_cons, List.map_nil, List.cons.injEq, and_true] at own further
  simp only [List.forall_mem_cons, own, further] at rates
  obtain ⟨⟨people, money⟩, ⟨fewer, more⟩, -⟩ := rates
  have half : first.under "medals_per_million" = .number (.ofRatio false 1 2) :=
    (people.eq_of_whole rfl (by decide)).trans (by decide +kernel)
  have nothing : first.under "medals_per_billion_gdp" = .missing :=
    (money.eq_of_whole rfl (by decide)).trans (by decide +kernel)
  have two : second.under "medals_per_million" = .number (.ofInt 2) :=
    (fewer.eq_of_whole rfl (by decide)).trans (by decide +kernel)
  have alsoHalf : second.under "medals_per_billion_gdp" = .number (.ofRatio false 1 2) :=
    (more.eq_of_whole rfl (by decide)).trans (by decide +kernel)
  -- Of the two orders only the one with the greater rate first descends.
  obtain rfl | rfl := List.perm_pair.mp stable.perm
  · have ordered : SortKey.order ⟨"medals_per_million", true⟩ first second ≠ .gt :=
      List.rel_of_pairwise_cons stable.ordered List.mem_cons_self
    rw [SortKey.order, half, two] at ordered
    exact absurd (by decide +kernel) ordered
  · rw [all (by decide)]
    simp [Row.cellsUnder, EfficiencyParams.columns, own, further, half, nothing, two, alsoHalf]

end Example

end Engine

end Medals
