import Medals.Proofs.Query.Efficiency
import Medals.Proofs.Query.Records

/-!
# Efficiency of reordered events

The order of the events decides which cell names a NOC first and in which order equal NOCs are
listed, and nothing else. `Reflects` is kept from the counts to the rates, and
`Engine.efficiency_reordered` concludes that the values of the chosen metric are the same for every
length, and the rows as well where none are cut off.
-/

namespace Medals

/-- The tables mirror each other but for the cells of the NOCs, and count medals by integers. -/
structure Reflects (table other : Table) : Prop extends Table.Mirrors "NOC" table other where
  counted : "medal_count" ∈ table.names
  whole : ∀ row ∈ table.rows, (row.under "medal_count").IsInteger

namespace Reflects

variable {table other right result mirrored : Table}

theorem made {make : Row → List (String → Cell)} (reflects : Reflects table other)
    (makes : Table.Makes make table result) (mirrors : Table.Mirrors "NOC" result mirrored) :
    Reflects result mirrored :=
  ⟨mirrors, makes.names _ reflects.counted,
    makes.forall_under reflects.counted Cell.IsInteger reflects.whole⟩

theorem join {on : List String} (reflects : Reflects table other)
    (joins : table.join right on .left = .ok result) :
    ∃ mirrored, other.join right on .left = .ok mirrored ∧ Reflects result mirrored := by
  obtain ⟨mirrored, again, make, makes, mirrors⟩ := reflects.toMirrors.join joins
  exact ⟨mirrored, again, reflects.made makes mirrors⟩

theorem addColumn {name : String} {cellOf : Row → Cell} (reflects : Reflects table other)
    (factors : ∀ row other, blur "NOC" row.under = blur "NOC" other.under →
      cellOf row = cellOf other)
    (adds : table.addColumn name cellOf = .ok result) :
    ∃ mirrored, other.addColumn name cellOf = .ok mirrored ∧ Reflects result mirrored := by
  obtain ⟨mirrored, again, mirrors⟩ := reflects.toMirrors.addColumn factors adds
  exact ⟨mirrored, again, reflects.made (Table.makes_addColumn adds) mirrors⟩

end Reflects

theorem perUnit_of_blur {column : String} (apart : column ≠ "NOC") (scale : Double)
    {row other : Row} (same : blur "NOC" row.under = blur "NOC" other.under) :
    perUnit column scale row = perUnit column scale other := by
  obtain ⟨-, cells⟩ := blur_eq_iff.mp same
  exact perUnit_congr (cells "medal_count" (by decide)) (cells column apart) scale

/-- What the row of a NOC says of it that won some medals in a year. -/
def toldOf (year : Int64) (noc : CellKey) (medals : Nat) : CellKey × (String → Cell) :=
  (noc, fun name => if name = "Year" then .integer year
    else if name = "medal_count" then .integer (Int64.ofNat medals) else .missing)

theorem Row.Tells.blur_eq {year : Int64} {noc : CellKey} {group : List Row} {medals : Nat}
    {row : Row} (tells : row.Tells (some year) noc group medals)
    (named : row.names = groupColumns (some year) ++ ["medal_count"]) :
    blur "NOC" row.under = toldOf year noc medals := by
  rw [blur, toldOf, Prod.mk.injEq]
  refine ⟨tells.key, funext fun name => ?_⟩
  by_cases noc : name = "NOC"
  · subst noc
    rw [Function.update_self, if_neg (by decide), if_neg (by decide)]
  · rw [Function.update_of_ne noc]
    by_cases inYear : name = "Year"
    · rw [if_pos inYear, inYear, tells.year year rfl]
    · rw [if_neg inYear]
      by_cases count : name = "medal_count"
      · rw [if_pos count, count, tells.count]
      · rw [if_neg count]
        exact Row.under_of_not_mem (by simp [named, groupColumns, noc, inYear, count])

namespace Engine

variable {engine : Engine} {files other : Files} {params : EfficiencyParams}
  {cache after otherCache : Option TableCache}

/-- The counts of events say, for each NOC, how many medals of the year it won. -/
theorem EventGroups.blurred {counted : Pipeline} {counts : Table} {events : List Row}
    (groups : engine.EventGroups files params.filter (.counting ["NOC", "Year"] "medal_count")
      counted counts) (read : engine.eventRows files = .ok events) :
    counts.names = groupColumns (some params.year) ++ ["medal_count"] ∧
      (∀ row ∈ counts.rows, (row.under "medal_count").IsInteger) ∧
      (counts.rows.map fun row => blur "NOC" row.under) =
        (nocsOf (params.counted events)).map fun noc =>
          toldOf params.year noc (eventsOf (params.counted events) noc).length := by
  obtain ⟨reader, found, reads, names, rows⟩ := groups.efficiencyRows
  obtain rfl : found = events := Except.ok.inj (reads.eventRows_eq.symm.trans read)
  refine ⟨names, fun row member => ?_, ?_⟩
  · obtain ⟨noc, tells⟩ := exists_of_forall₂ rows row member
    exact ⟨_, tells.count⟩
  · have named := (List.forall₂_and_left _ _).mpr
      ⟨fun row member => (counts.aligned row member).trans names, List.Forall₂.flip rows⟩
    refine map_of_forall₂ (List.Forall₂.flip named) ?_
    rintro noc row ⟨layout, tells⟩
    exact tells.blur_eq layout

/-- Reordered events are grouped into counts that reflect each other. -/
theorem EventGroups.exists_reflects {header : Csv.Record} {records others : List Csv.LinedRecord}
    (first : engine.HasEvents files header records) (second : engine.HasEvents other header others)
    (reordered : (Csv.wellFormedOf header.length records).Perm
      (Csv.wellFormedOf header.length others)) {counted : Pipeline} {counts : Table}
    (groups : engine.EventGroups files params.filter (.counting ["NOC", "Year"] "medal_count")
      counted counts) :
    ∃ recounted recounts, engine.EventGroups other params.filter
        (.counting ["NOC", "Year"] "medal_count") recounted recounts ∧ Reflects counts recounts := by
  obtain ⟨reader, events, bound, start, reads, binds, accepted, made⟩ := groups.reads
  obtain ⟨mirrored, rows, again, names, perm⟩ := first.exists_readsEvents second reordered reads
  rw [← names] at binds accepted
  obtain ⟨recounts, remade, -⟩ := Groups.foldl_add_table accepted
    fun row member => again.aligned row (List.mem_filter.mp member).1
  obtain ⟨recounted, regroups⟩ := again.eventGroups binds accepted remade
  obtain ⟨layout, whole, cells⟩ := groups.blurred reads.eventRows_eq
  obtain ⟨relayout, -, recells⟩ := regroups.blurred again.eventRows_eq
  have counted : (params.counted events).Perm (params.counted rows) := perm.filter _
  have sizes : ∀ noc, (eventsOf (params.counted events) noc).length =
      (eventsOf (params.counted rows) noc).length := fun noc => (counted.filter _).length_eq
  refine ⟨recounted, recounts, regroups, ⟨?_, ?_, ?_⟩, ?_, whole⟩
  · simp [layout, groupColumns]
  · simp [layout, relayout]
  · rw [cells, recells]
    simp only [sizes]
    exact (distinctKeys_perm counted).map _
  · simp [layout]

section Steps

variable {table retable result located relocated measured : Table}
  {middle otherMiddle : Option TableCache}

theorem reflects_withCountryName (reflects : Reflects table retable)
    (names : withCountryName table = .ok result) :
    ∃ mirrored, withCountryName retable = .ok mirrored ∧ Reflects result mirrored := by
  unfold withCountryName at names ⊢
  have same : table.schema.contains "Country Name" = retable.schema.contains "Country Name" := by
    rw [Bool.eq_iff_iff]
    exact (position?_isSome.trans (reflects.names _)).trans position?_isSome.symm
  rw [← same]
  split at names
  · next held =>
    obtain rfl := Except.ok.inj names
    exact ⟨retable, by rw [if_pos held], reflects⟩
  · next absent =>
    rw [if_neg absent]
    exact reflects.addColumn (fun _ _ _ => rfl) names

/-- What some tables are loaded as, one after the other. -/
def loads (engine : Engine) (files : Files) :
    List Dataset → Option TableCache → List (Except Fault Table)
  | [], _ => []
  | table :: rest, cache =>
    (engine.load files table cache).1 :: engine.loads files rest (engine.load files table cache).2

/-- The tables that NOCs are looked up in for an efficiency ranking, as they are loaded. -/
def lookedUp (engine : Engine) : List Dataset :=
  .countries :: .stats :: if engine.settings.nocCodesFile.isNone then [] else [.nocCodes]

/-- Without a cache the tables are loaded alike when their files are the same. -/
theorem loads_of_find {tables : List Dataset}
    (same : ∀ table ∈ tables, ∀ path, engine.settings.path table = .ok path →
      files.find path = other.find path) :
    engine.loads files tables none = engine.loads other tables none := by
  induction tables with
  | nil => rfl
  | cons table rest ih =>
    obtain ⟨first, others⟩ := List.forall_mem_cons.mp same
    have loaded : engine.load files table none = engine.load other table none := by
      simp only [load, readTable, openTable, openWith, openFile]
      cases leads : engine.settings.path table with
      | error => rfl
      | ok path => simp only [first path leads, bind, Except.bind]
    rw [loads, loads, loaded]
    exact congrArg _ (ih others)

/-- A table that is loaded alike is loaded. -/
theorem load_of_same {dataset : Dataset} {loaded : Table}
    (same : (engine.load files dataset cache).1 = (engine.load other dataset otherCache).1)
    (found : engine.load files dataset cache = (.ok loaded, after)) :
    engine.load other dataset otherCache =
      (.ok loaded, (engine.load other dataset otherCache).2) := by
  rw [found] at same
  exact Prod.ext same.symm rfl

theorem reflects_attachStats (reflects : Reflects located relocated)
    (same : engine.loads files engine.lookedUp.tail middle =
      engine.loads other engine.lookedUp.tail otherMiddle)
    (attached : engine.attachStats files located middle = (.ok measured, after)) :
    ∃ mirrored last, engine.attachStats other relocated otherMiddle = (.ok mirrored, last) ∧
      Reflects measured mirrored := by
  obtain ⟨sameStats, rest⟩ := List.cons.inj same
  by_cases direct : engine.settings.nocCodesFile = none
  · obtain ⟨stats, found, joins⟩ := (attachStats_eq_ok_iff direct).mp attached
    obtain ⟨mirrored, again, reflects⟩ := reflects.join joins
    exact ⟨mirrored, _, (attachStats_eq_ok_iff direct).mpr
      ⟨stats, load_of_same sameStats found, again⟩, reflects⟩
  · obtain ⟨stats, last, codes, chosen, joined, found, known, projects, joins, attaches⟩ :=
      (attachStats_coded_eq_ok_iff direct).mp attached
    obtain ⟨coded, again, reflects⟩ := reflects.join joins
    obtain ⟨mirrored, once, reflects⟩ := reflects.join attaches
    have through : engine.settings.nocCodesFile.isNone = false :=
      Option.isNone_eq_false_iff.mpr (Option.isSome_iff_ne_none.mpr direct)
    rw [if_neg (by simp [through]), found] at rest
    obtain ⟨sameCodes, -⟩ := List.cons.inj rest
    exact ⟨mirrored, _, (attachStats_coded_eq_ok_iff direct).mpr ⟨stats, _, codes, chosen, coded,
      load_of_same sameStats found, load_of_same sameCodes known, projects, again, once⟩, reflects⟩

end Steps

/-- The counts of events with regions and statistics, and with rates of both. -/
def Scores (engine : Engine) (files : Files) (params : EfficiencyParams)
    (cache : Option TableCache) (counted : Pipeline) (scored : Table)
    (after : Option TableCache) : Prop :=
  ∃ counts regions middle located measured named perMillion,
    engine.EventGroups files params.filter (.counting ["NOC", "Year"] "medal_count")
      counted counts ∧
    engine.loadRegions files cache = (.ok regions, middle) ∧
    counts.join regions ["NOC"] .left = .ok located ∧
    engine.attachStats files located middle = (.ok measured, after) ∧
    withCountryName measured = .ok named ∧
    named.addColumn "medals_per_million"
      (perUnit "Population" (Double.ofInt 1000000)) = .ok perMillion ∧
    perMillion.addColumn "medals_per_billion_gdp"
      (perUnit "GDP_USD" (Double.ofInt 1000000000)) = .ok scored

theorem efficiency_iff_scores {ranking : QueryResult} :
    engine.efficiency files params cache = (.ok ranking, after) ↔
      ∃ counted scored sorted answer,
        engine.Scores files params cache counted scored after ∧
        scored.sortBy params.sortBy.column true = .ok sorted ∧
        (sorted.head params.topN).project EfficiencyParams.columns = .ok answer ∧
        ranking = .ofTable answer "efficiency"
          (counted.groupBy (.counting ["NOC", "Year"] "medal_count")).2.readStats := by
  rw [efficiency_eq_ok_iff]
  constructor
  · rintro ⟨counted, counts, regions, middle, located, measured, named, perMillion, scored, sorted,
      answer, groups, loaded, joins, attached, names, people, money, ranked⟩
    exact ⟨counted, scored, sorted, answer, ⟨counts, regions, middle, located, measured, named,
      perMillion, groups, loaded, joins, attached, names, people, money⟩, ranked⟩
  · rintro ⟨counted, scored, sorted, answer, ⟨counts, regions, middle, located, measured, named,
      perMillion, groups, loaded, joins, attached, names, people, money⟩, ranked⟩
    exact ⟨counted, counts, regions, middle, located, measured, named, perMillion, scored, sorted,
      answer, groups, loaded, joins, attached, names, people, money, ranked⟩

/-- The rates of reordered events reflect each other. -/
theorem Scores.exists_reflects {header : Csv.Record} {records others : List Csv.LinedRecord}
    {counted : Pipeline} {scored : Table}
    (scores : engine.Scores files params cache counted scored after)
    (first : engine.HasEvents files header records) (second : engine.HasEvents other header others)
    (reordered : (Csv.wellFormedOf header.length records).Perm
      (Csv.wellFormedOf header.length others))
    (same : engine.loads files engine.lookedUp cache =
      engine.loads other engine.lookedUp otherCache) :
    ∃ recounted rescored last,
      engine.Scores other params otherCache recounted rescored last ∧ Reflects scored rescored ∧
      ∀ metric : EfficiencyMetric,
        Cell.Unmixed (scored.rows.map fun row => row.under metric.column) := by
  obtain ⟨counts, regions, middle, located, measured, named, perMillion, groups, loaded, joins,
    attached, names, people, money⟩ := scores
  obtain ⟨countries, found, projects⟩ := loadRegions_eq_ok_iff.mp loaded
  obtain ⟨sameCountries, rest⟩ := List.cons.inj same
  rw [found] at rest
  have reloaded := loadRegions_eq_ok_iff.mpr ⟨countries, load_of_same sameCountries found, projects⟩
  obtain ⟨recounted, recounts, regroups, reflects⟩ := groups.exists_reflects first second reordered
  obtain ⟨relocated, rejoins, reflects⟩ := reflects.join joins
  obtain ⟨remeasured, last, reattached, reflects⟩ := reflects_attachStats reflects rest attached
  obtain ⟨renamed, renames, reflects⟩ := reflects_withCountryName reflects names
  obtain ⟨perMillion', repeople, reflects⟩ := reflects.addColumn
    (fun _ _ => perUnit_of_blur (by decide) _) people
  obtain ⟨rescored, remoney, reflects⟩ := reflects.addColumn
    (fun _ _ => perUnit_of_blur (by decide) _) money
  exact ⟨recounted, rescored, last, ⟨recounts, regions, _, relocated, remeasured, renamed,
    perMillion', regroups, reloaded, rejoins, reattached, renames, repeople, remoney⟩, reflects,
    unmixed_metric people money reflects.whole⟩

/-- The same cells are sorted alike, unless an integer meets a number. -/
theorem map_under_eq_of_sorted {key : SortKey} {rows others sorted resorted : List Row}
    (stable : StableOrder key.order rows sorted) (restable : StableOrder key.order others resorted)
    (perm : (rows.map fun row => row.under key.column).Perm
      (others.map fun row => row.under key.column))
    (unmixed : Cell.Unmixed (rows.map fun row => row.under key.column)) :
    (sorted.map fun row => row.under key.column) = resorted.map fun row => row.under key.column := by
  have own := stable.perm.map fun row : Row => row.under key.column
  have further := restable.perm.map fun row : Row => row.under key.column
  exact Cell.eq_of_ordered ((own.trans perm).trans further.symm) (unmixed.perm own.symm)
    (List.pairwise_map.mpr stable.ordered) (List.pairwise_map.mpr restable.ordered)

/-- A table with all columns of a ranking can be ranked. What its rows say under these columns is what
the first of the sorted rows say. -/
theorem exists_ranked {table : Table} (metric : EfficiencyMetric)
    (held : ∀ name ∈ EfficiencyParams.columns, name ∈ table.names)
    (unmixed : Cell.Unmixed (table.rows.map fun row => row.under metric.column)) (topN : Nat) :
    ∃ sorted answer, table.sortBy metric.column true = .ok sorted ∧
      (sorted.head topN).project EfficiencyParams.columns = .ok answer ∧
      answer.names = EfficiencyParams.columns ∧
      StableOrder (SortKey.order ⟨metric.column, true⟩) table.rows sorted.rows ∧
      ∀ {α : Type} (read : Row → α), (∀ row other : Row,
          (∀ name ∈ EfficiencyParams.columns, row.under name = other.under name) →
            read row = read other) →
        answer.rows.map read = (sorted.rows.map read).take topN := by
  have chosen := metric.column_mem
  obtain ⟨sorted, sorts, names⟩ := Table.exists_sortBy (held _ chosen) true
  obtain ⟨answer, projects, columns⟩ := @Table.exists_project (sorted.head topN)
    EfficiencyParams.columns fun name listed => names.symm ▸ held name listed
  obtain ⟨-, stable⟩ := Table.sortBy_stable_of_unmixed ⟨metric.column, true⟩ sorts unmixed
  obtain ⟨shown, same, -, -, rows⟩ :=
    Table.ranked_of_project ⟨metric.column, true⟩ sorts unmixed projects chosen
  refine ⟨sorted, answer, sorts, projects, columns, stable, fun read reads => ?_⟩
  rw [rows, List.map_take, List.map_map]
  refine congrArg _ (List.map_congr_left fun row member => ?_)
  exact reads _ _ (same row (stable.perm.mem_iff.mp member))

/-- A row of the ranking, with the key of its NOC in place of the cell. -/
def rankedRow (row : Row) : CellKey × List Cell :=
  (row.nocKey, row.cellsUnder EfficiencyParams.columns.tail)

theorem rankedRow_congr {row other : Row}
    (same : ∀ name ∈ EfficiencyParams.columns, row.under name = other.under name) :
    rankedRow row = rankedRow other := by
  refine Prod.ext (congrArg Cell.key (same "NOC" (by simp [EfficiencyParams.columns]))) ?_
  exact List.map_congr_left fun name member => same name (List.mem_of_mem_tail member)

theorem rankedRow_of_blur {row other : Row} (same : blur "NOC" row.under = blur "NOC" other.under) :
    rankedRow row = rankedRow other := by
  obtain ⟨key, rest⟩ := blur_eq_iff.mp same
  refine Prod.ext key (List.map_congr_left fun name member => rest name ?_)
  rintro rfl
  simp [EfficiencyParams.columns] at member

/-- Tables that reflect each other are ranked alike. -/
theorem exists_ranked_of_reflects {scored rescored : Table} (reflects : Reflects scored rescored)
    (metric : EfficiencyMetric) (held : ∀ name ∈ EfficiencyParams.columns, name ∈ scored.names)
    (unmixed : Cell.Unmixed (scored.rows.map fun row => row.under metric.column)) (topN : Nat) :
    ∃ sorted one resorted another, scored.sortBy metric.column true = .ok sorted ∧
      (sorted.head topN).project EfficiencyParams.columns = .ok one ∧
      rescored.sortBy metric.column true = .ok resorted ∧
      (resorted.head topN).project EfficiencyParams.columns = .ok another ∧
      one.names = EfficiencyParams.columns ∧ another.names = EfficiencyParams.columns ∧
      one.rows.length = min topN scored.rows.length ∧
      (one.rows.map fun row => row.under metric.column) =
        (another.rows.map fun row => row.under metric.column) ∧
      (scored.rows.length ≤ topN → (one.rows.map rankedRow).Perm (another.rows.map rankedRow)) := by
  have apart : metric.column ≠ "NOC" := by
    cases metric <;> simp [EfficiencyMetric.column]
  have cells : (scored.rows.map fun row => row.under metric.column).Perm
      (rescored.rows.map fun row => row.under metric.column) :=
    reflects.map_perm fun row other same => (blur_eq_iff.mp same).2 _ apart
  have mirrored : (scored.rows.map rankedRow).Perm (rescored.rows.map rankedRow) :=
    reflects.map_perm fun row other => rankedRow_of_blur
  obtain ⟨sorted, one, sorts, projects, columns, stable, reads⟩ :=
    exists_ranked metric held unmixed topN
  obtain ⟨resorted, another, resorts, reprojects, recolumns, restable, rereads⟩ :=
    exists_ranked metric (fun name listed => (reflects.names name).mp (held name listed))
      (unmixed.perm cells) topN
  refine ⟨sorted, one, resorted, another, sorts, projects, resorts, reprojects, columns, recolumns,
    ?_, ?_, fun enough => ?_⟩
  · have shown := congrArg List.length (reads (fun _ => ()) fun _ _ _ => rfl)
    simpa [stable.perm.length_eq] using shown
  · have chosen : ∀ row other : Row,
        (∀ name ∈ EfficiencyParams.columns, row.under name = other.under name) →
          row.under metric.column = other.under metric.column := by
      intro row other same
      exact same _ metric.column_mem
    rw [reads _ chosen, rereads _ chosen]
    exact congrArg _ (map_under_eq_of_sorted stable restable cells unmixed)
  · have all : sorted.rows.length ≤ topN := stable.perm.length_eq.trans_le enough
    have size : resorted.rows.length = sorted.rows.length := by
      simpa [stable.perm.length_eq, restable.perm.length_eq] using mirrored.length_eq.symm
    rw [reads rankedRow fun _ _ => rankedRow_congr, rereads rankedRow fun _ _ => rankedRow_congr,
      List.take_of_length_le (by rwa [List.length_map]),
      List.take_of_length_le (by rwa [List.length_map, size])]
    exact ((stable.perm.map rankedRow).trans mirrored).trans (restable.perm.map rankedRow).symm

/-- The efficiency ranking does not depend on the order of the events. When it succeeds, it does so
for every length and for every file with the same header and, in any order, the same well-formed
records. Both rankings then have the same values of the chosen metric, row by row, and where no row
is cut off they have the same rows in some order, with the same keys of NOCs. -/
theorem efficiency_reordered {header : Csv.Record} {records others : List Csv.LinedRecord}
    {ranking : QueryResult} (first : engine.HasEvents files header records)
    (second : engine.HasEvents other header others)
    (reordered : (Csv.wellFormedOf header.length records).Perm
      (Csv.wellFormedOf header.length others))
    (same : engine.loads files engine.lookedUp cache =
      engine.loads other engine.lookedUp otherCache)
    (success : engine.efficiency files params cache = (.ok ranking, after)) :
    ∃ size, ∀ topN, ∃ one another oneAfter anotherAfter,
      engine.efficiency files { params with topN } cache = (.ok one, oneAfter) ∧
      engine.efficiency other { params with topN } otherCache = (.ok another, anotherAfter) ∧
      one.columns = EfficiencyParams.columns ∧ another.columns = EfficiencyParams.columns ∧
      one.rows.length = min topN size ∧
      (one.rows.map fun row => row.under params.sortBy.column) =
        (another.rows.map fun row => row.under params.sortBy.column) ∧
      (size ≤ topN → (one.rows.map rankedRow).Perm (another.rows.map rankedRow)) := by
  obtain ⟨counted, scored, sorted, answer, scores, sorts, projects, -⟩ :=
    efficiency_iff_scores.mp success
  obtain ⟨recounted, rescored, last, rescores, reflects, unmixed⟩ :=
    scores.exists_reflects first second reordered same
  have held : ∀ name ∈ EfficiencyParams.columns, name ∈ scored.names := by
    obtain ⟨layout, -⟩ :=
      Table.sortBy_stable_of_unmixed ⟨params.sortBy.column, true⟩ sorts (unmixed _)
    obtain ⟨projection, bound, -, -⟩ := Table.rows_of_project projects
    rw [← layout]
    exact Projection.exists_bind_iff.mp ⟨projection, bound⟩
  refine ⟨scored.rows.length, fun topN => ?_⟩
  obtain ⟨sorted, one, resorted, another, sorts, projects, resorts, reprojects, alike⟩ :=
    exists_ranked_of_reflects reflects params.sortBy held (unmixed _) topN
  exact ⟨_, _, after, last,
    efficiency_iff_scores.mpr ⟨counted, scored, sorted, one, scores, sorts, projects, rfl⟩,
    efficiency_iff_scores.mpr ⟨recounted, rescored, resorted, another, rescores, resorts, reprojects,
      rfl⟩, alike⟩

section Example

/-- Medals of two NOCs. -/
def twoMedals : List Row :=
  [⟨["NOC", "Year", "Medal"], [.text "C", .integer 1, .text "G"], rfl⟩,
    ⟨["NOC", "Year", "Medal"], [.text "D", .integer 1, .text "G"], rfl⟩]

/-- Two NOCs with a medal each tie. With the events the other way round the counts are the same at
every length, and the rows are as soon as both fit. -/
theorem efficiency_of_two_medals :
    ∃ engine : Engine, engine.settings = .standard ∧ ∀ topN,
      ∃ one another oneAfter anotherAfter,
        engine.efficiency (eventFiles twoMedals) ⟨1, none, none, .medalCount, topN⟩ none =
          (.ok one, oneAfter) ∧
        engine.efficiency (eventFiles twoMedals.reverse) ⟨1, none, none, .medalCount, topN⟩ none =
          (.ok another, anotherAfter) ∧
        one.rows.length = min topN 2 ∧
        (one.rows.map fun row => row.under "medal_count") =
          (another.rows.map fun row => row.under "medal_count") ∧
        (2 ≤ topN → (one.rows.map rankedRow).Perm (another.rows.map rankedRow)) := by
  obtain ⟨engine, standard⟩ := exists_standard
  have told : RowReader.Told (Settings.standard.readOptionsOf .events) ["NOC", "Year", "Medal"]
      twoMedals := by decide
  obtain ⟨holds, -⟩ := holds_eventFiles standard told
  obtain ⟨reholds, -⟩ := holds_eventFiles standard
    (show RowReader.Told _ _ twoMedals.reverse by decide)
  obtain ⟨records, first, fields⟩ := holds.hasEvents
  obtain ⟨others, second, refields⟩ := reholds.hasEvents
  have reordered := (List.reverse_perm twoMedals).symm.map CsvWriter.fieldsOf
  rw [← fields, ← refields] at reordered
  have same : ∀ table ∈ engine.lookedUp, ∀ path, engine.settings.path table = .ok path →
      (eventFiles twoMedals).find path = (eventFiles twoMedals.reverse).find path := by
    intro table listed path leads
    have looked : table = .countries ∨ table = .stats := by
      simpa [lookedUp, standard, Settings.standard] using listed
    rw [standard] at leads
    obtain ⟨countries, stats⟩ := find_eventFiles twoMedals
    obtain ⟨recountries, restats⟩ := find_eventFiles twoMedals.reverse
    rcases looked with rfl | rfl
    · rw [Settings.standard_path .countries (by decide)] at leads
      obtain rfl := Except.ok.inj leads
      rw [countries, recountries]
    · rw [Settings.standard_path .stats (by decide)] at leads
      obtain rfl := Except.ok.inj leads
      rw [stats, restats]
  obtain ⟨reader, _, _, reads, loaded, -, once, -, -, statsOnce, -, rankings⟩ :=
    rankings_of_eventFiles standard told
  obtain ⟨ranking, made⟩ := rankings ⟨1, none, none, .medalCount, 10⟩ rfl
  obtain ⟨size, alike⟩ := efficiency_reordered first second reordered (loads_of_find same) made
  -- The counts of the medals tell how many rows there are.
  have two : size = 2 := by
    obtain ⟨ten, _, _, _, tenMade, -, -, -, length, -⟩ := alike 10
    have direct : engine.settings.nocCodesFile = none := by rw [standard]; rfl
    have counts : medalCounts 1 twoMedals = [[.text "C", .integer 1], [.text "D", .integer 1]] := by
      decide
    have enough : ∀ events, engine.eventRows (eventFiles twoMedals) = .ok events →
        (medalCounts 1 events).length ≤ 10 := by
      intro events read
      obtain rfl : twoMedals = events := Except.ok.inj (reads.eventRows_eq.symm.trans read)
      rw [counts]
      decide
    obtain ⟨_, events, again, -, cells⟩ := @efficiency_medalCounts _ _ _ _
      ⟨1, none, none, .medalCount, 10⟩ _ direct rfl rfl once (by rw [loaded]; exact statsOnce)
      tenMade enough
    obtain rfl : twoMedals = events :=
      Except.ok.inj (reads.eventRows_eq.symm.trans again.eventRows_eq)
    have rows := cells.length_eq
    rw [counts, List.length_map, length] at rows
    simp only [List.length_cons, List.length_nil] at rows
    omega
  subst two
  refine ⟨engine, standard, fun topN => ?_⟩
  obtain ⟨one, another, oneAfter, anotherAfter, made, remade, -, -, length, cells, rows⟩ :=
    alike topN
  exact ⟨one, another, oneAfter, anotherAfter, made, remade, length, cells, rows⟩

end Example

end Engine

end Medals
