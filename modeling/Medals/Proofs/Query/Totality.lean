import Medals.Proofs.Query.Events
import Medals.Proofs.Table.Refusals
import Medals.Proofs.Table.Success

/-!
# Columns that let a query succeed

Once its tables have been read, a query depends on nothing but their columns:
`Engine.exists_leaderboard` and `Engine.exists_efficiency` name those that are enough.
-/

namespace Medals

namespace EfficiencyParams

/-- The efficiency ranking looks at medals, years and, if one is asked for, the season. -/
theorem column_mem_of_filter {names : List String} {params : EfficiencyParams}
    (medal : "Medal" ∈ names) (inYear : "Year" ∈ names)
    (season : selected? params.season = none ∨ "Season" ∈ names) :
    ∀ condition ∈ params.filter.conditions, condition.column ∈ names := by
  have selecting : ∀ {column : String} {selector : Option String},
      selected? selector = none ∨ column ∈ names →
        ∀ condition ∈ selectorCondition column selector, condition.column ∈ names := by
    intro column selector known
    unfold selectorCondition
    cases selected : selected? selector with
    | none => simp
    | some text => simpa [Condition.column] using known.resolve_left (by simp [selected])
  simp only [filter, List.forall_mem_append]
  exact ⟨⟨by simp [Condition.column, medal, inYear], selecting season⟩, selecting (.inr medal)⟩

end EfficiencyParams

namespace Engine

variable {engine : Engine} {files : Files} {reader : RowReader} {events : List Row}
  {cache middle after : Option TableCache} {countries stats : Table}

/-- Events that can be read to the end can be filtered and grouped by columns they have. -/
theorem ReadsEvents.exists_eventGroups (reads : engine.ReadsEvents files reader events)
    {filter : Filter} {grouping : Grouping}
    (conditions : ∀ condition ∈ filter.conditions, condition.column ∈ reader.names)
    (keys : ∀ name ∈ grouping.keys, name ∈ reader.names)
    (has : ∀ aggregation ∈ grouping.aggregations, Groups.Has reader.names aggregation)
    (distinct : grouping.outputNames.Nodup) :
    ∃ counted counts, engine.EventGroups files filter grouping counted counts ∧
      counts.names = grouping.outputNames := by
  obtain ⟨bound, binds⟩ := Filter.exists_bind_iff.mpr conditions
  obtain ⟨start, accepted⟩ := Groups.exists_bind keys has distinct
  obtain ⟨counts, made, names, -⟩ := Groups.foldl_add_table accepted
    fun row member => reads.aligned row (List.mem_filter.mp member).1
  obtain ⟨counted, groups⟩ := reads.eventGroups binds accepted made
  exact ⟨counted, counts, groups, names⟩

theorem exists_loadRegions
    (loaded : engine.load files .countries cache = (.ok countries, after))
    (held : ∀ name ∈ ["NOC", "region"], name ∈ countries.names) :
    ∃ regions, engine.loadRegions files cache = (.ok regions, after) ∧
      regions.names = ["NOC", "region"] := by
  obtain ⟨regions, projected, names⟩ := Table.exists_project held
  exact ⟨regions, loadRegions_eq_ok_iff.mpr ⟨countries, loaded, projected⟩, names⟩

/-- The leaderboard needs the columns of medals and those of regions. -/
theorem exists_leaderboard (reads : engine.ReadsEvents files reader events)
    (columns : ∀ name ∈ medalColumns, name ∈ reader.names)
    (loaded : engine.load files .countries cache = (.ok countries, after))
    (held : ∀ name ∈ ["NOC", "region"], name ∈ countries.names) (params : LeaderboardParams) :
    ∃ board, engine.leaderboard files params cache = (.ok board, after) := by
  simp only [medalColumns, List.forall_mem_cons] at columns
  obtain ⟨noc, inYear, medal, -⟩ := columns
  have conditions : ∀ condition ∈ params.filter.conditions, condition.column ∈ reader.names := by
    unfold LeaderboardParams.filter
    split <;> simp [Filter.all, Condition.column, medal, inYear]
  have keys : ∀ name ∈ params.grouping.keys, name ∈ reader.names := by
    unfold LeaderboardParams.grouping LeaderboardParams.keys
    split <;> simp [noc, inYear]
  have has : ∀ aggregation ∈ params.grouping.aggregations,
      Groups.Has reader.names aggregation := by
    intro aggregation listed
    obtain rfl := List.mem_singleton.mp listed
    exact .inr ⟨"Medal", medal, rfl⟩
  have outputs : params.grouping.outputNames = params.keys ++ ["medal_count"] := rfl
  have distinct : params.grouping.outputNames.Nodup := by
    rw [outputs]
    unfold LeaderboardParams.keys
    split <;> decide
  obtain ⟨counted, counts, groups, names⟩ := reads.exists_eventGroups conditions keys has distinct
  obtain ⟨regions, found, regionNames⟩ := exists_loadRegions loaded held
  rw [outputs] at names
  have counted' : "NOC" ∈ counts.names ∧ "medal_count" ∈ counts.names := by
    rw [names, LeaderboardParams.keys]
    split <;> simp
  obtain ⟨joined, joins, joinedNames⟩ := @Table.exists_join_left counts regions ["NOC"]
    (by simp [counted']) (by simp [regionNames])
  obtain ⟨sorted, sorts, sortedNames⟩ := @Table.exists_sortBy joined "medal_count"
    ((joinedNames _).mpr (.inl counted'.2)) true
  have chosen : ∀ name ∈ params.columns, name ∈ (sorted.head params.topN).names := by
    change ∀ name ∈ params.columns, name ∈ sorted.names
    simp only [sortedNames, joinedNames, names, regionNames, LeaderboardParams.columns,
      LeaderboardParams.keys]
    split <;> simp
  obtain ⟨answer, projects, -⟩ := Table.exists_project chosen
  exact ⟨_, leaderboard_eq_ok_iff.mpr ⟨counted, counts, regions, joined, sorted, answer, groups,
    found, joins, sorts, projects, rfl⟩⟩

/-- A country name is there or is added. -/
theorem exists_withCountryName (table : Table) :
    ∃ named, withCountryName table = .ok named ∧
      ∀ name, name ∈ named.names ↔ name ∈ table.names ∨ name = "Country Name" := by
  unfold withCountryName
  by_cases held : "Country Name" ∈ table.names
  · have there : table.schema.contains "Country Name" = true := position?_isSome.mpr held
    refine ⟨table, by rw [if_pos there], fun name => ?_⟩
    constructor
    · exact Or.inl
    · rintro (listed | rfl)
      · exact listed
      · exact held
  · obtain ⟨named, added, names⟩ := Table.exists_addColumn held fun _ => .missing
    have absent : ¬ table.schema.contains "Country Name" = true := mt position?_isSome.mp held
    exact ⟨named, by rw [if_neg absent, added], fun name => by simp [names]⟩

/-- Without a table of country codes the efficiency ranking needs the columns of medals and of
regions, a season if one is asked for, and statistics of people and money that do not name its own
columns. -/
theorem exists_efficiency (direct : engine.settings.nocCodesFile = none)
    (reads : engine.ReadsEvents files reader events)
    (columns : ∀ name ∈ medalColumns, name ∈ reader.names) (params : EfficiencyParams)
    (season : selected? params.season = none ∨ "Season" ∈ reader.names)
    (loaded : engine.load files .countries cache = (.ok countries, middle))
    (held : ∀ name ∈ ["NOC", "region"], name ∈ countries.names)
    (measured : engine.load files .stats middle = (.ok stats, after))
    (known : ∀ name ∈ ["NOC", "Year", "Population", "GDP_USD"], name ∈ stats.names)
    (new : ∀ name ∈ ["medals_per_million", "medals_per_billion_gdp"], name ∉ stats.names) :
    ∃ ranking, engine.efficiency files params cache = (.ok ranking, after) := by
  simp only [medalColumns, List.forall_mem_cons] at columns
  obtain ⟨noc, inYear, medal, -⟩ := columns
  have conditions := EfficiencyParams.column_mem_of_filter medal inYear season
  have has : ∀ aggregation ∈ [Aggregation.count.named "medal_count"],
      Groups.Has reader.names aggregation := by
    intro aggregation listed
    obtain rfl := List.mem_singleton.mp listed
    exact .inl ⟨rfl, rfl⟩
  obtain ⟨counted, counts, groups, names⟩ := @ReadsEvents.exists_eventGroups _ _ _ _ reads
    params.filter (.counting ["NOC", "Year"] "medal_count") conditions
    (by simp [Grouping.counting, noc, inYear]) has (by decide)
  have layout : counts.names = ["NOC", "Year", "medal_count"] := names
  obtain ⟨regions, found, regionNames⟩ := exists_loadRegions loaded held
  obtain ⟨located, joins, locatedNames⟩ := @Table.exists_join_left counts regions ["NOC"]
    (by simp [layout]) (by simp [regionNames])
  simp only [List.forall_mem_cons] at known new
  obtain ⟨joined, attaches, joinedNames⟩ := @Table.exists_join_left located stats ["NOC", "Year"]
    (by simp [locatedNames, layout]) (by simp [known])
  have attached := (attachStats_eq_ok_iff direct).mpr ⟨stats, measured, attaches⟩
  obtain ⟨named, withName, namedNames⟩ := exists_withCountryName joined
  simp only [joinedNames, locatedNames, layout, regionNames] at namedNames
  obtain ⟨perMillion, people, millionNames⟩ := @Table.exists_addColumn named "medals_per_million"
    (by simp [namedNames, new]) (perUnit "Population" (Double.ofInt 1000000))
  obtain ⟨scored, money, scoredNames⟩ := @Table.exists_addColumn perMillion "medals_per_billion_gdp"
    (by simp [millionNames, namedNames, new]) (perUnit "GDP_USD" (Double.ofInt 1000000000))
  have sortable : params.sortBy.column ∈ scored.names := by
    rw [scoredNames, millionNames]
    cases params.sortBy <;> simp [EfficiencyMetric.column, namedNames]
  obtain ⟨sorted, sorts, sortedNames⟩ := Table.exists_sortBy sortable true
  have chosen : ∀ name ∈ EfficiencyParams.columns, name ∈ (sorted.head params.topN).names := by
    change ∀ name ∈ EfficiencyParams.columns, name ∈ sorted.names
    simp [sortedNames, scoredNames, millionNames, namedNames, EfficiencyParams.columns, known]
  obtain ⟨answer, projects, -⟩ := Table.exists_project chosen
  exact ⟨_, efficiency_eq_ok_iff.mpr ⟨counted, counts, regions, middle, located, joined, named,
    perMillion, scored, sorted, answer, groups, found, joins, attached, withName, people, money,
    sorts, projects, rfl⟩⟩

end Engine

end Medals
