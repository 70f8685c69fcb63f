import Medals.Query.Efficiency
import Medals.Query.Leaderboard
import Medals.Query.Search

/-!
# What a query that succeeds has done

A query that succeeds has succeeded in each of its steps, and nothing else makes it succeed.
`Engine.leaderboard_eq_ok_iff` and `Engine.efficiency_eq_ok_iff` name the tables between the steps,
`Engine.search_eq_ok_iff` the page that a search shows.
-/

namespace Medals

namespace Query

variable {α β : Type} {cache after : Option TableCache}

theorem bind_apply (query : Query α) (next : α → Query β) :
    (query >>= next) cache = ExceptT.bindCont next (query cache).1 (query cache).2 := rfl

/-- A query goes on from what the one before it found and left. -/
theorem bind_eq_ok_iff {query : Query α} {next : α → Query β} {result : β} :
    (query >>= next) cache = (.ok result, after) ↔
      ∃ value middle, query cache = (.ok value, middle) ∧
        next value middle = (.ok result, after) := by
  rw [bind_apply]
  constructor
  · intro success
    cases found : query cache with
    | mk answer middle =>
      rw [found] at success
      cases answer with
      | error fault => cases success
      | ok value => exact ⟨value, middle, rfl, success⟩
  · rintro ⟨value, middle, found, success⟩
    rw [found]
    exact success

/-- What can fail but uses no cache leaves it as it is. -/
theorem lift_bind_eq_ok_iff {source : Except Fault α} {next : α → Query β} {result : β} :
    ((liftM source : Query α) >>= next) cache = (.ok result, after) ↔
      ∃ value, source = .ok value ∧ next value cache = (.ok result, after) := by
  rw [bind_eq_ok_iff]
  constructor
  · rintro ⟨value, middle, found, success⟩
    obtain ⟨same, rfl⟩ := Prod.mk.inj (show (source, cache) = (.ok value, middle) from found)
    exact ⟨value, same, success⟩
  · rintro ⟨value, rfl, success⟩
    exact ⟨value, cache, rfl, success⟩

/-- What is found may still fail to be used. -/
theorem bind_lift_eq_ok_iff {query : Query α} {next : α → Except Fault β} {result : β} :
    (query >>= fun value => (liftM (next value) : Query β)) cache = (.ok result, after) ↔
      ∃ value, query cache = (.ok value, after) ∧ next value = .ok result := by
  rw [bind_eq_ok_iff]
  constructor
  · rintro ⟨value, middle, found, used⟩
    obtain ⟨same, rfl⟩ :=
      Prod.mk.inj (show (next value, middle) = (.ok result, after) from used)
    exact ⟨value, found, same⟩
  · rintro ⟨value, found, used⟩
    exact ⟨value, after, found, congrArg (·, after) used⟩

end Query

namespace Engine

variable {engine : Engine} {files : Files} {cache after : Option TableCache}

/-- The events that pass a filter, grouped by a pass over the file. -/
structure EventGroups (engine : Engine) (files : Files) (filter : Filter) (grouping : Grouping)
    (counted : Pipeline) (counts : Table) : Prop where
  staged : ∃ reader, engine.openTable files .events = .ok reader ∧
    (Pipeline.ofReader reader).addStage filter none = .ok counted
  grouped : (counted.groupBy grouping).1 = .ok counts

theorem loadRegions_eq_ok_iff {regions : Table} :
    engine.loadRegions files cache = (.ok regions, after) ↔
      ∃ countries, engine.load files .countries cache = (.ok countries, after) ∧
        countries.project ["NOC", "region"] = .ok regions :=
  Query.bind_lift_eq_ok_iff

/-- Without a table of country codes the statistics are joined directly. -/
theorem attachStats_eq_ok_iff (direct : engine.settings.nocCodesFile = none)
    {counts measured : Table} :
    engine.attachStats files counts cache = (.ok measured, after) ↔
      ∃ stats, engine.load files .stats cache = (.ok stats, after) ∧
        counts.join stats ["NOC", "Year"] .left = .ok measured := by
  unfold attachStats
  rw [direct]
  exact Query.bind_lift_eq_ok_iff

/-- With a table of country codes the statistics are joined through the codes. -/
theorem attachStats_coded_eq_ok_iff (coded : engine.settings.nocCodesFile ≠ none)
    {counts measured : Table} :
    engine.attachStats files counts cache = (.ok measured, after) ↔
      ∃ stats middle codes chosen joined,
        engine.load files .stats cache = (.ok stats, middle) ∧
        engine.load files .nocCodes middle = (.ok codes, after) ∧
        codes.project ["NOC", "Country Code"] = .ok chosen ∧
        counts.join chosen ["NOC"] .left = .ok joined ∧
        joined.join stats ["Country Code", "Year"] .left = .ok measured := by
  have through : engine.settings.nocCodesFile.isNone = false :=
    Option.isNone_eq_false_iff.mpr (Option.isSome_iff_ne_none.mpr coded)
  unfold attachStats
  simp only [through, Bool.false_eq_true, if_false]
  constructor
  · intro success
    obtain ⟨stats, middle, found, success⟩ := Query.bind_eq_ok_iff.mp success
    obtain ⟨codes, last, known, success⟩ := Query.bind_eq_ok_iff.mp success
    obtain ⟨chosen, projects, success⟩ := Query.lift_bind_eq_ok_iff.mp success
    obtain ⟨joined, joins, success⟩ := Query.lift_bind_eq_ok_iff.mp success
    obtain ⟨attaches, rfl⟩ := Prod.mk.inj success
    exact ⟨stats, middle, codes, chosen, joined, found, known, projects, joins, attaches⟩
  · rintro ⟨stats, middle, codes, chosen, joined, found, known, projects, joins, attaches⟩
    refine Query.bind_eq_ok_iff.mpr ⟨stats, middle, found, ?_⟩
    refine Query.bind_eq_ok_iff.mpr ⟨codes, after, known, ?_⟩
    refine Query.lift_bind_eq_ok_iff.mpr ⟨chosen, projects, ?_⟩
    refine Query.lift_bind_eq_ok_iff.mpr ⟨joined, joins, ?_⟩
    exact congrArg (·, after) attaches

theorem leaderboard_eq_ok_iff {params : LeaderboardParams} {board : QueryResult} :
    engine.leaderboard files params cache = (.ok board, after) ↔
      ∃ counted counts regions joined sorted answer,
        engine.EventGroups files params.filter params.grouping counted counts ∧
        engine.loadRegions files cache = (.ok regions, after) ∧
        counts.join regions ["NOC"] .left = .ok joined ∧
        joined.sortBy "medal_count" true = .ok sorted ∧
        (sorted.head params.topN).project params.columns = .ok answer ∧
        board = .ofTable answer "leaderboard" (counted.groupBy params.grouping).2.readStats := by
  unfold leaderboard
  constructor
  · intro success
    obtain ⟨reader, opened, success⟩ := Query.lift_bind_eq_ok_iff.mp success
    obtain ⟨counted, staged, success⟩ := Query.lift_bind_eq_ok_iff.mp success
    obtain ⟨counts, grouped, success⟩ := Query.lift_bind_eq_ok_iff.mp success
    obtain ⟨regions, middle, loaded, success⟩ := Query.bind_eq_ok_iff.mp success
    obtain ⟨joined, joins, success⟩ := Query.lift_bind_eq_ok_iff.mp success
    obtain ⟨sorted, sorts, success⟩ := Query.lift_bind_eq_ok_iff.mp success
    obtain ⟨answer, projects, success⟩ := Query.lift_bind_eq_ok_iff.mp success
    obtain ⟨made, rfl⟩ := Prod.mk.inj success
    exact ⟨counted, counts, regions, joined, sorted, answer, ⟨⟨reader, opened, staged⟩, grouped⟩,
      loaded, joins, sorts, projects, (Except.ok.inj made).symm⟩
  · rintro ⟨counted, counts, regions, joined, sorted, answer, ⟨⟨reader, opened, staged⟩, grouped⟩,
      loaded, joins, sorts, projects, rfl⟩
    refine Query.lift_bind_eq_ok_iff.mpr ⟨reader, opened, ?_⟩
    refine Query.lift_bind_eq_ok_iff.mpr ⟨counted, staged, ?_⟩
    refine Query.lift_bind_eq_ok_iff.mpr ⟨counts, grouped, ?_⟩
    refine Query.bind_eq_ok_iff.mpr ⟨regions, after, loaded, ?_⟩
    refine Query.lift_bind_eq_ok_iff.mpr ⟨joined, joins, ?_⟩
    refine Query.lift_bind_eq_ok_iff.mpr ⟨sorted, sorts, ?_⟩
    exact Query.lift_bind_eq_ok_iff.mpr ⟨answer, projects, rfl⟩

theorem efficiency_eq_ok_iff {params : EfficiencyParams} {ranking : QueryResult} :
    engine.efficiency files params cache = (.ok ranking, after) ↔
      ∃ counted counts regions middle located measured named perMillion scored sorted answer,
        engine.EventGroups files params.filter (.counting ["NOC", "Year"] "medal_count")
          counted counts ∧
        engine.loadRegions files cache = (.ok regions, middle) ∧
        counts.join regions ["NOC"] .left = .ok located ∧
        engine.attachStats files located middle = (.ok measured, after) ∧
        withCountryName measured = .ok named ∧
        named.addColumn "medals_per_million"
          (perUnit "Population" (Double.ofInt 1000000)) = .ok perMillion ∧
        perMillion.addColumn "medals_per_billion_gdp"
          (perUnit "GDP_USD" (Double.ofInt 1000000000)) = .ok scored ∧
        scored.sortBy params.sortBy.column true = .ok sorted ∧
        (sorted.head params.topN).project EfficiencyParams.columns = .ok answer ∧
        ranking = .ofTable answer "efficiency"
          (counted.groupBy (.counting ["NOC", "Year"] "medal_count")).2.readStats := by
  unfold efficiency
  constructor
  · intro success
    obtain ⟨reader, opened, success⟩ := Query.lift_bind_eq_ok_iff.mp success
    obtain ⟨counted, staged, success⟩ := Query.lift_bind_eq_ok_iff.mp success
    obtain ⟨counts, grouped, success⟩ := Query.lift_bind_eq_ok_iff.mp success
    obtain ⟨regions, middle, loaded, success⟩ := Query.bind_eq_ok_iff.mp success
    obtain ⟨located, joins, success⟩ := Query.lift_bind_eq_ok_iff.mp success
    obtain ⟨measured, last, attached, success⟩ := Query.bind_eq_ok_iff.mp success
    obtain ⟨named, names, success⟩ := Query.lift_bind_eq_ok_iff.mp success
    obtain ⟨perMillion, people, success⟩ := Query.lift_bind_eq_ok_iff.mp success
    obtain ⟨scored, money, success⟩ := Query.lift_bind_eq_ok_iff.mp success
    obtain ⟨sorted, sorts, success⟩ := Query.lift_bind_eq_ok_iff.mp success
    obtain ⟨answer, projects, success⟩ := Query.lift_bind_eq_ok_iff.mp success
    obtain ⟨made, rfl⟩ := Prod.mk.inj success
    exact ⟨counted, counts, regions, middle, located, measured, named, perMillion, scored, sorted,
      answer, ⟨⟨reader, opened, staged⟩, grouped⟩, loaded, joins, attached, names, people, money,
      sorts, projects, (Except.ok.inj made).symm⟩
  · rintro ⟨counted, counts, regions, middle, located, measured, named, perMillion, scored, sorted,
      answer, ⟨⟨reader, opened, staged⟩, grouped⟩, loaded, joins, attached, names, people, money,
      sorts, projects, rfl⟩
    refine Query.lift_bind_eq_ok_iff.mpr ⟨reader, opened, ?_⟩
    refine Query.lift_bind_eq_ok_iff.mpr ⟨counted, staged, ?_⟩
    refine Query.lift_bind_eq_ok_iff.mpr ⟨counts, grouped, ?_⟩
    refine Query.bind_eq_ok_iff.mpr ⟨regions, middle, loaded, ?_⟩
    refine Query.lift_bind_eq_ok_iff.mpr ⟨located, joins, ?_⟩
    refine Query.bind_eq_ok_iff.mpr ⟨measured, after, attached, ?_⟩
    refine Query.lift_bind_eq_ok_iff.mpr ⟨named, names, ?_⟩
    refine Query.lift_bind_eq_ok_iff.mpr ⟨perMillion, people, ?_⟩
    refine Query.lift_bind_eq_ok_iff.mpr ⟨scored, money, ?_⟩
    refine Query.lift_bind_eq_ok_iff.mpr ⟨sorted, sorts, ?_⟩
    exact Query.lift_bind_eq_ok_iff.mpr ⟨answer, projects, rfl⟩

/-- A page of the events in the order that a search asks for. -/
def searchedPage (params : SearchParams) (events : Pipeline) : Except Fault Page × Pipeline :=
  let window := Window.ofPage (max params.page 1) params.pageSize
  match params.order with
  | .file => events.page params.filter params.columns window
  | .year => events.sortedPage params.filter params.columns ⟨"Year", false⟩ window

theorem search_eq_ok_iff {params : SearchParams} {found : SearchPage} :
    engine.search files params = .ok found ↔
      (0 < params.pageSize ∧ params.pageSize ≤ engine.settings.maxPageSize) ∧
        ∃ reader page after, engine.openTable files .events = .ok reader ∧
          searchedPage params (.ofReader reader) = (.ok page, after) ∧
          found = ⟨page.rows, page.total, max params.page 1, params.pageSize, page.names,
            .ofReading "search_athletes" page.rows.length after.readStats⟩ := by
  have sized : 0 < params.pageSize ∧ params.pageSize ≤ engine.settings.maxPageSize ↔
      ¬ (params.pageSize = 0 ∨ engine.settings.maxPageSize < params.pageSize) := by
    omega
  rw [sized]
  unfold search
  by_cases refused : params.pageSize = 0 ∨ engine.settings.maxPageSize < params.pageSize
  · simp [refused, bind, Except.bind, throw, throwThe, MonadExceptOf.throw]
  simp only [refused, if_false, not_false_eq_true, true_and, bind, Except.bind, pure, Except.pure]
  cases opened : engine.openTable files .events with
  | error => simp
  | ok reader =>
    unfold searchedPage
    cases params.order with
    | file =>
      dsimp only
      cases made : (Pipeline.ofReader reader).page params.filter params.columns
        (Window.ofPage (max params.page 1) params.pageSize) with
      | mk outcome after => cases outcome <;> simp [made, eq_comm, and_assoc]
    | year =>
      dsimp only
      cases made : (Pipeline.ofReader reader).sortedPage params.filter params.columns ⟨"Year", false⟩
        (Window.ofPage (max params.page 1) params.pageSize) with
      | mk outcome after => cases outcome <;> simp [made, eq_comm, and_assoc]

end Engine

end Medals
