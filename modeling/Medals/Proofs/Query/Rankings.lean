import Medals.Proofs.Query.MedalCounts
import Medals.Proofs.Table.Lookup

/-!
# Rankings of NOCs

A ranking adds to each NOC what is known of it and lists the best. `Engine.locatedRows` says what
the countries add, and `Table.listed_of_ranked` what is listed in which order, and that its counts
add up.
-/

namespace Medals

/-- What is true of rows in the order of some keys leads to what is true of the rows made of them. -/
theorem forall₂_of_map {κ : Type} {keys : List κ} {source result : List Row}
    {make : Row → String → Cell} {before after : κ → Row → Prop}
    (rows : List.Forall₂ before keys source) (under : result.map Row.under = source.map make)
    (step : ∀ key row made, before key row → (∀ name, made.under name = make row name) →
      after key made) :
    List.Forall₂ after keys result := by
  induction rows generalizing result with
  | nil =>
    obtain rfl := List.map_eq_nil_iff.mp under
    exact .nil
  | cons first _ ih =>
    obtain ⟨made, others, rfl, own, rest⟩ := List.map_eq_cons_iff.mp under
    exact .cons (step _ _ made first (congrFun own)) (ih rest)

theorem map_of_forall₂ {α κ : Type} {keys : List κ} {rows : List Row} {holds : κ → Row → Prop}
    {read : Row → α} {told : κ → α} (all : List.Forall₂ holds keys rows)
    (same : ∀ key row, holds key row → read row = told key) : rows.map read = keys.map told := by
  rw [← List.forall₂_eq_eq_eq, List.forall₂_map_left_iff, List.forall₂_map_right_iff]
  exact List.Forall₂.flip (all.imp same)

theorem exists_of_forall₂ {κ : Type} {keys : List κ} {rows : List Row} {holds : κ → Row → Prop}
    (all : List.Forall₂ holds keys rows) : ∀ row ∈ rows, ∃ key, holds key row := by
  induction all with
  | nil => simp
  | cons first _ ih => exact List.forall_mem_cons.mpr ⟨⟨_, first⟩, ih⟩

namespace Engine

/-- Counts that are joined with regions gain the regions of their NOCs. -/
theorem locatedRows {engine : Engine} {files : Files} {cache after : Option TableCache}
    {counts regions located : Table} {year? : Option Int64} {nocs : List CellKey}
    {eventsOf : CellKey → List Row} {medals : CellKey → Nat}
    (once : engine.CountriesOnce files cache)
    (loaded : engine.loadRegions files cache = (.ok regions, after))
    (joins : counts.join regions ["NOC"] .left = .ok located)
    (names : counts.names = groupColumns year? ++ ["medal_count"])
    (rows : List.Forall₂ (fun noc row => row.Tells year? noc (eventsOf noc) (medals noc))
      nocs counts.rows) :
    ∃ countries, engine.load files .countries cache = (.ok countries, after) ∧
      (∀ name, name ∈ located.names ↔ name ∈ groupColumns year? ∨ name = "medal_count" ∨
        name = "region") ∧
      List.Forall₂ (fun noc row => row.Tells year? noc (eventsOf noc) (medals noc) ∧
        row.under "region" = countries.lookup ["NOC"] [noc] "region") nocs located.rows := by
  obtain ⟨countries, found, projects⟩ := loadRegions_eq_ok_iff.mp loaded
  obtain ⟨-, -, regionNames, -⟩ := Table.rows_of_project projects
  refine ⟨countries, found, fun name => ?_, ?_⟩
  · rw [Table.mem_names_of_join joins, names, regionNames]
    have noc := noc_mem_groupColumns year?
    simp only [List.mem_append, List.mem_cons, List.not_mem_nil, or_false]
    grind
  · have under := Table.under_of_join_once joins (keyedOnce_of_loadRegions once loaded)
    refine forall₂_of_map rows under ?_
    intro noc row made tells own
    refine ⟨tells.congr fun name listed => ?_, ?_⟩
    · rw [own, if_pos (names ▸ listed)]
    · have new : "region" ∉ counts.names := by
        rw [names]
        unfold groupColumns
        split <;> simp
      rw [own, if_neg new, Row.keysUnder, List.map_singleton, ← tells.key]
      exact Table.lookup_of_project projects (by simp) (by simp) _

end Engine

namespace Table

/-- What is chosen from the first of the sorted rows are the first of the sorted choices. -/
theorem ranked_of_project {table sorted answer : Table} {columns : List String} {length : Nat}
    (key : SortKey) (sorts : table.sortBy key.column key.descending = .ok sorted)
    (unmixed : Cell.Unmixed (table.rows.map fun row => row.under key.column))
    (projects : (sorted.head length).project columns = .ok answer) (chosen : key.column ∈ columns) :
    ∃ shown : Row → Row,
      (∀ row ∈ table.rows, ∀ name ∈ columns, (shown row).under name = row.under name) ∧
      StableOrder key.order (table.rows.map shown) (sorted.rows.map shown) ∧
      answer.names = columns ∧ answer.rows = (sorted.rows.map shown).take length := by
  obtain ⟨layout, stable⟩ := sortBy_stable_of_unmixed key sorts unmixed
  obtain ⟨projection, bound, names, rows⟩ := rows_of_project projects
  have headNames : (sorted.head length).names = table.names := layout
  rw [headNames] at bound
  have kept : ∀ row ∈ table.rows, ∀ name ∈ columns,
      (projection.apply row).under name = row.under name := by
    intro row member name listed
    exact Projection.under_apply bound (table.aligned row member) listed
  refine ⟨projection.apply, kept, ?_, names, ?_⟩
  · apply StableOrder.map
    apply stable.congr
    intro first one second other
    rw [SortKey.order, SortKey.order, kept first one _ chosen, kept second other _ chosen]
  · rw [rows, ← List.map_take]
    rfl

end Table

/-- Rows that are in order, with no integer and number among the cells compared, stay as they are. -/
theorem SortKey.eq_of_ordered {key : SortKey} {listed ranked : List Row}
    (stable : StableOrder key.order listed ranked)
    (unmixed : Cell.Unmixed (listed.map fun row => row.under key.column))
    (ordered : listed.Pairwise fun first second => key.order first second ≠ .gt) :
    ranked = listed :=
  SortKey.eq_of_stable (.kindwise key.descending unmixed) (fun _ member => List.mem_map_of_mem member)
    stable ⟨.refl listed, ordered, fun _ _ => rfl⟩

/-- Counts that integers hold are read back, and add up, exactly. -/
theorem sum_whole {κ : Type} {keys : List κ} {size : κ → Nat}
    (small : ∀ key ∈ keys, size key < 2 ^ 63) {rows : List Row} {column : String}
    (cells : (rows.map fun row => row.under column) =
      keys.map fun key => .integer (Int64.ofNat (size key))) :
    (rows.map fun row => (row.under column).whole?) = keys.map (fun key => some (size key : Int)) ∧
      (rows.map fun row => (row.under column).whole?.getD 0).sum = ((keys.map size).sum : Nat) := by
  have whole : (rows.map fun row => (row.under column).whole?) =
      keys.map fun key => some (size key : Int) := by
    have read := congrArg (List.map Cell.whole?) cells
    rw [List.map_map, List.map_map] at read
    refine read.trans (List.map_congr_left fun key listed => ?_)
    rw [Function.comp_apply, Cell.whole?, Int64.toInt_ofNat_of_lt (small key listed)]
  refine ⟨whole, ?_⟩
  have values := congrArg (List.map fun whole : Option Int => whole.getD 0) whole
  rw [List.map_map, List.map_map] at values
  have total := map_list_sum (Nat.castAddMonoidHom Int) (keys.map size)
  rw [List.map_map] at total
  exact (congrArg List.sum values).trans total.symm

/-- A ranking lists a row for each key, in the order of one column. Its rows are those of the table
under the chosen columns, and its counts are exact. -/
theorem Table.listed_of_ranked {κ : Type} {keys : List κ} {holds : κ → Row → Prop}
    {table sorted answer : Table} {columns : List String} {length : Nat} (key : SortKey)
    (size : κ → Nat) (rows : List.Forall₂ holds keys table.rows)
    (count : ∀ key row, holds key row →
      row.under "medal_count" = .integer (Int64.ofNat (size key)))
    (sorts : table.sortBy key.column key.descending = .ok sorted)
    (unmixed : Cell.Unmixed (table.rows.map fun row => row.under key.column))
    (projects : (sorted.head length).project columns = .ok answer)
    (chosen : key.column ∈ columns) (counted : "medal_count" ∈ columns) :
    ∃ listed ranked, answer.names = columns ∧
      List.Forall₂ (fun key row => ∃ origin, holds key origin ∧
        ∀ name ∈ columns, row.under name = origin.under name) keys listed ∧
      StableOrder key.order listed ranked ∧ answer.rows = ranked.take length ∧
      (keys.length ≤ length → answer.rows = ranked) ∧
      ((∀ key ∈ keys, size key < 2 ^ 63) →
        (listed.map fun row => (row.under "medal_count").whole?) =
            keys.map (fun key => some (size key : Int)) ∧
          (keys.length ≤ length →
            (answer.rows.map fun row => (row.under "medal_count").whole?.getD 0).sum =
              ((keys.map size).sum : Nat))) := by
  obtain ⟨shown, same, stable, names, top⟩ := ranked_of_project key sorts unmixed projects chosen
  have members : List.Forall₂ (fun row key => row ∈ table.rows ∧ holds key row) table.rows keys :=
    (List.forall₂_and_left _ _).mpr ⟨fun row member => member, List.Forall₂.flip rows⟩
  have listed : List.Forall₂ (fun key row => ∃ origin, holds key origin ∧
      ∀ name ∈ columns, row.under name = origin.under name) keys (table.rows.map shown) := by
    rw [List.forall₂_map_right_iff]
    refine List.Forall₂.flip (members.imp ?_)
    rintro row key ⟨member, told⟩
    exact ⟨row, told, same row member⟩
  have numbers : ((table.rows.map shown).map fun row => row.under "medal_count") =
      keys.map fun key => .integer (Int64.ofNat (size key)) := by
    refine map_of_forall₂ listed ?_
    rintro key row ⟨origin, told, cells⟩
    rw [cells _ counted, count key origin told]
  have all : keys.length ≤ length → answer.rows = sorted.rows.map shown := by
    intro enough
    refine top.trans (List.take_of_length_le ?_)
    rw [stable.perm.length_eq, ← listed.length_eq]
    exact enough
  refine ⟨_, _, names, listed, stable, top, all, fun small => ?_⟩
  obtain ⟨exactly, total⟩ := sum_whole small numbers
  refine ⟨exactly, fun enough => ?_⟩
  rw [all enough, (stable.perm.map _).sum_eq, total]

namespace Engine

section Example

/-- Rankings of written tables succeed, and look NOCs up in what is read of them. -/
theorem rankings_of_stored {engine : Engine} (standard : engine.settings = .standard)
    {files : Files} {events countryRows statsRows measures : List Row}
    (eventsHeld : engine.Holds files .events ["NOC", "Year", "Medal"] events)
    (countriesHeld : engine.Holds files .countries ["NOC", "region"] countryRows)
    (statsStored : engine.Stores files .stats ["NOC", "Year", "Population", "GDP_USD"] statsRows)
    (read : statsRows.map (RowReader.reread (Settings.standard.readOptionsOf .stats)
      ["NOC", "Year", "Population", "GDP_USD"]) = measures)
    (once : countryRows.Pairwise fun row other => ¬ row.Agree ["NOC"] other)
    (statsOnce : measures.Pairwise fun row other => ¬ row.Agree ["NOC", "Year"] other) :
    ∃ reader countries stats, engine.ReadsEvents files reader events ∧
      engine.load files .countries none = (.ok countries, none) ∧
      countries.rows = countryRows ∧ engine.CountriesOnce files none ∧
      engine.load files .stats none = (.ok stats, none) ∧ stats.rows = measures ∧
      engine.StatsOnce files none ∧
      (∀ params, ∃ board, engine.leaderboard files params none = (.ok board, none)) ∧
      ∀ params : EfficiencyParams, selected? params.season = none →
        ∃ ranking, engine.efficiency files params none = (.ok ranking, none) := by
  obtain ⟨reader, reads, names⟩ := eventsHeld.readsEvents
  obtain ⟨countries, loaded, held, countryRows⟩ := countriesHeld.load
  obtain ⟨stats, measured, known, statsRows⟩ := statsStored.load
  rw [standard, read] at statsRows
  have columns : ∀ name ∈ medalColumns, name ∈ reader.names := by
    rw [names]
    decide
  refine ⟨reader, countries, stats, reads, loaded, countryRows, ?_, measured, statsRows, ?_, ?_, ?_⟩
  · intro other found
    obtain rfl : countries = other := Except.ok.inj ((congrArg Prod.fst loaded).symm.trans found)
    rwa [Table.KeyedOnce, countryRows]
  · intro other found
    obtain rfl : stats = other := Except.ok.inj ((congrArg Prod.fst measured).symm.trans found)
    rwa [Table.KeyedOnce, statsRows]
  · exact exists_leaderboard reads columns loaded (by rw [held]; decide)
  · intro params season
    exact exists_efficiency (by rw [standard]; rfl) reads columns params (.inl season) loaded
      (by rw [held]; decide) measured (by rw [known]; decide) (by rw [known]; decide)

/-- The tables that are looked up have one row each here. -/
theorem rankings_of_eventFiles {engine : Engine} (standard : engine.settings = .standard)
    {events : List Row}
    (told : RowReader.Told (Settings.standard.readOptionsOf .events) ["NOC", "Year", "Medal"]
      events) :
    ∃ reader countries stats, engine.ReadsEvents (eventFiles events) reader events ∧
      engine.load (eventFiles events) .countries none = (.ok countries, none) ∧
      countries.rows = oneCountry ∧ engine.CountriesOnce (eventFiles events) none ∧
      engine.load (eventFiles events) .stats none = (.ok stats, none) ∧ stats.rows = oneYear ∧
      engine.StatsOnce (eventFiles events) none ∧
      (∀ params, ∃ board, engine.leaderboard (eventFiles events) params none = (.ok board, none)) ∧
      ∀ params : EfficiencyParams, selected? params.season = none →
        ∃ ranking, engine.efficiency (eventFiles events) params none = (.ok ranking, none) := by
  obtain ⟨eventsHeld, countriesHeld, statsHeld⟩ := holds_eventFiles standard told
  exact rankings_of_stored standard eventsHeld countriesHeld statsHeld.toStores
    (standard ▸ statsHeld.told).map_reread (List.pairwise_singleton _ _)
    (List.pairwise_singleton _ _)

end Example

end Engine

end Medals
