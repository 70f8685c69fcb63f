import Medals.Proofs.Query.Efficiency
import Medals.Proofs.Table.Likeness

/-!
# Country codes that are the NOCs themselves

With a table of codes the counts are joined with it by NOC first and with the statistics by country
code then, and without one with the statistics by NOC. When every code is its own NOC, in the
statistics (`Table.NamesAlike`) and in the table of codes (`Table.MapsToItself`), a row finds the
same statistics either way (`Table.concur_join_stats`). The two tables that come out differ in the
order of their columns and in their country codes, which no later step reads, so that
`Engine.efficiency_of_own_codes` concludes that the rankings are the same.
-/

namespace Medals

namespace Query

variable {α β γ δ : Type} {related : α → β → Prop} {made : γ → δ → Prop}
  {cache otherCache : Option TableCache}

/-- What a query gives after another is what it gives on the value and the cache of the first. -/
theorem fst_bind (query : Query α) (next : α → Query γ) :
    ((query >>= next) cache).1 =
      (query cache).1 >>= fun value => (next value (query cache).2).1 := by
  rw [bind_apply]
  cases (query cache).1 <;> rfl

theorem fst_bind_of_ok {query : Query α} {next : α → Query γ} {value : α}
    (found : (query cache).1 = .ok value) :
    ((query >>= next) cache).1 = (next value (query cache).2).1 := by
  rw [fst_bind, found]
  rfl

theorem fst_lift_bind_of_ok {source : Except Fault α} {next : α → Query γ} {value : α}
    (found : source = .ok value) :
    (((liftM source : Query α) >>= next) cache).1 = (next value cache).1 :=
  fst_bind_of_ok (show ((liftM source : Query α) cache).1 = .ok value from found)

/-- Queries that go on alike from related answers concur, whatever becomes of the caches. -/
theorem concur_bind {one : Query α} {other : Query β} {next : α → Query γ} {step : β → Query δ}
    (concur : Concur related (one cache).1 (other otherCache).1)
    (later : ∀ value further, related value further →
      Concur made (next value (one cache).2).1 (step further (other otherCache).2).1) :
    Concur made ((one >>= next) cache).1 ((other >>= step) otherCache).1 := by
  rw [fst_bind, fst_bind]
  exact concur.bind later

/-- Of what uses no cache the same is true. -/
theorem concur_lift_bind {one : Except Fault α} {other : Except Fault β} {next : α → Query γ}
    {step : β → Query δ} (concur : Concur related one other)
    (later : ∀ value further, related value further →
      Concur made (next value cache).1 (step further otherCache).1) :
    Concur made (((liftM one : Query α) >>= next) cache).1
      (((liftM other : Query β) >>= step) otherCache).1 :=
  concur_bind (show Concur related ((liftM one : Query α) cache).1
    ((liftM other : Query β) otherCache).1 from concur) later

end Query

namespace Table

variable {located stats codes chosen joined : Table} {nocs : List CellKey}

/-- Every row of the statistics has its NOC for a country code. -/
structure NamesAlike (stats : Table) : Prop where
  noc : "NOC" ∈ stats.names
  code : "Country Code" ∈ stats.names
  same : ∀ row ∈ stats.rows, (row.under "NOC").key = (row.under "Country Code").key

/-- The table of codes has one row for each of the NOCs that is not missing, with the NOC itself for
a country code. -/
structure MapsToItself (codes : Table) (nocs : List CellKey) : Prop where
  noc : "NOC" ∈ codes.names
  code : "Country Code" ∈ codes.names
  once : ∀ noc ∈ nocs, noc ≠ .missing →
    ((codes.rowsOf ["NOC"] [noc]).map fun row => (row.under "Country Code").key) = [noc]

/-- By NOC and by country code the statistics are looked up alike. -/
theorem NamesAlike.partners_eq (alike : stats.NamesAlike) (noc year : CellKey) :
    stats.partners ["NOC", "Year"] [noc, year] =
      stats.partners ["Country Code", "Year"] [noc, year] := by
  have found : stats.rowsOf ["NOC", "Year"] [noc, year] =
      stats.rowsOf ["Country Code", "Year"] [noc, year] := by
    unfold rowsOf
    refine if_congr Iff.rfl rfl (List.filter_congr fun row member => ?_)
    simp only [Row.keysUnder, List.map_cons, List.map_nil, alike.same row member]
  rw [partners, partners, found]

theorem MapsToItself.project (itself : codes.MapsToItself nocs)
    (projects : codes.project ["NOC", "Country Code"] = .ok chosen) :
    chosen.MapsToItself nocs := by
  obtain ⟨names, -⟩ := narrow_of_project projects
  refine ⟨by simp [names], by simp [names], fun noc listed present => ?_⟩
  have narrowed (row : Row) : (row.narrow ["NOC", "Country Code"]).under "Country Code" =
      row.under "Country Code" := Row.under_narrow (by simp)
  rw [rowsOf_of_project projects (by simp), List.map_map]
  refine Eq.trans (List.map_congr_left fun row _ => ?_) (itself.once noc listed present)
  exact congrArg Cell.key (narrowed row)

/-- A NOC leads to at most one row of the table of codes, and its country code is the NOC, also when
it is missing. -/
theorem MapsToItself.lookup (itself : codes.MapsToItself nocs) {noc : CellKey}
    (listed : noc ∈ nocs) :
    (codes.rowsOf ["NOC"] [noc]).length ≤ 1 ∧
      (codes.lookup ["NOC"] [noc] "Country Code").key = noc := by
  unfold Table.lookup
  by_cases absent : noc = .missing
  · have nothing : codes.rowsOf ["NOC"] [noc] = [] := if_pos (by simp [absent])
    rw [nothing, absent]
    exact ⟨Nat.zero_le 1, rfl⟩
  · obtain ⟨row, found, code⟩ := List.map_eq_singleton_iff.mp (itself.once noc listed absent)
    rw [found]
    exact ⟨Nat.le_refl 1, code⟩

/-- Rows that are joined with the codes keep their cells and gain their NOC for a country code. -/
theorem MapsToItself.coded (itself : codes.MapsToItself nocs)
    (joins : located.join codes ["NOC"] .left = .ok joined)
    (known : ∀ row ∈ located.rows, row.nocKey ∈ nocs) (uncoded : "Country Code" ∉ located.names) :
    List.Forall₂ (fun row made => (∀ name ∈ located.names, made.under name = row.under name) ∧
      (made.under "Country Code").key = row.nocKey) located.rows joined.rows := by
  have under := under_of_join_alone joins fun row member => (itself.lookup (known row member)).1
  have members : List.Forall₂ (fun row same => row = same ∧ row ∈ located.rows) located.rows
      located.rows := List.forall₂_same.mpr fun row member => ⟨rfl, member⟩
  refine forall₂_of_map members under ?_
  rintro row _ made ⟨rfl, member⟩ own
  constructor
  · intro name listed
    rw [own, if_pos listed]
  · rw [own, if_neg uncoded]
    exact (itself.lookup (known row member)).2

/-- The rows of a join without one column, which the left table does not have. -/
theorem hide_of_join {left right result : Table} {on : List String} (column : String)
    (joins : left.join right on .left = .ok result) :
    (result.rows.map fun row => hide column row.under) = left.rows.flatMap fun row =>
      (right.partners on (row.keysUnder on)).map fun partner? =>
        hide column (row.filledFrom left.names partner?) := by
  have hidden : (result.rows.map fun row => hide column row.under) =
      (result.rows.map Row.under).map (hide column) := by
    rw [List.map_map]
    rfl
  rw [hidden, Table.under_of_join joins, List.map_flatMap]
  simp only [List.map_map, Function.comp_def]

/-- A row with its own NOC for a country code is paired by country code as the row without is by
NOC, and filled up alike. -/
theorem NamesAlike.pairs_eq (alike : stats.NamesAlike) {names coded : List String} {row made : Row}
    (held : ∀ name ∈ ["NOC", "Year"], name ∈ names)
    (columns : ∀ name, name ∈ coded ↔ name ∈ names ∨ name = "Country Code")
    (kept : ∀ name ∈ names, made.under name = row.under name)
    (code : (made.under "Country Code").key = row.nocKey) :
    ((stats.partners ["NOC", "Year"] (row.keysUnder ["NOC", "Year"])).map fun partner? =>
        hide "Country Code" (row.filledFrom names partner?)) =
      (stats.partners ["Country Code", "Year"] (made.keysUnder ["Country Code", "Year"])).map
        fun partner? => hide "Country Code" (made.filledFrom coded partner?) := by
  have keys : made.keysUnder ["Country Code", "Year"] = row.keysUnder ["NOC", "Year"] := by
    simp only [Row.keysUnder, List.map_cons, List.map_nil, code,
      kept "Year" (held "Year" (by simp)), Row.nocKey]
  have found : stats.partners ["NOC", "Year"] (row.keysUnder ["NOC", "Year"]) =
      stats.partners ["Country Code", "Year"] (row.keysUnder ["NOC", "Year"]) :=
    alike.partners_eq _ _
  rw [keys, found]
  refine List.map_congr_left fun partner? _ => hide_eq_iff.mpr fun name apart => ?_
  have same : name ∈ coded ↔ name ∈ names := (columns name).trans (or_iff_left apart)
  rw [Row.filledFrom, Row.filledFrom, if_congr same rfl rfl]
  split
  · next listed => rw [kept name listed]
  · rfl

/-- Through codes that are the NOCs themselves the statistics are joined as they are directly. -/
theorem concur_join_stats (alike : stats.NamesAlike) (itself : codes.MapsToItself nocs)
    (layout : codes.names = ["NOC", "Country Code"])
    (joins : located.join codes ["NOC"] .left = .ok joined)
    (known : ∀ row ∈ located.rows, row.nocKey ∈ nocs)
    (held : ∀ name ∈ ["NOC", "Year"], name ∈ located.names)
    (uncoded : "Country Code" ∉ located.names) :
    Concur (AlikeBut "Country Code") (located.join stats ["NOC", "Year"] .left)
      (joined.join stats ["Country Code", "Year"] .left) := by
  have columns (name : String) :
      name ∈ joined.names ↔ name ∈ located.names ∨ name = "Country Code" := by
    rw [mem_names_of_join joins, layout]
    have noc := held "NOC" (by simp)
    simp only [List.mem_cons, List.not_mem_nil, or_false]
    grind
  have coded : ∀ name ∈ ["Country Code", "Year"], name ∈ joined.names := by
    simp [columns, held "Year" (by simp)]
  by_cases dated : "Year" ∈ stats.names
  · obtain ⟨measured, attaches, names⟩ := @exists_join_left located stats ["NOC", "Year"] held
      (by simp [alike.noc, dated])
    obtain ⟨remeasured, reattaches, renames⟩ := @exists_join_left joined stats
      ["Country Code", "Year"] coded (by simp [alike.code, dated])
    rw [attaches, reattaches]
    refine .value ⟨fun name => ?_, ?_⟩
    · have code := alike.code
      rw [names, renames, columns]
      grind
    · rw [hide_of_join _ attaches, hide_of_join _ reattaches, ← List.forall₂_eq_eq_eq]
      refine List.rel_flatMap (itself.coded joins known uncoded) ?_
      rintro row made ⟨kept, code⟩
      exact List.forall₂_eq_eq_eq ▸ alike.pairs_eq held columns kept code
  · have refused := join_of_lacking (show ["NOC", "Year"] = ["NOC"] ++ "Year" :: [] from rfl) held
      (by simp [alike.noc]) dated .left
    have refusedCoded := join_of_lacking
      (show ["Country Code", "Year"] = ["Country Code"] ++ "Year" :: [] from rfl) coded
      (by simp [alike.code]) dated .left
    rw [refused, refusedCoded]
    exact .fault _

end Table

namespace Engine

variable {direct coded : Engine} {files : Files} {cache : Option TableCache} {file : String}

section Steps

variable {table other : Table}

theorem concur_withCountryName (alike : Table.AlikeBut "Country Code" table other) :
    Concur (Table.AlikeBut "Country Code") (withCountryName table) (withCountryName other) := by
  have same : table.schema.contains "Country Name" = other.schema.contains "Country Name" := by
    rw [Bool.eq_iff_iff]
    exact (position?_isSome.trans (alike.names _)).trans position?_isSome.symm
  rw [withCountryName, withCountryName, ← same]
  split
  · exact .value alike
  · exact alike.addColumn fun _ _ _ => rfl

theorem concur_perUnit (alike : Table.AlikeBut "Country Code" table other) {column : String}
    (apart : column ≠ "Country Code") (name : String) (scale : Double) :
    Concur (Table.AlikeBut "Country Code") (table.addColumn name (perUnit column scale))
      (other.addColumn name (perUnit column scale)) :=
  alike.addColumn fun _ _ same => perUnit_congr (hide_eq_iff.mp same _ (by decide))
    (hide_eq_iff.mp same _ apart) scale

end Steps

section Coded

variable (mapped : coded.settings = { direct.settings with nocCodesFile := some file })
  {table : Dataset} (uncoded : table ≠ .nocCodes)

include mapped uncoded

theorem path_coded : coded.settings.path table = direct.settings.path table := by
  rw [mapped]
  cases table with
  | nocCodes => exact absurd rfl uncoded
  | _ => rfl

/-- A table of codes makes no difference to how the other tables are opened. -/
theorem openTable_coded : coded.openTable files table = direct.openTable files table := by
  have options : coded.settings.readOptionsOf table = direct.settings.readOptionsOf table := by
    rw [mapped]
    rfl
  rw [openTable, openTable, openWith, openWith, path_coded mapped uncoded, options]

theorem load_coded : coded.load files table = direct.load files table := by
  have path := path_coded mapped uncoded
  have read : coded.readTable files table = direct.readTable files table := by
    rw [readTable, readTable, openTable_coded mapped uncoded]
  funext cache
  cases cache with
  | none => rw [load, load, read]
  | some cache => cases table <;> simp_all [load]

end Coded

/-- Statistics that name places alike are attached alike through codes that are the NOCs. -/
theorem concur_attachStats {located : Table} {nocs : List CellKey}
    (plain : direct.settings.nocCodesFile = none)
    (mapped : coded.settings = { direct.settings with nocCodesFile := some file })
    (alike : ∀ stats, (direct.load files .stats cache).1 = .ok stats → stats.NamesAlike)
    (itself : ∃ codes, (coded.load files .nocCodes (direct.load files .stats cache).2).1 =
      .ok codes ∧ codes.MapsToItself nocs)
    (known : ∀ row ∈ located.rows, row.nocKey ∈ nocs)
    (held : ∀ name ∈ ["NOC", "Year"], name ∈ located.names)
    (uncoded : "Country Code" ∉ located.names) :
    Concur (Table.AlikeBut "Country Code") (direct.attachStats files located cache).1
      (coded.attachStats files located cache).1 := by
  obtain ⟨codes, loaded, itself⟩ := itself
  obtain ⟨chosen, projects, layout⟩ := @Table.exists_project codes ["NOC", "Country Code"]
    (by simp [itself.noc, itself.code])
  obtain ⟨joined, joins, -⟩ := @Table.exists_join_left located chosen ["NOC"]
    (by simp [held "NOC" (by simp)]) (by simp [layout])
  have through : coded.settings.nocCodesFile.isNone = false := by
    rw [mapped]
    rfl
  unfold attachStats
  rw [load_coded mapped (by decide), plain, through]
  refine Query.concur_bind (.self _) ?_
  rintro stats _ ⟨found, rfl⟩
  have attached := Table.concur_join_stats (alike stats found) (itself.project projects) layout
    joins known held uncoded
  simp only [Option.isNone_none, if_true, Bool.false_eq_true, if_false]
  rw [Query.fst_bind_of_ok loaded, Query.fst_lift_bind_of_ok projects,
    Query.fst_lift_bind_of_ok joins]
  exact attached

/-- Counts that are located keep their NOCs and years, and gain no country code. -/
theorem located_of_join {counts regions located : Table} {year : Int64} {nocs : List CellKey}
    {eventsOf : CellKey → List Row}
    (joins : counts.join regions ["NOC"] .left = .ok located)
    (regionNames : regions.names = ["NOC", "region"])
    (names : counts.names = groupColumns (some year) ++ ["medal_count"])
    (rows : List.Forall₂ (fun noc row => row.Tells (some year) noc (eventsOf noc)
      (eventsOf noc).length) nocs counts.rows) :
    (∀ row ∈ located.rows, row.nocKey ∈ nocs) ∧ (∀ name ∈ ["NOC", "Year"], name ∈ located.names) ∧
      "Country Code" ∉ located.names := by
  have members := (List.forall₂_and_left _ _).mpr ⟨fun noc member => member, rows⟩
  refine ⟨?_, ?_, ?_⟩
  · refine (Table.makes_join joins fun _ => Iff.rfl).forall_under (by simp [names, groupColumns])
      (fun cell => cell.key ∈ nocs) fun row member => ?_
    obtain ⟨noc, listed, tells⟩ := exists_of_forall₂ members row member
    have own : (row.under "NOC").key = noc := tells.key
    rwa [own]
  · simp [Table.mem_names_of_join joins, names, groupColumns]
  · simp [Table.mem_names_of_join joins, names, regionNames, groupColumns]

theorem loadRegions_coded
    (mapped : coded.settings = { direct.settings with nocCodesFile := some file }) :
    coded.loadRegions files = direct.loadRegions files := by
  rw [loadRegions, loadRegions, load_coded mapped (by decide)]

/-- A table of codes that has one row for each NOC that won a counted medal, with the NOC itself for
a country code, makes no difference to the efficiency ranking when every row of the statistics has
its NOC for a country code: the ranking has the same columns and rows in the same order, or fails
with the same fault. -/
theorem efficiency_of_own_codes {params : EfficiencyParams}
    (plain : direct.settings.nocCodesFile = none)
    (mapped : coded.settings = { direct.settings with nocCodesFile := some file })
    (alike : ∀ stats, (direct.load files .stats (direct.load files .countries cache).2).1 =
      .ok stats → stats.NamesAlike)
    (itself : ∀ events, direct.eventRows files = .ok events → ∃ codes,
      (coded.load files .nocCodes (direct.load files .stats
        (direct.load files .countries cache).2).2).1 = .ok codes ∧
      codes.MapsToItself (nocsOf (params.counted events))) :
    (coded.efficiency files params cache).1 = (direct.efficiency files params cache).1 := by
  refine Eq.symm (Concur.eq ?_)
  unfold efficiency
  rw [openTable_coded mapped (by decide)]
  refine Query.concur_lift_bind (.self _) ?_
  rintro reader _ ⟨opened, rfl⟩
  refine Query.concur_lift_bind (.self _) ?_
  rintro counted _ ⟨staged, rfl⟩
  refine Query.concur_lift_bind (.self _) ?_
  rintro counts _ ⟨grouped, rfl⟩
  have groups : direct.EventGroups files params.filter (.counting ["NOC", "Year"] "medal_count")
      counted counts := ⟨⟨reader, opened, staged⟩, grouped⟩
  obtain ⟨_, events, reads, names, rows⟩ := groups.efficiencyRows
  rw [loadRegions_coded mapped]
  refine Query.concur_bind (.self _) ?_
  rintro regions _ ⟨loaded, rfl⟩
  obtain ⟨countries, found, projects⟩ := loadRegions_eq_ok_iff.mp (Prod.ext loaded rfl)
  obtain ⟨regionNames, -⟩ := Table.narrow_of_project projects
  refine Query.concur_lift_bind (.self _) ?_
  rintro located _ ⟨joins, rfl⟩
  obtain ⟨known, held, uncoded⟩ := located_of_join joins regionNames names rows
  rw [found] at alike itself
  refine Query.concur_bind (concur_attachStats plain mapped alike (itself events reads.eventRows_eq)
    known held uncoded) ?_
  intro measured remeasured alike
  refine Query.concur_lift_bind (concur_withCountryName alike) ?_
  intro named renamed alike
  refine Query.concur_lift_bind (concur_perUnit alike (by decide) _ _) ?_
  intro perMillion rePerMillion alike
  refine Query.concur_lift_bind (concur_perUnit alike (by decide) _ _) ?_
  intro scored rescored alike
  refine Query.concur_lift_bind (alike.sortByKeys ?_) ?_
  · cases params.sortBy <;> simp [EfficiencyMetric.column]
  intro sorted resorted alike
  refine Query.concur_lift_bind ((alike.head params.topN).project (by decide)) ?_
  rintro answer reanswer ⟨columns, same⟩
  refine .value ?_
  simp only [QueryResult.ofTable, Table.size, columns, same]

section Example

/-- The statistics of a year, with the NOC for a country code. -/
def oneCodedYear : List Row :=
  [⟨["NOC", "Country Code", "Year", "Population", "GDP_USD"],
    [.text "A", .text "A", .integer 1, .missing, .missing], rfl⟩]

def oneCode : List Row :=
  [⟨["NOC", "Country Code"], [.text "A", .text "A"], rfl⟩]

/-- Tables at their standard places, and a table of codes beside them. -/
def filesWithCodes (events countries stats codes : StoredFile) : Files :=
  (Files.tables events countries stats).put ["data", "noc_codes.csv"] codes

theorem find_filesWithCodes (events countries stats codes : StoredFile) :
    (filesWithCodes events countries stats codes).find "data/events.csv" = .file events ∧
      (filesWithCodes events countries stats codes).find "data/countries.csv" = .file countries ∧
      (filesWithCodes events countries stats codes).find "data/country_year_stats.csv" =
        .file stats ∧
      (filesWithCodes events countries stats codes).find "data/noc_codes.csv" = .file codes :=
  ⟨Files.find_relative (by decide) (by decide)
      (show Path.segments _ = ["data", "events.csv"] by decide) rfl rfl,
    Files.find_relative (by decide) (by decide)
      (show Path.segments _ = ["data", "countries.csv"] by decide) rfl rfl,
    Files.find_relative (by decide) (by decide)
      (show Path.segments _ = ["data", "country_year_stats.csv"] by decide) rfl rfl,
    Files.find_relative (by decide) (by decide)
      (show Path.segments _ = ["data", "noc_codes.csv"] by decide) rfl rfl⟩

/-- Events, a country, the statistics of a year and a country code as files. -/
def codedFiles : Files :=
  filesWithCodes ⟨CsvWriter.encoded 0x2c ["NOC", "Year", "Medal"] threeEvents, 0⟩
    ⟨CsvWriter.encoded 0x2c ["NOC", "region"] oneCountry, 0⟩
    ⟨CsvWriter.encoded 0x2c ["NOC", "Country Code", "Year", "Population", "GDP_USD"] oneCodedYear,
      0⟩
    ⟨CsvWriter.encoded 0x2c ["NOC", "Country Code"] oneCode, 0⟩

theorem holds_codedFiles (standard : direct.settings = .standard)
    (mapped : coded.settings = { direct.settings with nocCodesFile := some "noc_codes.csv" }) :
    direct.Holds codedFiles .events ["NOC", "Year", "Medal"] threeEvents ∧
      direct.Holds codedFiles .countries ["NOC", "region"] oneCountry ∧
      direct.Holds codedFiles .stats ["NOC", "Country Code", "Year", "Population", "GDP_USD"]
        oneCodedYear ∧
      coded.Holds codedFiles .nocCodes ["NOC", "Country Code"] oneCode := by
  obtain ⟨eventFile, countryFile, statsFile, codesFile⟩ := find_filesWithCodes
    ⟨CsvWriter.encoded 0x2c ["NOC", "Year", "Medal"] threeEvents, 0⟩
    ⟨CsvWriter.encoded 0x2c ["NOC", "region"] oneCountry, 0⟩
    ⟨CsvWriter.encoded 0x2c ["NOC", "Country Code", "Year", "Population", "GDP_USD"] oneCodedYear,
      0⟩
    ⟨CsvWriter.encoded 0x2c ["NOC", "Country Code"] oneCode, 0⟩
  have delimiter : coded.settings.delimiterByte = 0x2c := by
    rw [mapped, standard]
    decide
  have path : coded.settings.path .nocCodes = .ok "data/noc_codes.csv" := by
    rw [mapped, standard]
    exact congrArg Except.ok (Path.join_data (by decide))
  refine ⟨holds_of_standard standard (Settings.standard_path .events (by decide)) eventFile
      (by decide),
    holds_of_standard standard (Settings.standard_path .countries (by decide)) countryFile
      (by decide),
    holds_of_standard standard (Settings.standard_path .stats (by decide)) statsFile (by decide),
    ⟨?_, ⟨_, 0, path, ?_⟩, by decide⟩, ?_⟩
  · rw [delimiter]
    exact ⟨by decide, by decide, by decide⟩
  · rw [delimiter]
    exact codesFile
  · rw [mapped, standard]
    decide

/-- The code of the one NOC is the NOC itself, and the ranking is made either way. -/
theorem efficiency_of_one_code :
    ∃ (direct coded : Engine) (ranking : QueryResult), direct.settings = .standard ∧
      coded.settings = { direct.settings with nocCodesFile := some "noc_codes.csv" } ∧
      (direct.efficiency codedFiles ⟨1, none, none, .medalCount, 10⟩ none).1 = .ok ranking ∧
      (coded.efficiency codedFiles ⟨1, none, none, .medalCount, 10⟩ none).1 = .ok ranking := by
  obtain ⟨direct, standard⟩ := exists_standard
  obtain ⟨coded, mapped⟩ : ∃ engine : Engine,
      engine.settings = { direct.settings with nocCodesFile := some "noc_codes.csv" } :=
    ⟨⟨{ direct.settings with nocCodesFile := some "noc_codes.csv" }, by rw [standard]; rfl⟩, rfl⟩
  have plain : direct.settings.nocCodesFile = none := by rw [standard]; rfl
  obtain ⟨eventsHeld, countriesHeld, statsHeld, codesHeld⟩ := holds_codedFiles standard mapped
  obtain ⟨reader, reads, names⟩ := eventsHeld.readsEvents
  obtain ⟨countries, loaded, held, -⟩ := countriesHeld.load
  obtain ⟨stats, measured, known, statsRows⟩ := statsHeld.load
  obtain ⟨codes, found, layout, codeRows⟩ := codesHeld.load
  obtain ⟨ranking, made⟩ := exists_efficiency plain reads (by rw [names]; decide)
    ⟨1, none, none, .medalCount, 10⟩ (.inl rfl) loaded (by rw [held]; decide) measured
    (by rw [known]; decide) (by rw [known]; decide)
  refine ⟨direct, coded, ranking, standard, mapped, congrArg Prod.fst made, ?_⟩
  refine (efficiency_of_own_codes plain mapped ?_ ?_).trans (congrArg Prod.fst made)
  · intro other again
    rw [loaded, measured] at again
    obtain rfl := Except.ok.inj again
    refine ⟨by rw [known]; decide, by rw [known]; decide, ?_⟩
    rw [statsRows]
    decide
  · intro events read
    obtain rfl : threeEvents = events := Except.ok.inj (reads.eventRows_eq.symm.trans read)
    rw [loaded, measured, found]
    refine ⟨codes, rfl, by rw [layout]; decide, by rw [layout]; decide, ?_⟩
    have counted : nocsOf (EfficiencyParams.counted ⟨1, none, none, .medalCount, 10⟩ threeEvents) =
        [.text "A"] := by decide
    rw [counted]
    rintro noc listed -
    obtain rfl := List.mem_singleton.mp listed
    rw [Table.rowsOf, codeRows]
    decide

end Example

end Engine

end Medals
