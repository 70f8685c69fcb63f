import Medals.Json.Tree
import Medals.Proofs.Stream.Grouping
import Medals.Proofs.Stream.SortedPage
import Medals.Proofs.Stream.Source
import Medals.Proofs.Stream.Validation
import Medals.Proofs.Table.Carrying
import Medals.Proofs.Table.JoinNames
import Medals.Proofs.Table.KeyOrder
import Medals.Proofs.Table.Lookup

/-!
# Distinct names

Tables, streams and pages are made from one another (`Relation.Derived`). If tables and origins start
with distinct names, and no projection chooses a column twice, all that is made of them has distinct
names, and its rows are mappings from names to cells (`Relation.distinct_names`). A projection that
chooses a column twice is not refused, on tables as little as on streams, and shows it twice.
-/

namespace Medals

namespace Row

/-- The row is a mapping: what it lists under a name is what a look-up finds there, and its JSON
object has no key twice. -/
structure IsMapping (row : Row) : Prop where
  distinct : row.names.Nodup
  found : ∀ entry ∈ row.entries, row.get entry.1 = .ok entry.2
  keys : ∃ members, row.toJson = .object members ∧ (members.map Prod.fst).Nodup

theorem map_fst_entries (row : Row) : row.entries.map Prod.fst = row.names :=
  List.map_fst_zip (Nat.le_of_eq row.width.symm)

theorem isMapping_of_nodup {row : Row} (distinct : row.names.Nodup) : row.IsMapping where
  distinct := distinct
  found := by
    rintro ⟨name, cell⟩ member
    obtain ⟨place, inside, same⟩ := List.getElem_of_mem member
    have within : place < row.names.length ∧ place < row.cells.length := by
      simpa [entries] using inside
    obtain ⟨rfl, rfl⟩ : row.names[place] = name ∧ row.cells[place] = cell := by
      simpa [entries] using same
    simp only [get, position?, position?_getElem distinct within.1, cellAt,
      List.getD_eq_getElem _ _ within.2]
  keys := ⟨_, rfl, by simpa [Function.comp_def] using (map_fst_entries row).symm ▸ distinct⟩

theorem nodup_of_ofPairs {pairs : List (String × Cell)} {row : Row}
    (made : ofPairs pairs = .ok row) : row.names.Nodup := by
  obtain ⟨_, distinct, made⟩ := bind_eq_ok_iff.mp made
  obtain rfl := Except.ok.inj made
  exact (distinctNames_eq_ok_iff.mp distinct).1

end Row

theorem RowReader.nodup_of_openData {data : List UInt8} {source : String} {options : ReadOptions}
    {reader : RowReader} (opened : openData data source options = .ok reader) :
    reader.names.Nodup := by
  obtain ⟨start, header, cursor, -, -, distinct, rfl⟩ := exists_of_openData opened
  simpa [names, Function.comp_def] using (firstRepeated?_eq_none_iff.mp distinct).1

namespace Table

variable {table result : Table}

theorem names_of_sortByKeys {keys : List SortKey} (sorts : table.sortByKeys keys = .ok result) :
    result.names = table.names := by
  rw [names, (rows_of_sortByKeys sorts).1, names]

theorem nodup_of_groupBy {grouping : Grouping} (grouped : table.groupBy grouping = .ok result) :
    result.names.Nodup := by
  obtain ⟨groups, accepted⟩ := bind_of_groupBy grouped
  obtain ⟨made, same, names, -⟩ := Groups.foldl_add_table accepted table.aligned
  rw [groupBy_of_bind accepted, same] at grouped
  obtain rfl := Except.ok.inj grouped
  exact names ▸ Groups.nodup_of_bind accepted

end Table

namespace Pipeline

variable {source : Pipeline}

theorem names_of_toTable {table : Table} (assembled : Assembled source)
    (made : source.toTable.1 = .ok table) : table.names = source.names := by
  cases collected : source.collect.1 with
  | error fault =>
    have failed : source.collect = (.error fault, source.collect.2) := Prod.ext collected rfl
    simp only [toTable] at made
    rw [failed] at made
    simp at made
  | ok rows =>
    obtain ⟨same, again, names, -⟩ :=
      toTable_of_runs assembled (collect_eq_ok_iff.mp (Prod.ext collected rfl))
    rw [again] at made
    exact Except.ok.inj made ▸ names

theorem nodup_of_groupBy {grouping : Grouping} {table : Table} (assembled : Assembled source)
    (grouped : (source.groupBy grouping).1 = .ok table) : table.names.Nodup := by
  unfold Pipeline.groupBy at grouped
  cases accepted : Groups.bind grouping source.names with
  | error => simp [accepted] at grouped
  | ok groups =>
    cases folded : source.fold Groups.add groups with
    | mk outcome after =>
      cases outcome with
      | error => simp [accepted, folded] at grouped
      | ok found =>
        obtain ⟨rows, run⟩ := runs_of_fold folded
        obtain ⟨made, same, names, -⟩ :=
          Groups.foldl_add_table accepted (run.aligned assembled.laid).2
        rw [run.fold] at folded
        obtain rfl := Except.ok.inj (Prod.mk.inj folded).1
        simp only [accepted, run.fold, same] at grouped
        rw [← Except.ok.inj grouped, names]
        exact Groups.nodup_of_bind accepted

section Pages

variable {filter : Filter} {columns : Option (List String)}

/-- A fold over matches that succeeds is one over the rows of a run, and shows the chosen columns. -/
theorem of_foldMatches {α : Type} {step : Option Projection → α → Row → α} {state result : α}
    {names : List String} {counts : Nat × Nat}
    (success : (source.foldMatches filter columns step state).1 = .ok (result, names, counts)) :
    ∃ bound projection rows after, Projection.bindOptional source.names columns = .ok projection ∧
      names = Projection.optionalNames projection source.names ∧ Runs source rows after ∧
      result = (rows.filter (BoundFilter.accepts bound)).foldl (step projection) state := by
  cases refusal : missingColumn? source.names (filter.columns ++ columns.getD []) with
  | some fault => simp [foldMatches_of_refused refusal] at success
  | none =>
    obtain ⟨stage, staged⟩ :=
      fault?_eq_none_iff.mp ((Stage.fault?_bind source.names filter columns).trans refusal)
    obtain ⟨bound, projection, binds, projects, -⟩ := Stage.bind_eq_ok_iff.mp staged
    obtain ⟨rows, fault?, after, drains⟩ :=
      exists_drains (fun source => source.origin.remaining) next_remaining_lt source
    rw [foldMatches_of_drains drains binds projects] at success
    cases fault? with
    | some fault => simp at success
    | none =>
      obtain ⟨same, shown, -⟩ : _ = result ∧ _ = names ∧ _ = counts := by simpa using success
      exact ⟨bound, projection, rows, after, projects, shown.symm, runs_iff_drains.mpr drains,
        same.symm⟩

/-- The names of the chosen columns are the chosen names. -/
theorem optionalNames_eq {layout : List String} {projection : Option Projection}
    (projects : Projection.bindOptional layout columns = .ok projection) :
    Projection.optionalNames projection layout = columns.getD layout := by
  cases columns with
  | none =>
    obtain rfl := Except.ok.inj projects
    rfl
  | some names =>
    obtain ⟨chosen, bound, rfl⟩ := map_eq_ok_iff.mp projects
    exact (Projection.resolves_of_bind bound).1

theorem names_of_addStage {below : Pipeline} (laid : below.addStage filter columns = .ok source) :
    source.names = columns.getD below.names := by
  obtain ⟨stage, staged, rfl⟩ := addStage_eq_ok_iff.mp laid
  obtain ⟨bound, projection, -, projects, rfl⟩ := Stage.bind_eq_ok_iff.mp staged
  rw [← optionalNames_eq projects]
  simp [names, withStage]

theorem names_of_page {window : Window} {page : Page}
    (made : (source.page filter columns window).1 = .ok page) :
    page.names = columns.getD source.names ∧
      (source.Assembled → ∀ row ∈ page.rows, row.names = page.names) := by
  rw [page_eq_map] at made
  obtain ⟨⟨state, names, counts⟩, folded, rfl⟩ := map_eq_ok_iff.mp made
  obtain ⟨bound, projection, rows, after, projects, rfl, run, rfl⟩ := of_foldMatches folded
  refine ⟨optionalNames_eq projects, fun assembled row member => ?_⟩
  simp only [PageState.foldl_add, List.reverse_reverse] at member
  obtain ⟨one, cut, rfl⟩ := List.mem_map.mp member
  have listed := List.mem_of_mem_filter (List.mem_of_mem_take (List.mem_of_mem_drop cut))
  exact Stage.names_applyOptional ((run.aligned assembled.laid).2 one listed)

theorem names_of_sortedPage {key : SortKey} {window : Window} {page : Page}
    (made : (source.sortedPage filter columns key window).1 = .ok page) :
    page.names = columns.getD source.names ∧
      (source.Assembled → ∀ row ∈ page.rows, row.names = page.names) := by
  unfold Pipeline.sortedPage at made
  cases position : requirePosition source.names key.column with
  | error => simp [position] at made
  | ok index =>
    simp only [position] at made
    split at made
    · simp at made
    · next folded =>
      obtain ⟨bound, projection, rows, after, projects, rfl, run, rfl⟩ :=
        of_foldMatches (congrArg Prod.fst folded)
      obtain rfl := Except.ok.inj made
      refine ⟨optionalNames_eq projects, fun assembled row member => ?_⟩
      obtain ⟨entry, ranked, rfl⟩ := List.mem_map.mp (List.mem_of_mem_drop member)
      rw [← Ranking.pushAll_map] at ranked
      rcases Ranking.mem_of_mem_pushAll ranked with none | pushed
      · simp [Ranking.start] at none
      · obtain ⟨one, listed, rfl⟩ := List.mem_map.mp pushed
        exact Stage.names_applyOptional
          ((run.aligned assembled.laid).2 one (List.mem_of_mem_filter listed))

end Pages

end Pipeline

/-- What has named columns. -/
inductive Relation where
  | table (base : Table)
  | stream (source : Pipeline)
  | page (part : Page)

namespace Relation

def names : Relation → List String
  | table base => base.names
  | stream source => source.names
  | page part => part.names

/-- The row is one of a table or a page, or the next one of a stream. -/
def Shows : Relation → Row → Prop
  | table base, row => row ∈ base.rows
  | stream source, row => source.next.1 = .ok (some row)
  | page part, row => row ∈ part.rows

/-- A choice of columns: what a projection makes of a table, of a stream, or of a stream for a
page. -/
inductive Chooses (columns : List String) : Relation → Relation → Prop where
  | project {base result : Table} (made : base.project columns = .ok result) :
      Chooses columns (.table base) (.table result)
  | stage {below source : Pipeline} {filter : Filter}
      (made : below.addStage filter (some columns) = .ok source) :
      Chooses columns (.stream below) (.stream source)
  | page {source : Pipeline} {result : Page} {filter : Filter} {window : Window}
      (made : (source.page filter (some columns) window).1 = .ok result) :
      Chooses columns (.stream source) (.page result)
  | sortedPage {source : Pipeline} {result : Page} {filter : Filter} {key : SortKey}
      {window : Window}
      (made : (source.sortedPage filter (some columns) key window).1 = .ok result) :
      Chooses columns (.stream source) (.page result)

/-- What the operations make of tables and origins with distinct names, if none of them chooses a
column twice. -/
inductive Derived : Relation → Prop where
  | start {start : Table} (distinct : start.names.Nodup) : Derived (.table start)
  | origin {origin : Origin} (distinct : origin.names.Nodup) :
      Derived (.stream (.ofOrigin origin))
  | choose {base result : Relation} {columns : List String} (derived : Derived base)
      (chooses : base.Chooses columns result) (once : columns.Nodup) : Derived result
  | addColumn {base result : Table} {name : String} {cellOf : Row → Cell}
      (derived : Derived (.table base)) (made : base.addColumn name cellOf = .ok result) :
      Derived (.table result)
  | filter {base result : Table} {filter : Filter} (derived : Derived (.table base))
      (made : base.filter filter = .ok result) : Derived (.table result)
  | join {left right result : Table} {on : List String} {options : JoinOptions}
      (leftDerived : Derived (.table left)) (rightDerived : Derived (.table right))
      (made : left.join right on options = .ok result) : Derived (.table result)
  | sortByKeys {base result : Table} {keys : List SortKey} (derived : Derived (.table base))
      (made : base.sortByKeys keys = .ok result) : Derived (.table result)
  | slice {base : Table} (derived : Derived (.table base)) (offset length : Nat) :
      Derived (.table (base.slice offset length))
  | groupBy {base result : Table} {grouping : Grouping} (derived : Derived (.table base))
      (made : base.groupBy grouping = .ok result) : Derived (.table result)
  | rows {base : Table} (derived : Derived (.table base)) :
      Derived (.stream (.ofRows base.names base.rows))
  | stage {below source : Pipeline} {filter : Filter} (derived : Derived (.stream below))
      (made : below.addStage filter none = .ok source) : Derived (.stream source)
  | pull {source : Pipeline} (derived : Derived (.stream source)) : Derived (.stream source.next.2)
  | toTable {source : Pipeline} {result : Table} (derived : Derived (.stream source))
      (made : source.toTable.1 = .ok result) : Derived (.table result)
  | groupStream {source : Pipeline} {result : Table} {grouping : Grouping}
      (derived : Derived (.stream source)) (made : (source.groupBy grouping).1 = .ok result) :
      Derived (.table result)
  | page {source : Pipeline} {result : Page} {filter : Filter} {window : Window}
      (derived : Derived (.stream source))
      (made : (source.page filter none window).1 = .ok result) : Derived (.page result)
  | sortedPage {source : Pipeline} {result : Page} {filter : Filter} {key : SortKey}
      {window : Window} (derived : Derived (.stream source))
      (made : (source.sortedPage filter none key window).1 = .ok result) : Derived (.page result)

/-- What every operation keeps: the names are distinct, streams lay their rows out by them, and so do
pages. -/
def Orderly : Relation → Prop
  | table base => base.names.Nodup
  | stream source => source.names.Nodup ∧ source.Assembled
  | page part => part.names.Nodup ∧ ∀ row ∈ part.rows, row.names = part.names

/-- A choice of columns has exactly the chosen names. -/
theorem Chooses.names_eq {columns : List String} {base result : Relation}
    (chooses : base.Chooses columns result) : result.names = columns := by
  cases chooses with
  | project made =>
    obtain ⟨-, -, names, -⟩ := Table.rows_of_project made
    exact names
  | stage made => exact Pipeline.names_of_addStage made
  | page made => exact (Pipeline.names_of_page made).1
  | sortedPage made => exact (Pipeline.names_of_sortedPage made).1

theorem Chooses.orderly {columns : List String} {base result : Relation}
    (chooses : base.Chooses columns result) (orderly : base.Orderly) (once : columns.Nodup) :
    result.Orderly := by
  have distinct : result.names.Nodup := chooses.names_eq ▸ once
  cases chooses with
  | project => exact distinct
  | stage made => exact ⟨distinct, .stage orderly.2 made⟩
  | page made => exact ⟨distinct, (Pipeline.names_of_page made).2 orderly.2⟩
  | sortedPage made => exact ⟨distinct, (Pipeline.names_of_sortedPage made).2 orderly.2⟩

theorem Derived.orderly {relation : Relation} (derived : Derived relation) : relation.Orderly := by
  induction derived with
  | start distinct => exact distinct
  | origin distinct => exact ⟨distinct, .origin _⟩
  | choose _ chooses once ih => exact chooses.orderly ih once
  | addColumn _ made ih =>
    rw [Orderly, (Table.under_of_addColumn made).1, ← List.concat_eq_append]
    exact ih.concat (Table.new_of_addColumn made)
  | filter _ made ih =>
    rw [Orderly, (Table.of_filter made).1]
    exact ih
  | join _ _ made ih _ => exact Table.nodup_of_join ih made
  | sortByKeys _ made ih =>
    rw [Orderly, Table.names_of_sortByKeys made]
    exact ih
  | slice _ _ _ ih => exact ih
  | groupBy _ made => exact Table.nodup_of_groupBy made
  | rows _ ih => exact ⟨ih, .origin _⟩
  | stage _ made ih => exact ⟨Pipeline.names_of_addStage made ▸ ih.1, .stage ih.2 made⟩
  | pull _ ih => exact ⟨(Pipeline.laid_next ih.2.laid).2.1 ▸ ih.1, .pull ih.2⟩
  | toTable _ made ih =>
    rw [Orderly, Pipeline.names_of_toTable ih.2 made]
    exact ih.1
  | groupStream _ made ih => exact Pipeline.nodup_of_groupBy ih.2 made
  | page _ made ih =>
    obtain ⟨names, aligned⟩ := Pipeline.names_of_page made
    exact ⟨names ▸ ih.1, aligned ih.2⟩
  | sortedPage _ made ih =>
    obtain ⟨names, aligned⟩ := Pipeline.names_of_sortedPage made
    exact ⟨names ▸ ih.1, aligned ih.2⟩

theorem Orderly.distinct {relation : Relation} (orderly : relation.Orderly) :
    relation.names.Nodup := by
  cases relation with
  | table => exact orderly
  | stream | page => exact orderly.1

/-- The rows that a relation shows are laid out by its names. -/
theorem Orderly.aligned {relation : Relation} (orderly : relation.Orderly) {row : Row}
    (shown : relation.Shows row) : row.names = relation.names := by
  cases relation with
  | table base => exact base.aligned row shown
  | stream source => exact (Pipeline.laid_next orderly.2.laid).2.2 row shown
  | page part => exact orderly.2 row shown

/-- All that is made of tables and origins with distinct names has distinct names, and shows rows
that are laid out by them and are mappings, as long as nothing chooses a column twice. A choice of
columns has the chosen names, and so keeps the names distinct exactly if it chooses no column twice.
Readers and rows made of pairs start with distinct names. -/
theorem distinct_names {relation : Relation} (derived : Derived relation) :
    relation.names.Nodup ∧
      (∀ row, relation.Shows row → row.names = relation.names ∧ row.IsMapping) ∧
      (∀ columns result, relation.Chooses columns result →
        result.names = columns ∧ (result.names.Nodup ↔ columns.Nodup)) ∧
      (∀ data source options reader, RowReader.openData data source options = .ok reader →
        Derived (.stream (.ofReader reader))) ∧
      ∀ pairs row, Row.ofPairs pairs = .ok row → row.IsMapping := by
  have distinct := derived.orderly.distinct
  refine ⟨distinct, fun row shown => ?_, fun columns result chooses => ?_,
    fun data source options reader opened => .origin (RowReader.nodup_of_openData opened),
    fun pairs row made => Row.isMapping_of_nodup (Row.nodup_of_ofPairs made)⟩
  · have aligned := derived.orderly.aligned shown
    exact ⟨aligned, Row.isMapping_of_nodup (aligned ▸ distinct)⟩
  · rw [chooses.names_eq]
    exact ⟨rfl, Iff.rfl⟩

/-- The record `1,2` under the header `a,b`, read for a page of the column `b`. -/
theorem distinct_names_of_page :
    ∃ reader page row,
      RowReader.openData [97, 44, 98, 10, 49, 44, 50, 10] "inline" ⟨44, none, .skip, [], [], 16⟩ =
        .ok reader ∧
      ((Pipeline.ofReader reader).page .all (some ["b"]) .all).1 = .ok page ∧
      page.names.Nodup ∧ row ∈ page.rows ∧ row.IsMapping := by
  have found : (RowReader.openData [97, 44, 98, 10, 49, 44, 50, 10] "inline"
      ⟨44, none, .skip, [], [], 16⟩).map (fun reader =>
        ((Pipeline.ofReader reader).page .all (some ["b"]) .all).1.map Page.rows) =
          .ok (.ok [⟨["b"], [.integer 2], rfl⟩]) := by
    decide +kernel
  cases opened : RowReader.openData [97, 44, 98, 10, 49, 44, 50, 10] "inline"
      ⟨44, none, .skip, [], [], 16⟩ with
  | error fault => simp [opened, Except.map] at found
  | ok reader =>
    rw [opened, Except.map, Except.ok.injEq] at found
    cases made : ((Pipeline.ofReader reader).page .all (some ["b"]) .all).1 with
    | error fault => simp [made, Except.map] at found
    | ok page =>
      rw [made, Except.map, Except.ok.injEq] at found
      have read : Derived (.stream (.ofReader reader)) :=
        .origin (RowReader.nodup_of_openData opened)
      obtain ⟨names, rows, -⟩ := distinct_names (read.choose (.page made) (by decide))
      have listed : ⟨["b"], [.integer 2], rfl⟩ ∈ page.rows := found ▸ List.mem_cons_self
      exact ⟨reader, page, _, rfl, made, names, listed, (rows _ listed).2⟩

/-- A column that is chosen twice is shown twice. -/
theorem repeated_names :
    ¬ ∀ (base result : Table) columns, base.names.Nodup → base.project columns = .ok result →
      result.names.Nodup := by
  intro distinct
  have made : ((Table.empty ["a"]).project ["a", "a"]).map Table.names = .ok ["a", "a"] := by decide
  cases projected : (Table.empty ["a"]).project ["a", "a"] with
  | error => simp [projected, Except.map] at made
  | ok result =>
    have names : result.names = ["a", "a"] := by simpa [projected, Except.map] using made
    exact absurd (names ▸ distinct _ _ _ (by decide) projected) (by decide)

end Relation

end Medals
