import Mathlib.Algebra.Order.Floor.Div
import Medals.Proofs.Csv.Limit
import Medals.Proofs.Query.MedalCounts
import Medals.Proofs.Stream.Validation

/-!
# The pages of a search

Each page of a search is made by a scan of its own. `Engine.search_tiles` says that the pages fit
together all the same: they cut the matches, in file order or by year, into consecutive pieces of
the page size, and pages behind the last piece are empty however large their number. The total is
the number of all matches on every page, and has to be a count of 64 bits. `SearchParams.Wants` says
wish by wish what a match is.

Matches are looked for among the rows that the file of the events holds under a policy that leaves
malformed records out or fills them up. A policy that fails on them is not treated.
-/

namespace Medals

/-- Consecutive pages of one size cut a list into pieces, and no page follows the last piece. -/
structure Tiles {α : Type} (size : Nat) (elements : List α) (pages : Nat → List α) : Prop where
  joined : ((List.range (elements.length ⌈/⌉ size)).flatMap fun index => pages (index + 1)) = elements
  full : ∀ number, 0 < number → number < elements.length ⌈/⌉ size → (pages number).length = size
  beyond : ∀ number, elements.length ⌈/⌉ size < number → pages number = []

/-- Slices of one size, side by side, are the beginning of a list. -/
theorem flatMap_slices {α : Type} (elements : List α) (size count : Nat) :
    ((List.range count).flatMap fun index => (elements.drop (index * size)).take size) =
      elements.take (count * size) := by
  induction count with
  | zero => simp
  | succ count ih =>
    rw [List.range_succ, List.flatMap_append, ih, Nat.succ_mul, List.take_add]
    simp

namespace Window

variable {α : Type} {elements : List α} {size : Nat}

/-- The window of a page holds a slice; that large offsets stay at the greatest count makes no
difference. -/
theorem cut_ofPage (few : elements.length ≤ maxCount) (number : Nat) :
    (ofPage (max number 1) size).cut elements = (elements.drop ((number - 1) * size)).take size := by
  have first : max (max number 1) 1 - 1 = number - 1 := by omega
  rw [cut_eq_slice _ few, ofPage, first]
  rcases Nat.le_total ((number - 1) * size) maxCount with inside | outside
  · rw [Nat.min_eq_left inside]
  · rw [Nat.min_eq_right outside, List.drop_of_length_le few,
      List.drop_of_length_le (few.trans outside)]

/-- The windows of the pages tile a list whose length is a count. -/
theorem tiles_ofPage (positive : 0 < size) (few : elements.length ≤ maxCount) :
    Tiles size elements fun number => (ofPage (max number 1) size).cut elements where
  joined := by
    simp only [cut_ofPage few, Nat.add_sub_cancel]
    have reached : elements.length ≤ elements.length ⌈/⌉ size * size := by
      rw [Nat.mul_comm]
      exact (ceilDiv_le_iff_le_mul positive).mp le_rfl
    rw [flatMap_slices, List.take_of_length_le reached]
  full number counted before := by
    obtain ⟨index, rfl⟩ := Nat.exists_eq_succ_of_ne_zero counted.ne'
    have inside : size * (index + 1) < elements.length :=
      Nat.not_le.mp fun reached => before.not_ge ((ceilDiv_le_iff_le_mul positive).mpr reached)
    rw [Nat.mul_succ, Nat.mul_comm] at inside
    rw [cut_ofPage few, List.length_take, List.length_drop, Nat.succ_sub_one]
    omega
  beyond number after := by
    have reached : elements.length ≤ size * (number - 1) :=
      (ceilDiv_le_iff_le_mul positive).mp (Nat.le_sub_one_of_lt after)
    rw [cut_ofPage few, Nat.mul_comm, List.drop_of_length_le reached, List.take_nil]

end Window

namespace SearchParams

/-- What a search asks of a row. A piece of a name that is blank, years that are not given and
selectors that select nothing ask for nothing; otherwise the cell must be there and pass its test. -/
structure Wants (params : SearchParams) (row : Row) : Prop where
  named : ∀ piece, params.name.map trimmed = some piece → piece ≠ "" →
    (Test.contains (lowerChars piece.toList)).accepts (row.under "Name") = true
  medal : params.medalOnly = true → Test.present.accepts (row.under "Medal") = true
  notBefore : ∀ year, params.yearMin = some year →
    (Test.range (some (.integer year)) none).accepts (row.under "Year") = true
  notAfter : ∀ year, params.yearMax = some year →
    (Test.range none (some (.integer year))).accepts (row.under "Year") = true
  season : ∀ text, selected? params.season = some text →
    (Test.equals (Cell.text text).key).accepts (row.under "Season") = true
  noc : ∀ text, selected? params.noc = some text →
    (Test.equals (Cell.text text).key).accepts (row.under "NOC") = true
  sport : ∀ text, selected? params.sport = some text →
    (Test.equals (Cell.text text).key).accepts (row.under "Sport") = true

section Conditions

variable {params : SearchParams} {P : Condition → Prop}

theorem forall_mem_nameCondition : (∀ condition ∈ params.nameCondition, P condition) ↔
    ∀ piece, params.name.map trimmed = some piece → piece ≠ "" → P (.contains "Name" piece) := by
  unfold nameCondition
  cases params.name.map trimmed with
  | none => simp
  | some piece => by_cases blank : piece = "" <;> simp [blank, Option.filter]

theorem forall_mem_selectorCondition {column : String} {selector : Option String} :
    (∀ condition ∈ selectorCondition column selector, P condition) ↔
      ∀ text, selected? selector = some text → P (.equals column (.text text)) := by
  unfold selectorCondition
  cases selected? selector <;> simp

/-- A range is that of its two bounds. -/
theorem accepts_yearCondition {row : Row} :
    (∀ condition ∈ params.yearCondition,
      condition.test.accepts (row.under condition.column) = true) ↔
    (∀ year, params.yearMin = some year →
      (Test.range (some (.integer year)) none).accepts (row.under "Year") = true) ∧
    ∀ year, params.yearMax = some year →
      (Test.range none (some (.integer year))).accepts (row.under "Year") = true := by
  unfold yearCondition
  cases params.yearMin <;> cases params.yearMax <;>
    simp [Condition.test, Condition.column, Test.accepts]
  grind

end Conditions

/-- The filter of a search holds what is asked for and nothing else. -/
theorem wants_iff {params : SearchParams} {row : Row} :
    params.Wants row ↔ ∀ condition ∈ params.filter.conditions,
      condition.test.accepts (row.under condition.column) = true := by
  have medal : (∀ condition ∈ if params.medalOnly then [Condition.present "Medal"] else [],
      condition.test.accepts (row.under condition.column) = true) ↔
      (params.medalOnly = true → Test.present.accepts (row.under "Medal") = true) := by
    cases params.medalOnly <;> simp [Condition.test, Condition.column]
  simp only [filter, List.forall_mem_append, forall_mem_nameCondition, medal,
    accepts_yearCondition, forall_mem_selectorCondition]
  constructor
  · rintro ⟨named, medal, notBefore, notAfter, season, noc, sport⟩
    exact ⟨⟨⟨⟨⟨named, medal⟩, notBefore, notAfter⟩, season⟩, noc⟩, sport⟩
  · rintro ⟨⟨⟨⟨⟨named, medal⟩, notBefore, notAfter⟩, season⟩, noc⟩, sport⟩
    exact ⟨named, medal, notBefore, notAfter, season, noc, sport⟩

/-- The rows that pass the filter of a search, each looked at by name. -/
def found (params : SearchParams) (rows : List Row) : List Row :=
  rows.filter fun row => (params.filter.eval row).toOption = some true

end SearchParams

namespace Engine

variable {engine : Engine} {files : Files}

/-- The layout of a table, and the rows of those records in its file that become rows under the
policy of the engine. -/
def WellRead (engine : Engine) (files : Files) (table : Dataset) (names : List String)
    (rows : List Row) : Prop :=
  let options := engine.settings.readOptionsOf table
  ∃ path file header records, engine.settings.path table = .ok path ∧
    files.find path = .file file ∧
    Csv.recordsOf options.delimiter options.bufferCapacity file.bytes = header :: records ∧
    names = RowReader.headerNames header.2 ∧
    rows = (records.filter fun entry =>
      Csv.BecomesRow options.malformed names.length entry.2).map fun entry =>
        options.rowOf names entry.2

/-- A table is well read in one way. -/
theorem WellRead.unique {table : Dataset} {names others : List String} {rows further : List Row}
    (one : engine.WellRead files table names rows)
    (other : engine.WellRead files table others further) : names = others ∧ rows = further := by
  obtain ⟨path, file, header, records, leads, found, read, rfl, rfl⟩ := one
  obtain ⟨_, _, _, _, again, same, readToo, rfl, rfl⟩ := other
  obtain rfl := Except.ok.inj (leads.symm.trans again)
  obtain rfl := Files.Found.file.inj (found.symm.trans same)
  obtain ⟨rfl, rfl⟩ := List.cons.inj (read.symm.trans readToo)
  exact ⟨rfl, rfl⟩

/-- Events that open are read to the end when no record fails the reading. -/
theorem exists_readsEvents (lenient : engine.settings.malformed ≠ .fail) {reader : RowReader}
    (opened : engine.openTable files .events = .ok reader) :
    ∃ rows, engine.WellRead files .events reader.names rows ∧
      engine.ReadsEvents files reader rows := by
  obtain ⟨path, file, leads, found, data⟩ := openTable_eq_ok_iff.mp opened
  obtain ⟨header, read, serves, unfinished, -⟩ := RowReader.opened_of_openData data
  have names : reader.names = RowReader.headerNames header := serves.names_eq
  rw [← names] at serves
  refine ⟨_, ⟨path, file, _, _, leads, found, read, names, rfl⟩, opened,
    Pipeline.runs_of_pulls (RowReader.pulls_of_answers serves rfl unfinished ?_)⟩
  rw [ReadOptions.unlimitedAnswers_of_lenient lenient, List.map_map]
  rfl

/-- A search that succeeds has opened the events and resolved its columns in their layout. -/
theorem resolves_of_search {params : SearchParams} {page : SearchPage}
    (searched : engine.search files params = .ok page) :
    ∃ reader bound projection, engine.openTable files .events = .ok reader ∧
      params.filter.bind reader.names = .ok bound ∧
      Projection.bindOptional reader.names params.columns = .ok projection ∧
      (params.order = .year → "Year" ∈ reader.names) := by
  obtain ⟨-, reader, shown, after, opened, made, -⟩ := search_eq_ok_iff.mp searched
  have assembled := Pipeline.Assembled.origin (.text reader)
  -- Either order refuses what the filter or the projection lacks before it reads a row.
  have accepted : missingColumn? reader.names (params.filter.columns ++ params.columns.getD []) =
      none ∧ (params.order = .year → missingColumn? reader.names ["Year"] = none) := by
    unfold searchedPage at made
    cases order : params.order with
    | file =>
      simp only [order] at made
      exact ⟨(Pipeline.validates_page assembled _).refusal?_eq_none (congrArg Prod.fst made), nofun⟩
    | year =>
      simp only [order] at made
      have held :=
        (Pipeline.validates_sortedPage assembled _ _).refusal?_eq_none (congrArg Prod.fst made)
      rw [missingColumn?_cons, Option.or_eq_none_iff] at held
      exact ⟨held.2, fun _ => held.1⟩
  obtain ⟨stage, laid⟩ := fault?_eq_none_iff.mp ((Stage.fault?_bind ..).trans accepted.1)
  obtain ⟨bound, projection, binds, projects, -⟩ := Stage.bind_eq_ok_iff.mp laid
  refine ⟨reader, bound, projection, opened, binds, projects, fun order => ?_⟩
  exact missingColumn?_eq_none_iff.mp (accepted.2 order) _ List.mem_cons_self

/-- Page zero of a search is its first page. -/
theorem search_page_zero (engine : Engine) (files : Files) (params : SearchParams) (size : Nat) :
    engine.search files { params with page := 0, pageSize := size } =
      engine.search files { params with page := 1, pageSize := size } := rfl

/-- Once a search succeeds, it succeeds for every page of every allowed size. It finds the well-read
rows that are wanted; all pages have their number as the total, and those of one size tile the
projected matches in the order asked for. Page numbers are not bounded: where an offset stays at the
greatest count, the page is empty. -/
theorem search_tiles (lenient : engine.settings.malformed ≠ .fail) {params : SearchParams}
    {sample : SearchPage} (searched : engine.search files params = .ok sample)
    (countable : sample.total ≤ maxCount) {size : Nat} (positive : 0 < size)
    (capped : size ≤ engine.settings.maxPageSize) :
    ∃ (names : List String) (rows : List Row) (projection : Option Projection)
        (ordered : List Row) (pages : Nat → SearchPage),
      engine.WellRead files .events names rows ∧
      (∀ row ∈ rows, row ∈ params.found rows ↔ params.Wants row) ∧
      Projection.bindOptional names params.columns = .ok projection ∧
      params.order.Arranges (params.found rows) ordered ∧
      sample.total = (params.found rows).length ∧
      (∀ number, engine.search files { params with page := number, pageSize := size } =
          .ok (pages number) ∧
        (pages number).total = (params.found rows).length) ∧
      pages 0 = pages 1 ∧
      Tiles size (ordered.map (Projection.applyOptional projection))
        fun number => (pages number).rows := by
  obtain ⟨reader, bound, projection, opened, binds, projects, year⟩ := resolves_of_search searched
  obtain ⟨rows, wellRead, reads⟩ := exists_readsEvents lenient opened
  have found : params.found rows = rows.filter bound.accepts := by
    refine List.filter_congr fun row member => ?_
    rw [← reads.aligned row member] at binds
    simp [Filter.eval_eq_accepts binds, Except.toOption]
  have wanted : ∀ row ∈ rows, row ∈ params.found rows ↔ params.Wants row := by
    intro row member
    have own := binds
    rw [← reads.aligned row member] at own
    rw [found, List.mem_filter, and_iff_right member, Filter.accepts_iff own,
      SearchParams.wants_iff]
  obtain ⟨ordered, arranges, shown⟩ := reads.search_pages binds projects year
  rw [← found] at arranges
  simp only [← found] at shown
  choose pages made total windows using fun number => shown number size positive capped
  have zero : pages 0 = pages 1 :=
    Except.ok.inj ((made 0).symm.trans ((search_page_zero engine files params size).trans (made 1)))
  have sized := (search_eq_ok_iff.mp searched).1
  obtain ⟨same, again, first, -⟩ := shown params.page params.pageSize sized.1 sized.2
  obtain rfl : sample = same := Except.ok.inj (searched.symm.trans again)
  have few : (ordered.map (Projection.applyOptional projection)).length ≤ maxCount := by
    rw [List.length_map, arranges.perm.length_eq, ← first]
    exact countable
  refine ⟨reader.names, rows, projection, ordered, pages, wellRead, wanted, projects, arranges, first,
    fun number => ⟨made number, total number⟩, zero, ?_⟩
  rw [show (fun number => (pages number).rows) = _ from funext windows]
  exact Window.tiles_ofPage positive few

section Example

/-- Events of two years and one whose year is missing. -/
def datedEvents : List Row :=
  [⟨["NOC", "Year", "Medal"], [.text "A", .integer 2, .text "G"], rfl⟩,
    ⟨["NOC", "Year", "Medal"], [.text "B", .missing, .missing], rfl⟩,
    ⟨["NOC", "Year", "Medal"], [.text "C", .integer 1, .text "S"], rfl⟩]

/-- By year the third event comes first, and the one without a year is alone on the second page. -/
theorem search_tiles_of_dated_events :
    ∃ (engine : Engine) (pages : Nat → SearchPage), engine.settings = .standard ∧
      (∀ number, engine.search (eventFiles datedEvents)
          { SearchParams.standard with page := number, pageSize := 2, order := .year } =
            .ok (pages number) ∧ (pages number).total = 3) ∧
      (pages 1).rows ++ (pages 2).rows =
        [⟨["NOC", "Year", "Medal"], [.text "C", .integer 1, .text "S"], rfl⟩,
          ⟨["NOC", "Year", "Medal"], [.text "A", .integer 2, .text "G"], rfl⟩,
          ⟨["NOC", "Year", "Medal"], [.text "B", .missing, .missing], rfl⟩] ∧
      (pages 1).rows.length = 2 ∧ (pages maxCount).rows = [] := by
  obtain ⟨engine, standard⟩ := exists_standard
  have cap : ∀ size ≤ 50, size ≤ engine.settings.maxPageSize := by
    intro size few
    rw [standard]
    exact few.trans (by decide)
  have lenient : engine.settings.malformed ≠ .fail := by rw [standard]; decide
  obtain ⟨written, -⟩ := holds_eventFiles standard
    (show RowReader.Told (Settings.standard.readOptionsOf .events) ["NOC", "Year", "Medal"]
      datedEvents by decide)
  obtain ⟨reader, reads, names⟩ := written.readsEvents
  let params : SearchParams := { SearchParams.standard with order := .year }
  have binds : params.filter.bind reader.names = .ok ⟨[]⟩ := rfl
  have projects : Projection.bindOptional reader.names params.columns = .ok none := rfl
  obtain ⟨sample, searched, total⟩ := reads.search (by decide) (cap 50 (by decide)) binds projects
    (by rw [names]; decide)
  obtain ⟨layout, rows, projection, ordered, pages, wellRead, -, projected, arranges, -, made, -,
    tiles⟩ := search_tiles lenient searched (by rw [total]; decide) (show 0 < 2 by decide)
      (cap 2 (by decide))
  obtain ⟨others, same, again⟩ := exists_readsEvents lenient reads.opened
  obtain rfl : datedEvents = others :=
    Except.ok.inj (reads.eventRows_eq.symm.trans again.eventRows_eq)
  obtain ⟨rfl, rfl⟩ := wellRead.unique same
  obtain rfl : none = projection := Except.ok.inj projected
  have all : params.found datedEvents = datedEvents := by decide
  rw [all] at made arranges
  -- The order of the years is checked on the list, and leaves no other.
  have whole := again.integerOrMissing_year
  obtain rfl := SortKey.eq_of_stable (.kindwise false again.unmixed_year)
    (fun _ member => List.mem_map_of_mem member)
    (StableOrder.congr arranges fun left one right other =>
      (SortKey.order_year (whole left one) (whole right other)).symm)
    (show StableOrder (⟨"Year", false⟩ : SortKey).order datedEvents
      [⟨["NOC", "Year", "Medal"], [.text "C", .integer 1, .text "S"], rfl⟩,
        ⟨["NOC", "Year", "Medal"], [.text "A", .integer 2, .text "G"], rfl⟩,
        ⟨["NOC", "Year", "Medal"], [.text "B", .missing, .missing], rfl⟩] from
      ⟨by decide, by decide, by decide⟩)
  have joined : (pages 1).rows ++ ((pages 2).rows ++ []) = _ := tiles.joined
  rw [List.append_nil] at joined
  exact ⟨engine, pages, standard, made, joined, tiles.full 1 (by decide) (by decide),
    tiles.beyond maxCount (by decide)⟩

end Example

end Engine

end Medals
