import Medals.Proofs.Csv.Limit
import Medals.Proofs.Stream.Tracked
import Medals.Proofs.Table.SameKeys

/-!
# Inferred columns and columns of texts

`Cell.infer` looks for a number in a text when it is read, `Cell.key` when it is identified. Both
look in the same way, except that the text stays a text where the number is not finite
(`Cell.key_infer`). A source therefore has the same keys whether the kind of a column is inferred or
the column is declared to hold texts (`RowReader.concur_of_openData`), and what compares keys does
not depend on it (`inference_keeps_identities`).
-/

namespace Medals

/-- A text and the cell inferred from it have one key. -/
theorem Cell.key_infer (raw : String) : (infer raw).key = (text raw).key := by
  unfold infer
  dsimp only
  split
  · next numeric =>
    cases whole : readInt64? (trimmed raw) with
    | some value => simp [key, numeric, whole]
    | none =>
      cases read : readDouble? (trimmed raw) with
      | none => simp [readFinite?, read]
      | some value =>
        by_cases finite : value.isFinite = true
        · simp [key, readFinite?, numeric, whole, read, Option.filter, finite]
        · simp [readFinite?, read, Option.filter, finite]
  · rfl

/-- Missing cells are recognised whatever the kind. -/
theorem key_parseCell (nullTokens : List String) (raw : String) :
    (parseCell nullTokens none raw).key = (parseCell nullTokens (some .text) raw).key := by
  unfold parseCell
  dsimp only
  split
  · rfl
  · exact Cell.key_infer raw

namespace ReadOptions

/-- The options with other declared kinds. -/
def declaring (options : ReadOptions) (declared : List (String × CellKind)) : ReadOptions :=
  { options with declared }

/-- The kinds of the columns are inferred. -/
def inferring (options : ReadOptions) (columns : List String) : ReadOptions :=
  options.declaring (options.declared.filter fun entry => entry.1 ∉ columns)

/-- The columns are declared to hold texts. -/
def declaringText (options : ReadOptions) (columns : List String) : ReadOptions :=
  options.declaring (columns.map (fun name => (name, .text)) ++ options.declared)

section Kinds

variable (options : ReadOptions) (columns : List String) (name : String)

theorem declaredKind?_inferring :
    (options.inferring columns).declaredKind? name =
      if name ∈ columns then none else options.declaredKind? name := by
  rw [declaredKind?, declaredKind?, inferring, declaring, List.find?_filter]
  split
  · next listed =>
    simp only [Option.map_eq_none_iff, List.find?_eq_none]
    rintro ⟨other, kind⟩ -
    by_cases same : other = name <;> simp [same, listed]
  · next unlisted =>
    refine congrArg (Option.map Prod.snd) (congrArg (List.find? · _) (funext fun entry => ?_))
    by_cases same : entry.1 = name <;> simp [same, unlisted]

theorem declaredKind?_declaringText :
    (options.declaringText columns).declaredKind? name =
      if name ∈ columns then some .text else options.declaredKind? name := by
  rw [declaredKind?, declaredKind?, declaringText, declaring, List.find?_append, List.find?_map]
  cases found : columns.find? ((fun entry : String × CellKind => entry.1 == name) ∘
      fun name => (name, CellKind.text)) with
  | none =>
    have unlisted : name ∉ columns := fun listed => by
      simpa using List.find?_eq_none.mp found name listed
    rw [if_neg unlisted, Option.map_none, Option.none_or]
  | some other =>
    obtain rfl : other = name := by simpa using List.find?_some found
    rw [if_pos (List.mem_of_find?_eq_some found)]
    rfl

end Kinds

/-- The second kinds are the first, but for columns that the first leave open and the second declare
to hold texts. -/
def TextsWhereOpen (options : ReadOptions) (kinds texts : List (String × CellKind)) : Prop :=
  ∀ name, (options.declaring kinds).declaredKind? name =
      (options.declaring texts).declaredKind? name ∨
    (options.declaring kinds).declaredKind? name = none ∧
      (options.declaring texts).declaredKind? name = some .text

variable {options : ReadOptions} {kinds texts : List (String × CellKind)}

section Answers

variable (whereOpen : options.TextsWhereOpen kinds texts)

include whereOpen

theorem key_cellOf (name : String) (field? : Option (List UInt8)) :
    ((options.declaring kinds).cellOf name field?).key =
      ((options.declaring texts).cellOf name field?).key := by
  cases field? with
  | none => rfl
  | some field =>
    rw [cellOf, cellOf]
    rcases whereOpen name with same | ⟨inferred, declared⟩
    · rw [same]
      rfl
    · rw [inferred, declared]
      exact key_parseCell options.nullTokens _

theorem rowOf_sameKeys (names : List String) (record : Csv.Record) :
    ((options.declaring kinds).rowOf names record).SameKeys
      ((options.declaring texts).rowOf names record) := by
  refine ⟨rfl, List.ext_getElem (by simp [rowOf]) fun index _ _ => ?_⟩
  simpa [rowOf] using key_cellOf whereOpen _ _

/-- Kinds decide neither which records are malformed nor what becomes of those. -/
theorem concur_unlimitedAnswers (names : List String) (records : List Csv.LinedRecord) :
    List.Forall₂ (Concur Row.SameKeys) ((options.declaring kinds).unlimitedAnswers names records)
      ((options.declaring texts).unlimitedAnswers names records) := by
  have rows (records : List Csv.LinedRecord) : List.Forall₂ (Concur Row.SameKeys)
      (records.map fun entry => .ok ((options.declaring kinds).rowOf names entry.2))
      (records.map fun entry => .ok ((options.declaring texts).rowOf names entry.2)) := by
    rw [List.forall₂_map_left_iff, List.forall₂_map_right_iff, List.forall₂_same]
    exact fun entry _ => .value (rowOf_sameKeys whereOpen names entry.2)
  rw [unlimitedAnswers, unlimitedAnswers]
  simp only [declaring] at rows ⊢
  cases options.malformed with
  | skip => exact rows _
  | pad => exact rows records
  | fail =>
    refine List.rel_append (rows _) ?_
    cases (records.dropWhile fun entry => !decide (Csv.Malformed names.length entry.2)).head? with
    | none => exact .nil
    | some entry => exact .cons (.fault _) .nil

/-- Records are answered with rows of the same keys, or with the same fault. -/
theorem concur_answers (names : List String) (records : List Csv.LinedRecord) :
    List.Forall₂ (Concur Row.SameKeys) ((options.declaring kinds).answers names records)
      ((options.declaring texts).answers names records) := by
  have whole := concur_unlimitedAnswers whereOpen names records
  change List.Forall₂ _ (limited options.limit _) (limited options.limit _)
  cases options.limit with
  | none => exact whole
  | some most => exact List.forall₂_take most whole

end Answers

end ReadOptions

namespace RowReader

/-- What is answered to pulls concurs when the answers do. -/
theorem concur_pullOf {answers others : List (Except Fault Row)}
    (concur : List.Forall₂ (Concur Row.SameKeys) answers others) (pulls : Nat) :
    Concur (Option.Rel Row.SameKeys) (pullOf answers[pulls]?) (pullOf others[pulls]?) := by
  induction concur generalizing pulls with
  | nil => exact .value .none
  | cons first _ ih =>
    cases pulls with
    | succ pulls => exact ih pulls
    | zero =>
      cases first with
      | value alike => exact .value (.some alike)
      | fault cause => exact .fault cause

/-- Whatever kinds are declared, data open alike. -/
theorem fault?_openData_declaring (data : List UInt8) (source : String) (options : ReadOptions)
    (declared : List (String × CellKind)) :
    fault? (openData data source (options.declaring declared)) =
      fault? (openData data source options) := by
  unfold openData
  simp only [ReadOptions.declaring]
  split
  · split
    · rfl
    · split <;> rfl
  · rfl

/-- The readers have one layout and answer every pull with rows of the same keys, or with the same
fault. -/
def AnswersAlike (reader other : RowReader) : Prop :=
  reader.names = other.names ∧ ∀ pulls,
    Concur (Option.Rel Row.SameKeys) (reader.pulled pulls).next.1 (other.pulled pulls).next.1

/-- Data open to readers that answer alike, whether kinds are inferred or texts are declared. -/
theorem concur_of_openData {options : ReadOptions} {kinds texts : List (String × CellKind)}
    (whereOpen : options.TextsWhereOpen kinds texts) (data : List UInt8) (source : String) :
    Concur AnswersAlike (openData data source (options.declaring kinds))
      (openData data source (options.declaring texts)) := by
  refine .of_fault? ?_ fun reader other opened again => ?_
  · rw [fault?_openData_declaring, fault?_openData_declaring]
  · obtain ⟨header, read, serves, -⟩ := opened_of_openData opened
    obtain ⟨header', read', serves', -⟩ := opened_of_openData again
    have same : (1, header) = (1, header') := (List.cons.inj (read.symm.trans read')).1
    have layout : reader.names = other.names := by
      rw [serves.names_eq, serves'.names_eq, (Prod.mk.inj same).2]
    refine ⟨layout, fun pulls => ?_⟩
    rw [((reads_of_openData opened read).2 pulls).1, ((reads_of_openData again read).2 pulls).1,
      layout]
    exact concur_pullOf (ReadOptions.concur_answers whereOpen _ _) pulls

theorem AnswersAlike.next {reader other : RowReader} (alike : reader.AnswersAlike other) :
    Concur (Option.Rel Row.SameKeys) reader.next.1 other.next.1 ∧
      reader.next.2.AnswersAlike other.next.2 := by
  refine ⟨alike.2 0, ?_, fun pulls => alike.2 (pulls + 1)⟩
  rw [reader.names_next.1, other.names_next.1, alike.1]

end RowReader

/-- Sources of which every pull answers alike are drained alike. -/
theorem Drains.simulated {σ τ : Type} {next : σ → Except Fault (Option Row) × σ}
    {step : τ → Except Fault (Option Row) × τ} {Related : σ → τ → Prop} {Same : Row → Row → Prop}
    (steps : ∀ {source other}, Related source other →
      Concur (Option.Rel Same) (next source).1 (step other).1 ∧
        Related (next source).2 (step other).2)
    {source after : σ} {rows : List Row} {fault? : Option Fault}
    (drains : Drains next source rows fault? after) {other : τ} (related : Related source other) :
    ∃ others last, Drains step other others fault? last ∧ List.Forall₂ Same rows others := by
  induction drains generalizing other with
  | ended found =>
    obtain ⟨answer, -⟩ := steps related
    cases twin : step other with
    | mk further last =>
      rw [found, twin] at answer
      cases answer with
      | value ended =>
        cases ended
        exact ⟨[], last, .ended twin, .nil⟩
  | failed found =>
    obtain ⟨answer, -⟩ := steps related
    cases twin : step other with
    | mk further last =>
      rw [found, twin] at answer
      cases answer
      exact ⟨[], last, .failed twin, .nil⟩
  | pulled found _ ih =>
    obtain ⟨answer, later⟩ := steps related
    cases twin : step other with
    | mk further last =>
      rw [found, twin] at answer later
      cases answer with
      | value yielded =>
        cases yielded with
        | some alike =>
          obtain ⟨others, stop, drains, same⟩ := ih later
          exact ⟨_ :: others, stop, .pulled twin drains, .cons alike same⟩

namespace Pipeline

variable {reader other : RowReader}

/-- The pipelines are bare readers that answer alike. -/
def ReadAlike (pipeline other : Pipeline) : Prop :=
  ∃ reader twin, pipeline = ofReader reader ∧ other = ofReader twin ∧ reader.AnswersAlike twin

theorem ReadAlike.next {pipeline other : Pipeline} (alike : ReadAlike pipeline other) :
    Concur (Option.Rel Row.SameKeys) pipeline.next.1 other.next.1 ∧
      ReadAlike pipeline.next.2 other.next.2 := by
  have pulls (reader : RowReader) :
      (ofReader reader).next = (reader.next.1, ofReader reader.next.2) := next_of_bare rfl
  obtain ⟨reader, twin, rfl, rfl, alike⟩ := alike
  rw [pulls, pulls]
  exact ⟨alike.next.1, _, _, rfl, rfl, alike.next.2⟩

theorem toTable_of_failed {pipeline after : Pipeline} {rows : List Row} {fault : Fault}
    (drains : Drains next pipeline rows (some fault) after) :
    pipeline.toTable.1 = .error fault := by
  simp [toTable, collect, fold_of_drains drains, Except.map]

/-- Readers that answer alike have tables of the same keys. -/
theorem concur_toTable (alike : reader.AnswersAlike other) :
    Concur Table.SameKeys (ofReader reader).toTable.1 (ofReader other).toTable.1 := by
  obtain ⟨rows, fault?, after, drains⟩ :=
    exists_drains (fun source => source.origin.remaining) next_remaining_lt (ofReader reader)
  obtain ⟨others, last, again, same⟩ :=
    @Drains.simulated _ _ next next ReadAlike Row.SameKeys ReadAlike.next _ _ _ _ drains _
      ⟨reader, other, rfl, rfl, alike⟩
  cases fault? with
  | some fault =>
    rw [toTable_of_failed drains, toTable_of_failed again]
    exact .fault fault
  | none =>
    obtain ⟨table, made, names, found⟩ :=
      toTable_of_runs (.origin (.text reader)) (runs_iff_drains.mpr drains)
    obtain ⟨further, madeAgain, namesAgain, foundAgain⟩ :=
      toTable_of_runs (.origin (.text other)) (runs_iff_drains.mpr again)
    have first : (ofReader reader).toTable.1 = .ok table := congrArg Prod.fst made
    have second : (ofReader other).toTable.1 = .ok further := congrArg Prod.fst madeAgain
    rw [first, second]
    refine .value ⟨names.trans (alike.1.trans namesAgain.symm), ?_⟩
    rw [found, foundAgain]
    exact same

end Pipeline

namespace ReadOptions

/-- The table of data that are read with the options. -/
def tableOf (options : ReadOptions) (data : List UInt8) (source : String) : Except Fault Table :=
  RowReader.openData data source options >>= fun reader => (Pipeline.ofReader reader).toTable.1

/-- Inferring the kinds of columns leaves them open where declaring texts does not. -/
theorem textsWhereOpen (options : ReadOptions) (columns : List String) :
    options.TextsWhereOpen (options.declared.filter fun entry => entry.1 ∉ columns)
      (columns.map (fun name => (name, .text)) ++ options.declared) := by
  intro name
  change (options.inferring columns).declaredKind? name =
      (options.declaringText columns).declaredKind? name ∨ _
  have inferred := declaredKind?_inferring options columns name
  have declared := declaredKind?_declaringText options columns name
  by_cases listed : name ∈ columns
  · rw [if_pos listed] at inferred declared
    exact .inr ⟨inferred, declared⟩
  · rw [if_neg listed] at inferred declared
    exact .inl (inferred.trans declared.symm)

/-- Data have a table of the same keys whether kinds are inferred or texts are declared. -/
theorem concur_tableOf (options : ReadOptions) (columns : List String) (data : List UInt8)
    (source : String) :
    Concur Table.SameKeys ((options.inferring columns).tableOf data source)
      ((options.declaringText columns).tableOf data source) :=
  (RowReader.concur_of_openData (textsWhereOpen options columns) data source).bind
    fun _ _ alike => Pipeline.concur_toTable alike

end ReadOptions

/-- A cell is identified alike whether its kind is inferred or it stays a text. Data read with some
columns inferred therefore make a table of the same keys as with these columns declared to hold
texts, or are refused with the same fault. Of tables of the same keys joins find the same pairs,
rows fall into the same groups, and equality filters pass the same rows. -/
theorem inference_keeps_identities :
    (∀ raw, (Cell.infer raw).key = (Cell.text raw).key) ∧
      (∀ (options : ReadOptions) columns data source,
        Concur Table.SameKeys ((options.inferring columns).tableOf data source)
          ((options.declaringText columns).tableOf data source)) ∧
      (∀ {left other right further : Table}, left.SameKeys other → right.SameKeys further →
        ∀ on options,
          Concur Table.SameKeys (left.join right on options) (other.join further on options) ∧
          ∀ leftKeys rightKeys,
            (Join.pairs options.kind leftKeys rightKeys left.rows right.rows).map Join.places =
              (Join.pairs options.kind leftKeys rightKeys other.rows further.rows).map
                Join.places) ∧
      (∀ {table other : Table}, table.SameKeys other → ∀ grouping : Grouping,
        table.rows.map grouping.keyOf = other.rows.map grouping.keyOf ∧
          Concur (fun result further => result.names = further.names ∧
              List.Forall₂ grouping.SameGroup result.rows further.rows)
            (table.groupBy grouping) (other.groupBy grouping)) ∧
      ∀ {table other : Table}, table.SameKeys other → ∀ {filter further : Filter},
        filter.SameKeys further →
          table.rows.map filter.eval = other.rows.map further.eval ∧
          Concur Table.SameKeys (table.filter filter) (other.filter further) := by
  refine ⟨Cell.key_infer, ReadOptions.concur_tableOf, ?_, ?_, ?_⟩
  · intro left other right further same rights on options
    exact ⟨same.join rights on options, fun _ _ =>
      Join.map_places_pairs options.kind same.rows rights.rows⟩
  · intro table other same grouping
    exact ⟨Grouping.map_keyOf_sameKeys same.rows, same.groupBy grouping⟩
  · intro table other same filter further filters
    refine ⟨?_, same.filter filters⟩
    rw [← List.forall₂_eq_eq_eq]
    exact List.rel_map (fun _ _ alike => Filter.eval_sameKeys alike filters) same.rows

example : (["+7", "7.0", "1e400", "7-Up"].map fun raw => (Cell.infer raw, (Cell.text raw).key)) =
    [(.integer 7, .integer 7), (.number ⟨0x401c000000000000⟩, .integer 7),
      (.text "1e400", .number 0x7ff0000000000000), (.text "7-Up", .text "7-Up")] := by
  decide +kernel

end Medals
