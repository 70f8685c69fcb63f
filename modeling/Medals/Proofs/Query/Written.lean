import Medals.Proofs.Csv.RoundTrip
import Medals.Proofs.Query.Events

/-!
# Queries over tables that were written

`Engine.Stores` says that the file of a table is what a writer makes of some rows. Queries then see
these rows as their fields are parsed (`Engine.Stores.load`), and if they are told by what is written
(`Engine.Holds`), just these rows (`Engine.Holds.load`, `Engine.Holds.readsEvents`).
-/

namespace Medals

theorem Settings.delimiterByte_lt (settings : Settings) : settings.delimiterByte < 0x80 := by
  unfold delimiterByte
  split
  · next ascii =>
    have fits : settings.delimiter.toNat % 2 ^ 8 = settings.delimiter.toNat :=
      Nat.mod_eq_of_lt (Nat.lt_trans ascii (by decide))
    rw [UInt8.lt_iff_toNat_lt, UInt8.toNat_ofNat', fits]
    exact ascii
  · decide

namespace Engine

variable {engine : Engine} {files : Files} {table : Dataset} {columns : List String}
  {rows : List Row}

/-- The file of a table is what a writer makes of some rows. -/
structure Stores (engine : Engine) (files : Files) (table : Dataset) (columns : List String)
    (rows : List Row) : Prop where
  separates : Csv.Separates engine.settings.delimiterByte
  file : ∃ path modified, engine.settings.path table = .ok path ∧
    files.find path =
      .file ⟨CsvWriter.encoded engine.settings.delimiterByte columns rows, modified⟩
  writable : RowReader.Writable columns rows

/-- The file of a table is what a writer makes of rows that can be told from it. -/
structure Holds (engine : Engine) (files : Files) (table : Dataset) (columns : List String)
    (rows : List Row) : Prop extends engine.Stores files table columns rows where
  readsBack : ∀ row ∈ rows, ∀ entry ∈ row.entries,
    entry.2.ReadsBack (engine.settings.readOptionsOf table).nullTokens
      ((engine.settings.readOptionsOf table).declaredKind? entry.1)

theorem exists_standard : ∃ engine : Engine, engine.settings = .standard :=
  ⟨⟨.standard, rfl⟩, rfl⟩

/-- A table that was written to its standard place, with commas. -/
theorem stores_of_standard (standard : engine.settings = .standard) {path : String} {modified : Int}
    (leads : Settings.standard.path table = .ok path)
    (found : files.find path = .file ⟨CsvWriter.encoded 0x2c columns rows, modified⟩)
    (writable : RowReader.Writable columns rows) : engine.Stores files table columns rows := by
  have comma : engine.settings.delimiterByte = 0x2c := by
    rw [standard]
    decide
  refine ⟨?_, ⟨path, modified, ?_, ?_⟩, writable⟩
  · rw [comma]
    exact ⟨by decide, by decide, by decide⟩
  · rw [standard, leads]
  · rw [comma, found]

theorem holds_of_standard (standard : engine.settings = .standard) {path : String} {modified : Int}
    (leads : Settings.standard.path table = .ok path)
    (found : files.find path = .file ⟨CsvWriter.encoded 0x2c columns rows, modified⟩)
    (told : RowReader.Told (Settings.standard.readOptionsOf table) columns rows) :
    engine.Holds files table columns rows := by
  refine ⟨stores_of_standard standard leads found told.1, ?_⟩
  rw [standard]
  exact told.2

namespace Stores

/-- The table is read as its fields are parsed. -/
theorem openTable (stores : engine.Stores files table columns rows) :
    ∃ reader, engine.openTable files table = .ok reader ∧ reader.names = columns ∧
      ∀ pulls, (reader.pulled pulls).next.1 = .ok (rows.map
        (RowReader.reread (engine.settings.readOptionsOf table) columns))[pulls]? := by
  obtain ⟨path, modified, leads, found⟩ := stores.file
  obtain ⟨reader, opened, names, pulls⟩ := RowReader.pulls_of_written path
    (show (engine.settings.readOptionsOf table).delimiter < 0x80 from
      engine.settings.delimiterByte_lt) stores.separates stores.writable rfl (Nat.le_max_right _ _)
  refine ⟨reader, (openTable_of_file leads found).mpr opened, names, fun count => (pulls count).1⟩

theorem load (stores : engine.Stores files table columns rows) :
    ∃ loaded, engine.load files table none = (.ok loaded, none) ∧ loaded.names = columns ∧
      loaded.rows =
        rows.map (RowReader.reread (engine.settings.readOptionsOf table) columns) := by
  obtain ⟨reader, opened, names, pulls⟩ := stores.openTable
  obtain ⟨loaded, made, layout, same⟩ := Pipeline.toTable_of_pulls pulls
  refine ⟨loaded, ?_, layout.trans names, same⟩
  have read : engine.readTable files table = .ok loaded := by
    rw [readTable, opened]
    exact made
  rw [Engine.load, read]

end Stores

namespace Holds

theorem told (holds : engine.Holds files table columns rows) :
    RowReader.Told (engine.settings.readOptionsOf table) columns rows :=
  ⟨holds.writable, holds.readsBack⟩

theorem openTable (holds : engine.Holds files table columns rows) :
    ∃ reader, engine.openTable files table = .ok reader ∧ reader.names = columns ∧
      ∀ pulls, (reader.pulled pulls).next.1 = .ok rows[pulls]? := by
  have read := holds.toStores.openTable
  rwa [holds.told.map_reread] at read

/-- The table is loaded as it was written. -/
theorem load (holds : engine.Holds files table columns rows) :
    ∃ loaded, engine.load files table none = (.ok loaded, none) ∧ loaded.names = columns ∧
      loaded.rows = rows := by
  have loaded := holds.toStores.load
  rwa [holds.told.map_reread] at loaded

/-- The events are read as they were written. -/
theorem readsEvents (holds : engine.Holds files .events columns rows) :
    ∃ reader, engine.ReadsEvents files reader rows ∧ reader.names = columns := by
  obtain ⟨reader, opened, names, pulls⟩ := holds.openTable
  exact ⟨reader, ⟨opened, Pipeline.runs_of_pulls pulls⟩, names⟩

end Holds

end Engine

end Medals
