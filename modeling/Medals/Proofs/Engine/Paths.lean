import Medals.Engine.Files
import Medals.Engine.Settings

/-!
# Where the tables lie

The standard settings look for the tables in one directory. `Files.find_tables` finds what was put
there.
-/

namespace Medals

namespace Path

/-- The place of a relative path in the standard directory. -/
theorem join_data {inner : String} (relative : ¬ ['/'] <+: inner.toList) :
    join "data" inner = "data/" ++ inner := by
  have inside : inner.startsWith "/" = false :=
    String.startsWith_string_eq_false_iff.mpr relative
  have noSeparator : "data".endsWith "/" = false := by
    rw [← String.endsWith_toSlice]
    exact String.Slice.endsWith_string_eq_false_iff.mpr (by rw [String.copy_toSlice]; decide)
  rw [join, inside, noSeparator, if_neg (by decide), if_neg (by decide)]
  rfl

end Path

/-- Where a table lies by the standard settings. -/
theorem Settings.standard_path (table : Dataset) (set : table ≠ .nocCodes) :
    Settings.standard.path table = .ok (match table with
      | .events => "data/events.csv"
      | .countries => "data/countries.csv"
      | _ => "data/country_year_stats.csv") := by
  cases table with
  | events => exact congrArg Except.ok (Path.join_data (by decide))
  | countries => exact congrArg Except.ok (Path.join_data (by decide))
  | stats => exact congrArg Except.ok (Path.join_data (by decide))
  | nocCodes => exact absurd rfl set

namespace Files

/-- A relative path without defect leads from the starting place. -/
theorem find_relative {files : Files} {path : String} {segments place : List String}
    {file : StoredFile} (sound : defect? path = none) (relative : ¬ ['/'] <+: path.toList)
    (named : Path.segments path = segments) (followed : files.follow [] segments = .ok place)
    (there : files.file? place = some file) : files.find path = .file file := by
  have start : path.startsWith "/" = false := String.startsWith_string_eq_false_iff.mpr relative
  rw [find, sound, named, Path.origin, start]
  simp only [Bool.false_eq_true, if_false, followed]
  rw [foundAt, there]

/-- Tables at their standard places. -/
def tables (events countries stats : StoredFile) : Files :=
  ((empty.put ["data", "events.csv"] events).put ["data", "countries.csv"] countries).put
    ["data", "country_year_stats.csv"] stats

theorem find_tables (events countries stats : StoredFile) :
    (tables events countries stats).find "data/events.csv" = .file events ∧
      (tables events countries stats).find "data/countries.csv" = .file countries ∧
      (tables events countries stats).find "data/country_year_stats.csv" = .file stats :=
  ⟨find_relative (by decide) (by decide)
      (show Path.segments _ = ["data", "events.csv"] by decide) rfl rfl,
    find_relative (by decide) (by decide)
      (show Path.segments _ = ["data", "countries.csv"] by decide) rfl rfl,
    find_relative (by decide) (by decide)
      (show Path.segments _ = ["data", "country_year_stats.csv"] by decide) rfl rfl⟩

end Files

end Medals
