import Medals.Csv.Reader
import Medals.Engine.Path
import Medals.Json.Decode

/-!
# Settings

Settings are layered: the standard ones, the environment, a settings document, flags. A later layer
overrides what it names and leaves the rest. They are checked once all layers are applied.
-/

namespace Medals

structure Settings where
  /-- The directory of the tables. -/
  dataDir : String
  eventsFile : String
  countriesFile : String
  statsFile : String
  /-- A table that maps NOC codes to the country codes of the statistics. -/
  nocCodesFile : Option String
  delimiter : Char
  malformed : MalformedPolicy
  nullTokens : List String
  readBufferBytes : Nat
  /-- How many leading events the join demonstration looks at. -/
  joinDemoSampleRows : Nat
  /-- The greatest page size of a search. -/
  maxPageSize : Nat
  /-- Keep small tables across queries. -/
  cacheTables : Bool
deriving DecidableEq, Repr, Inhabited

/-- What a settings document says; `none` leaves a setting as it is. -/
structure SettingsOverlay where
  dataDir : Option String
  eventsFile : Option String
  countriesFile : Option String
  statsFile : Option String
  nocCodesFile : Option String
  delimiter : Option Char
  malformed : Option MalformedPolicy
  nullTokens : Option (List String)
  readBufferBytes : Option Nat
  joinDemoSampleRows : Option Nat
  maxPageSize : Option Nat
  cacheTables : Option Bool
deriving DecidableEq, Repr, Inhabited

namespace Settings

def standard : Settings where
  dataDir := "data"
  eventsFile := "events.csv"
  countriesFile := "countries.csv"
  statsFile := "country_year_stats.csv"
  nocCodesFile := none
  delimiter := ','
  malformed := .skip
  nullTokens := ["NA", "null", "none"]
  readBufferBytes := 65536
  joinDemoSampleRows := 5000
  maxPageSize := 500
  cacheTables := false

/-- A text of one character. -/
def singleChar? (text : String) : Option Char :=
  match text.toList with
  | [c] => some c
  | _ => none

/-- The words that switch the cache on in the environment; any other text switches it off. -/
def isAffirmative (text : String) : Bool :=
  ["1", "true", "TRUE", "yes"].contains (trimmed text)

/-- The variables of the environment that name settings. -/
def environmentNames : List String :=
  ["PODIUM_DATA_DIR", "PODIUM_EVENTS_FILE", "PODIUM_COUNTRIES_FILE", "PODIUM_STATS_FILE",
    "PODIUM_NOC_CODES_FILE", "PODIUM_DELIMITER", "PODIUM_MALFORMED_POLICY",
    "PODIUM_READ_BUFFER_BYTES", "PODIUM_MAX_PAGE_SIZE", "PODIUM_CACHE_TABLES"]

/-- The standard settings with what the environment names. Texts that cannot be read are passed
over. -/
def ofEnvironment (lookup : String → Option String) : Settings :=
  let policy? := (lookup "PODIUM_MALFORMED_POLICY").bind fun text =>
    (MalformedPolicy.parse text).toOption
  { standard with
    dataDir := (lookup "PODIUM_DATA_DIR").getD standard.dataDir
    eventsFile := (lookup "PODIUM_EVENTS_FILE").getD standard.eventsFile
    countriesFile := (lookup "PODIUM_COUNTRIES_FILE").getD standard.countriesFile
    statsFile := (lookup "PODIUM_STATS_FILE").getD standard.statsFile
    nocCodesFile := lookup "PODIUM_NOC_CODES_FILE"
    delimiter := ((lookup "PODIUM_DELIMITER").bind singleChar?).getD standard.delimiter
    malformed := policy?.getD standard.malformed
    readBufferBytes :=
      ((lookup "PODIUM_READ_BUFFER_BYTES").bind readCount?).getD standard.readBufferBytes
    maxPageSize := ((lookup "PODIUM_MAX_PAGE_SIZE").bind readCount?).getD standard.maxPageSize
    cacheTables := ((lookup "PODIUM_CACHE_TABLES").map isAffirmative).getD standard.cacheTables }

/-- The settings with what a document names. -/
def overlay (settings : Settings) (document : SettingsOverlay) : Settings where
  dataDir := document.dataDir.getD settings.dataDir
  eventsFile := document.eventsFile.getD settings.eventsFile
  countriesFile := document.countriesFile.getD settings.countriesFile
  statsFile := document.statsFile.getD settings.statsFile
  nocCodesFile := document.nocCodesFile.or settings.nocCodesFile
  delimiter := document.delimiter.getD settings.delimiter
  malformed := document.malformed.getD settings.malformed
  nullTokens := document.nullTokens.getD settings.nullTokens
  readBufferBytes := document.readBufferBytes.getD settings.readBufferBytes
  joinDemoSampleRows := document.joinDemoSampleRows.getD settings.joinDemoSampleRows
  maxPageSize := document.maxPageSize.getD settings.maxPageSize
  cacheTables := document.cacheTables.getD settings.cacheTables

/-- Check the settings; the first defect is the fault. -/
def validate (settings : Settings) : Except Fault Unit :=
  if 128 ≤ settings.delimiter.toNat then .error (.delimiterNotAscii settings.delimiter)
  else if settings.readBufferBytes = 0 then .error .readBufferZero
  else if settings.maxPageSize = 0 then .error .pageCapZero
  else .ok ()

/-- The delimiter as a byte; a comma where it is not one. -/
def delimiterByte (settings : Settings) : UInt8 :=
  if settings.delimiter.toNat < 128 then UInt8.ofNat settings.delimiter.toNat else 0x2c

def eventsPath (settings : Settings) : String :=
  Path.join settings.dataDir settings.eventsFile

def countriesPath (settings : Settings) : String :=
  Path.join settings.dataDir settings.countriesFile

def statsPath (settings : Settings) : String :=
  Path.join settings.dataDir settings.statsFile

def nocCodesPath? (settings : Settings) : Option String :=
  settings.nocCodesFile.map (Path.join settings.dataDir)

/-- Where a table lies. -/
def path (settings : Settings) : Dataset → Except Fault String
  | .events => .ok settings.eventsPath
  | .countries => .ok settings.countriesPath
  | .stats => .ok settings.statsPath
  | .nocCodes =>
    match settings.nocCodesPath? with
    | some path => .ok path
    | none => .error .noCodesFile

/-- Where the tables lie, as far as they are set. -/
def tablePaths (settings : Settings) : List String :=
  [settings.eventsPath, settings.countriesPath, settings.statsPath] ++ settings.nocCodesPath?.toList

/-- How tables are read, before columns are declared. -/
def readOptions (settings : Settings) : ReadOptions where
  delimiter := settings.delimiterByte
  limit := none
  malformed := settings.malformed
  nullTokens := settings.nullTokens
  declared := []
  bufferCapacity := max settings.readBufferBytes 1

/-- How a table is read. -/
def readOptionsOf (settings : Settings) (table : Dataset) : ReadOptions :=
  { settings.readOptions with declared := table.declared }

end Settings

namespace SettingsOverlay

/-- The settings that a document may name, in order. -/
def fieldNames : List String :=
  ["data_dir", "events_file", "countries_file", "stats_file", "noc_codes_file", "delimiter",
    "malformed_policy", "null_tokens", "read_buffer_bytes", "join_demo_sample_rows",
    "max_page_size", "cache_tables"]

/-- The policy of exactly this name. -/
def policyOfName? (name : String) : Option MalformedPolicy :=
  [MalformedPolicy.skip, .fail, .pad].find? fun policy => policy.name == name

def texts? : RawJson → Option (List String)
  | .array items => items.mapM RawJson.text?
  | _ => none

/-- The overlay of a document that names no other settings. -/
def ofJson? (document : RawJson) : Option SettingsOverlay :=
  match RawJson.record? fieldNames true document with
  | some [dataDir, eventsFile, countriesFile, statsFile, nocCodesFile, delimiter, malformed,
      nullTokens, readBufferBytes, joinDemoSampleRows, maxPageSize, cacheTables] => do
    return {
      dataDir := ← RawJson.optional? RawJson.text? dataDir
      eventsFile := ← RawJson.optional? RawJson.text? eventsFile
      countriesFile := ← RawJson.optional? RawJson.text? countriesFile
      statsFile := ← RawJson.optional? RawJson.text? statsFile
      nocCodesFile := ← RawJson.optional? RawJson.text? nocCodesFile
      delimiter := ← RawJson.optional? (fun item => item.text?.bind Settings.singleChar?) delimiter
      malformed := ← RawJson.optional? (fun item => item.alternative?.bind policyOfName?) malformed
      nullTokens := ← RawJson.optional? texts? nullTokens
      readBufferBytes := ← RawJson.optional? RawJson.count? readBufferBytes
      joinDemoSampleRows := ← RawJson.optional? RawJson.count? joinDemoSampleRows
      maxPageSize := ← RawJson.optional? RawJson.count? maxPageSize
      cacheTables := ← RawJson.optional? RawJson.boolean? cacheTables }
  | _ => none

end SettingsOverlay

end Medals
