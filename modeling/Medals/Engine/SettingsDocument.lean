import Medals.Engine.Settings
import Medals.Yaml.Document
import Medals.Yaml.Writer

/-!
# Settings documents

Settings are kept in YAML documents. A document that is read names some of them, each at most once;
one that is written names them all, in their order.
-/

namespace Medals

namespace SettingsOverlay

/-- The name that a key is. -/
def nameOf? : Yaml.Node → Option String
  | .scalar _ _ name => some name
  | _ => none

/-- The root as a mapping. A plain scalar without text is an empty one. -/
def entriesOf? : Yaml.Node → Option (List (Yaml.Node × Yaml.Node))
  | .mapping _ entries => some entries
  | .scalar _ .plain "" => some []
  | _ => none

/-- What a document says of settings: names and values, with what references stand for. -/
def entries? (document : Yaml.Document) : Option (List (String × Yaml.Node)) := do
  (← entriesOf? (document.resolve document.root)).mapM fun (key, value) => do
    return (← nameOf? (document.resolve key), document.resolve value)

/-- Every name is that of a setting and comes once. -/
def namesAreSettings : List (String × Yaml.Node) → Bool
  | [] => true
  | (name, _) :: rest =>
    fieldNames.contains name && !rest.any (fun entry => entry.1 == name) && namesAreSettings rest

/-- A value says nothing of its setting, as plain scalars without text and words for nothing do.
With the tag of nothing it has to be such a word, and other tags make something of every value. -/
def saysNothing? : Yaml.Node → Option Bool
  | .scalar properties .plain text =>
    match properties.tag? with
    | none => some (text == "" || Yaml.isNullWord text)
    | some tag =>
      if tag = Yaml.standardTag "null" then if Yaml.isNullWord text then some true else none
      else some false
  | _ => some false

/-- The value of a setting. It may be left out or say nothing; otherwise it has to be readable. -/
def value? {α : Type} (entries : List (String × Yaml.Node)) (name : String)
    (read : Yaml.Node → Option α) : Option (Option α) :=
  match entries.find? fun entry => entry.1 == name with
  | none => some none
  | some (_, node) =>
    match saysNothing? node with
    | some true => some none
    | some false => (read node).map some
    | none => none

/-- The text of any scalar. -/
def textOf? : Yaml.Node → Option String
  | .scalar _ _ text => some text
  | _ => none

/-- The text of a plain scalar, or of a literal one with a tag of its own kind. -/
def plainOf? (kind : String) : Yaml.Node → Option String
  | .scalar properties style text =>
    if style = .plain ∨ (style = .literal ∧ properties.tag? = some (Yaml.standardTag kind)) then
      some text
    else none
  | _ => none

/-- A count. -/
def countOf? (node : Yaml.Node) : Option Nat :=
  (plainOf? "int" node).bind Yaml.count?

/-- The texts of a sequence. A plain scalar without text is an empty one. -/
def textsOf? (document : Yaml.Document) : Yaml.Node → Option (List String)
  | .sequence _ items => items.mapM fun item => textOf? (document.resolve item)
  | .scalar _ .plain "" => some []
  | _ => none

/-- The name that a local tag spells behind its exclamation mark. Without any it is that mark. -/
def localName? (tag : Yaml.TagText) : Option String :=
  match tag with
  | [0x21] => some "!"
  | 0x21 :: name => Utf8.decode? name
  | _ => none

/-- A policy is the text of a scalar, or the local tag of a plain scalar that says nothing. -/
def policyOf? (node : Yaml.Node) : Option MalformedPolicy :=
  match node with
  | .scalar properties style text =>
    match properties.tag?.bind localName? with
    | some name =>
      if style = .plain ∧ (text = "" ∨ Yaml.isNullWord text) then policyOfName? name else none
    | none => policyOfName? text
  | _ => none

/-- The overlay that a document makes. -/
def ofDocument? (document : Yaml.Document) : Option SettingsOverlay := do
  let entries ← entries? document
  if !namesAreSettings entries then none
  return {
    dataDir := ← value? entries "data_dir" textOf?
    eventsFile := ← value? entries "events_file" textOf?
    countriesFile := ← value? entries "countries_file" textOf?
    statsFile := ← value? entries "stats_file" textOf?
    nocCodesFile := ← value? entries "noc_codes_file" textOf?
    delimiter := ← value? entries "delimiter" fun node => (textOf? node).bind Settings.singleChar?
    malformed := ← value? entries "malformed_policy" policyOf?
    nullTokens := ← value? entries "null_tokens" (textsOf? document)
    readBufferBytes := ← value? entries "read_buffer_bytes" countOf?
    joinDemoSampleRows := ← value? entries "join_demo_sample_rows" countOf?
    maxPageSize := ← value? entries "max_page_size" countOf?
    cacheTables := ← value? entries "cache_tables" fun node =>
      (plainOf? "bool" node).bind Yaml.boolean? }

/-- The overlay that a text makes. -/
def parse (text : String) : Except Fault SettingsOverlay :=
  match (Yaml.parse? text).bind ofDocument? with
  | some overlay => .ok overlay
  | none => .error .settingsUnreadable

end SettingsOverlay

namespace Settings

/-- The entries of the document that names all settings. -/
def entries (settings : Settings) : List (String × Yaml.Value) :=
  [("data_dir", .text settings.dataDir), ("events_file", .text settings.eventsFile),
    ("countries_file", .text settings.countriesFile), ("stats_file", .text settings.statsFile),
    ("noc_codes_file", match settings.nocCodesFile with
      | some file => .text file
      | none => .null),
    ("delimiter", .character settings.delimiter),
    ("malformed_policy", .text settings.malformed.name),
    ("null_tokens", .texts settings.nullTokens),
    ("read_buffer_bytes", .count settings.readBufferBytes),
    ("join_demo_sample_rows", .count settings.joinDemoSampleRows),
    ("max_page_size", .count settings.maxPageSize), ("cache_tables", .boolean settings.cacheTables)]

/-- The document that names all settings. -/
def document (settings : Settings) : String :=
  Yaml.writtenMapping settings.entries

end Settings

end Medals
