import Medals.Table.Row
import Medals.Table.Schema

/-!
# JSON documents

A document tree and its two written forms: compact, without any space, and spread, with one entry a
line. Object members keep their order and may repeat.
-/

namespace Medals

/-- A JSON document. -/
inductive Json where
  | null
  | boolean (value : Bool)
  | integer (value : Int)
  | number (value : Double)
  | text (value : String)
  | array (items : List Json)
  | object (members : List (String × Json))
deriving Repr, Inhabited

namespace Json

/-- One character of a JSON text. -/
def escapedChar (c : Char) : String :=
  if c = '"' then "\\\""
  else if c = '\\' then "\\\\"
  else if c.toNat = 8 then "\\b"
  else if c.toNat = 12 then "\\f"
  else if c = '\n' then "\\n"
  else if c = '\r' then "\\r"
  else if c = '\t' then "\\t"
  else if c.toNat < 16 then "\\u000" ++ String.ofList (Nat.toDigits 16 c.toNat)
  else if c.toNat < 32 then "\\u00" ++ String.ofList (Nat.toDigits 16 c.toNat)
  else c.toString

/-- A text between quotes. -/
def textLiteral (text : String) : String :=
  "\"" ++ String.join (text.toList.map escapedChar) ++ "\""

/-- A number; infinities and NaN have no JSON form and are written as null. -/
def numberLiteral (value : Double) : String :=
  if value.isFinite then value.documentText else "null"

/-- The form of a scalar, the same in both layouts. -/
def scalarLiteral : Json → String
  | null => "null"
  | boolean value => if value then "true" else "false"
  | integer value => integerText value
  | number value => numberLiteral value
  | text value => textLiteral value
  | array _ => "[]"
  | object _ => "\x7b\x7d"

mutual

/-- The compact form. -/
def compact : Json → String
  | array items => "[" ++ compactItems items ++ "]"
  | object members => "\x7b" ++ compactMembers members ++ "\x7d"
  | scalar => scalarLiteral scalar

def compactItems : List Json → String
  | [] => ""
  | [item] => compact item
  | item :: rest => compact item ++ "," ++ compactItems rest

def compactMembers : List (String × Json) → String
  | [] => ""
  | [(name, item)] => textLiteral name ++ ":" ++ compact item
  | (name, item) :: rest => textLiteral name ++ ":" ++ compact item ++ "," ++ compactMembers rest

end

/-- Two spaces for every level. -/
def indentation (level : Nat) : String :=
  String.ofList (List.replicate (2 * level) ' ')

mutual

/-- The spread form, at a level of nesting. Empty arrays and objects stay on one line. -/
def spread (level : Nat) : Json → String
  | array [] => "[]"
  | array items =>
    "[\n" ++ spreadItems (level + 1) items ++ "\n" ++ indentation level ++ "]"
  | object [] => "\x7b\x7d"
  | object members =>
    "\x7b\n" ++ spreadMembers (level + 1) members ++ "\n" ++ indentation level ++ "\x7d"
  | scalar => scalarLiteral scalar

def spreadItems (level : Nat) : List Json → String
  | [] => ""
  | [item] => indentation level ++ spread level item
  | item :: rest => indentation level ++ spread level item ++ ",\n" ++ spreadItems level rest

def spreadMembers (level : Nat) : List (String × Json) → String
  | [] => ""
  | [(name, item)] => indentation level ++ textLiteral name ++ ": " ++ spread level item
  | (name, item) :: rest =>
    indentation level ++ textLiteral name ++ ": " ++ spread level item ++ ",\n" ++
      spreadMembers level rest

end

/-- A text that may be absent. -/
def optionalText : Option String → Json
  | some value => text value
  | none => null

end Json

namespace Cell

def toJson : Cell → Json
  | missing => .null
  | integer value => .integer value.toInt
  | number value => .number value
  | text value => .text value

end Cell

namespace Row

/-- One member per column, in column order. -/
def toJson (row : Row) : Json :=
  .object (row.entries.map fun (name, cell) => (name, cell.toJson))

end Row

namespace CellKind

def name : CellKind → String
  | integer => "Int64"
  | number => "Float64"
  | text => "Utf8"

/-- The kind of a name. -/
def ofName? (name : String) : Option CellKind :=
  if name = "Int64" then some integer
  else if name = "Float64" then some number
  else if name = "Utf8" then some text
  else none

end CellKind

namespace Schema

def columnJson (column : Column) : Json :=
  .object [("name", .text column.name), ("data_type", .text column.kind.name),
    ("nullable", .boolean column.nullable)]

def toJson (schema : Schema) : Json :=
  .object [("fields", .array (schema.columns.map columnJson))]

end Schema

end Medals
