import Medals.Json.Reader
import Medals.Table.Group
import Medals.Table.Join
import Medals.Table.Sort

/-!
# Values in JSON documents

How cells, schemas and the options of operations are read from JSON documents and written as such.
A record is an object with named members or an array of its fields in order. Members of other names
are passed over unless the record is strict, even if they have no value; a member that comes twice
is refused.
-/

namespace Medals

namespace RawJson

/-- The members of a record by field: given the names of its fields, what the document holds for
each, if anything. -/
def record? (fields : List String) (strict : Bool) (document : RawJson) :
    Option (List (Option RawJson)) :=
  match document with
  | object members => do
    let named ← members.mapM fun (chars, item) => do return (← textOf? chars, item)
    let known := named.filter fun entry => fields.contains entry.1
    if strict && known.length != named.length then none
    else if fields.any fun name => 1 < (known.filter fun entry => entry.1 == name).length then none
    else some (fields.map fun name => (known.find? fun entry => entry.1 == name).map Prod.snd)
  | array items =>
    if fields.length < items.length then none
    else some (fields.zipIdx.map fun (_, index) => items[index]?)
  | _ => none

def text? : RawJson → Option String
  | text chars => textOf? chars
  | _ => none

def boolean? : RawJson → Option Bool
  | boolean value => some value
  | _ => none

/-- A count of up to 64 bits. -/
def count? (document : RawJson) : Option Nat :=
  match document.scalar? with
  | some (.integer value) => if 0 ≤ value ∧ value ≤ maxCount then some value.toNat else none
  | _ => none

/-- A value or null. -/
def nullable? {α : Type} (read : RawJson → Option α) : RawJson → Option (Option α)
  | null => some none
  | document => (read document).map some

/-- The name of one of several alternatives, alone or as the only member of an object. -/
def alternative? : RawJson → Option String
  | text chars => textOf? chars
  | object [(chars, null)] => textOf? chars
  | _ => none

/-- A member that has to be there. -/
def required? {α : Type} (read : RawJson → Option α) (member? : Option RawJson) : Option α :=
  member?.bind read

/-- A member that may be null or absent. -/
def optional? {α : Type} (read : RawJson → Option α) : Option RawJson → Option (Option α)
  | none => some none
  | some document => nullable? read document

/-- A member that has a value of its own when it is absent. -/
def defaulted? {α : Type} (default : α) (read : RawJson → Option α) : Option RawJson → Option α
  | none => some default
  | some document => read document

end RawJson

namespace Cell

/-- A scalar as a cell. An integer beyond 64 bits becomes a number. -/
def ofJson? (document : RawJson) : Option Cell :=
  match document.scalar? with
  | some .null => some missing
  | some (.integer value) =>
    if Int64.minValue.toInt ≤ value ∧ value ≤ Int64.maxValue.toInt then
      some (integer (Int64.ofInt value))
    else some (number (Double.ofInt value))
  | some (.number value) => some (number value)
  | some (.text value) => some (text value)
  | _ => none

end Cell

namespace CellKind

def ofJson? (document : RawJson) : Option CellKind :=
  document.alternative?.bind ofName?

end CellKind

namespace Schema

def columnOfJson? (document : RawJson) : Option Column :=
  match RawJson.record? ["name", "data_type", "nullable"] false document with
  | some [name, kind, nullable] => do
    return ⟨← RawJson.required? RawJson.text? name, ← RawJson.required? CellKind.ofJson? kind,
      ← RawJson.required? RawJson.boolean? nullable⟩
  | _ => none

def ofJson? (document : RawJson) : Option Schema :=
  match RawJson.record? ["fields"] false document with
  | some [some (.array columns)] => (columns.mapM columnOfJson?).map Schema.mk
  | _ => none

end Schema

namespace JoinKind

def name : JoinKind → String
  | inner => "inner"
  | left => "left"

def ofName? (name : String) : Option JoinKind :=
  if name = "inner" then some inner else if name = "left" then some left else none

def ofJson? (document : RawJson) : Option JoinKind :=
  document.alternative?.bind ofName?

end JoinKind

namespace JoinOptions

def toJson (options : JoinOptions) : Json :=
  .object [("kind", .text options.kind.name),
    ("right_suffix", Json.optionalText options.rightSuffix)]

def ofJson? (document : RawJson) : Option JoinOptions :=
  match RawJson.record? ["kind", "right_suffix"] false document with
  | some [kind, suffix] => do
    return ⟨← RawJson.defaulted? .inner JoinKind.ofJson? kind,
      ← RawJson.optional? RawJson.text? suffix⟩
  | _ => none

end JoinOptions

namespace SortKey

def toJson (key : SortKey) : Json :=
  .object [("column", .text key.column), ("descending", .boolean key.descending)]

def ofJson? (document : RawJson) : Option SortKey :=
  match RawJson.record? ["column", "descending"] false document with
  | some [column, descending] => do
    return ⟨← RawJson.required? RawJson.text? column,
      ← RawJson.required? RawJson.boolean? descending⟩
  | _ => none

end SortKey

namespace AggregateFunction

def name : AggregateFunction → String
  | count => "count"
  | countPresent => "count_non_null"
  | sum => "sum"
  | least => "min"
  | greatest => "max"
  | average => "avg"

def ofName? (name : String) : Option AggregateFunction :=
  [count, countPresent, sum, least, greatest, average].find? fun function => function.name == name

def ofJson? (document : RawJson) : Option AggregateFunction :=
  document.alternative?.bind ofName?

end AggregateFunction

namespace Aggregation

def toJson (aggregation : Aggregation) : Json :=
  .object [("func", .text aggregation.function.name),
    ("column", Json.optionalText aggregation.column), ("alias", .text aggregation.label)]

def ofJson? (document : RawJson) : Option Aggregation :=
  match RawJson.record? ["func", "column", "alias"] false document with
  | some [function, column, label] => do
    return ⟨← RawJson.required? AggregateFunction.ofJson? function,
      ← RawJson.optional? RawJson.text? column, ← RawJson.required? RawJson.text? label⟩
  | _ => none

end Aggregation

end Medals
