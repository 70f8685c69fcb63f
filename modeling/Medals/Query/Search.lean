import Medals.Query.Result

/-!
# Search

A filtered scan of the events, one page at a time, and the list of sports. The total counts every
match, whatever the page.
-/

namespace Medals

/-- The order in which matches are paged. -/
inductive SearchOrder where
  /-- As they come in the file. -/
  | file
  /-- By year, and as they come within a year. -/
  | year
deriving DecidableEq, Repr, Inhabited

namespace SearchOrder

def name : SearchOrder → String
  | file => "file"
  | year => "year"

/-- The order of a name, blanks and case aside. -/
def parse (text : String) : Except Fault SearchOrder :=
  let name := asciiLowered (trimmed text)
  if name = "file" then .ok file
  else if name = "year" then .ok year
  else .error (.unknownOrder name)

end SearchOrder

/-- What is searched for. Selectors that are blank or ask for everything do not count. -/
structure SearchParams where
  /-- A piece of the athlete's name. -/
  name : Option String
  season : Option String
  yearMin : Option Int64
  yearMax : Option Int64
  noc : Option String
  sport : Option String
  medalOnly : Bool
  /-- Counted from one. -/
  page : Nat
  pageSize : Nat
  order : SearchOrder
  /-- The columns wanted, or all of them. -/
  columns : Option (List String)
deriving Repr, Inhabited

namespace SearchParams

def standard : SearchParams :=
  ⟨none, none, none, none, none, none, false, 1, 50, .file, none⟩

/-- The condition that a selector puts on a column. -/
def selectorCondition (column : String) (selector : Option String) : List Condition :=
  match selected? selector with
  | some text => [.equals column (.text text)]
  | none => []

def nameCondition (params : SearchParams) : List Condition :=
  match (params.name.map trimmed).filter (· != "") with
  | some piece => [.contains "Name" piece]
  | none => []

def yearCondition (params : SearchParams) : List Condition :=
  if params.yearMin.isSome || params.yearMax.isSome then
    [.range "Year" (params.yearMin.map .integer) (params.yearMax.map .integer)]
  else []

/-- The conditions of a search. -/
def filter (params : SearchParams) : Filter :=
  ⟨params.nameCondition ++ (if params.medalOnly then [.present "Medal"] else []) ++
    params.yearCondition ++ selectorCondition "Season" params.season ++
    selectorCondition "NOC" params.noc ++ selectorCondition "Sport" params.sport⟩

end SearchParams

/-- One page of a search. -/
structure SearchPage where
  rows : List Row
  /-- Matches on all pages. -/
  total : Nat
  page : Nat
  pageSize : Nat
  columns : List String
  metrics : QueryMetrics
deriving Repr

namespace SearchPage

def toJson (found : SearchPage) : Json :=
  .object [("data", .array (found.rows.map Row.toJson)), ("total", .integer found.total),
    ("page", .integer found.page), ("page_size", .integer found.pageSize)]

end SearchPage

namespace Engine

/-- One page of the events that match. -/
def search (engine : Engine) (files : Files) (params : SearchParams) :
    Except Fault SearchPage := do
  let cap := engine.settings.maxPageSize
  if params.pageSize = 0 ∨ cap < params.pageSize then
    throw (.pageSizeOutOfRange cap params.pageSize)
  let number := max params.page 1
  let window := Window.ofPage number params.pageSize
  let events := Pipeline.ofReader (← engine.openTable files .events)
  let (found, after) := match params.order with
    | .file => events.page params.filter params.columns window
    | .year => events.sortedPage params.filter params.columns ⟨"Year", false⟩ window
  let page ← found
  return {
    rows := page.rows
    total := page.total
    page := number
    pageSize := params.pageSize
    columns := page.names
    metrics := .ofReading "search_athletes" page.rows.length after.readStats }

/-- Put a text into an ascending list of distinct texts. -/
def insertText (text : String) : List String → List String
  | [] => [text]
  | first :: rest =>
    if text = first then first :: rest
    else if text < first then text :: first :: rest
    else first :: insertText text rest

/-- The sports of the events, ascending, each once. -/
def sports (engine : Engine) (files : Files) : Except Fault (List String) := do
  let events := Pipeline.ofReader (← engine.openTable files .events)
  let named ← events.addStage ⟨[.present "Sport"]⟩ (some ["Sport"])
  let add (sports : List String) (row : Row) : List String :=
    let sport := (row.cellAt 0).plainText
    if trimmed sport = "" then sports else insertText sport sports
  (named.fold add []).1

end Engine

end Medals
