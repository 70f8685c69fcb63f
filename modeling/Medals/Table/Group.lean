import Std.Data.HashMap
import Medals.Cell.Key
import Medals.Cell.Order
import Medals.Table.Basic

/-!
# Grouping

Rows are grouped by the keys of some columns and summarised per group in one pass. Groups come in
the order of their first rows, whose cells stand for the key columns.
-/

namespace Medals

inductive AggregateFunction where
  /-- The number of rows. -/
  | count
  /-- The number of rows whose cell is not missing. -/
  | countPresent
  | sum
  | least
  | greatest
  | average
deriving DecidableEq, Repr, Inhabited

/-- A summary of one column, or of the rows themselves, under a name of its own. -/
structure Aggregation where
  function : AggregateFunction
  column : Option String
  label : String
deriving DecidableEq, Repr, Inhabited

namespace Aggregation

def count : Aggregation := ⟨.count, none, "count_all"⟩

def countPresent (column : String) : Aggregation :=
  ⟨.countPresent, some column, "count_" ++ column⟩

def sum (column : String) : Aggregation := ⟨.sum, some column, "sum_" ++ column⟩

def least (column : String) : Aggregation := ⟨.least, some column, "min_" ++ column⟩

def greatest (column : String) : Aggregation := ⟨.greatest, some column, "max_" ++ column⟩

def average (column : String) : Aggregation := ⟨.average, some column, "avg_" ++ column⟩

/-- The same summary under another name. -/
def named (aggregation : Aggregation) (label : String) : Aggregation :=
  { aggregation with label }

end Aggregation

/-- Key columns and what is computed for each group. -/
structure Grouping where
  keys : List String
  aggregations : List Aggregation
deriving DecidableEq, Repr, Inhabited

namespace Grouping

/-- Count the rows of each group. -/
def counting (keys : List String) (label : String) : Grouping :=
  ⟨keys, [Aggregation.count.named label]⟩

/-- The columns of the result. -/
def outputNames (grouping : Grouping) : List String :=
  grouping.keys ++ grouping.aggregations.map Aggregation.label

end Grouping

/-- A summary in the making. -/
inductive Accumulator where
  | count (rows : Nat)
  | countPresent (rows : Nat)
  /-- The sum so far is an integer of 64 bits. -/
  | exactSum (total : Int64)
  /-- A number was met or the integers overflowed; the sum stays a number from there on. -/
  | roundedSum (total : Double)
  | least (best? : Option Cell)
  | greatest (best? : Option Cell)
  | average (total : Double) (cells : Nat)
deriving DecidableEq, Repr, Inhabited

namespace Accumulator

def start : AggregateFunction → Accumulator
  | .count => count 0
  | .countPresent => countPresent 0
  | .sum => exactSum 0
  | .least => least none
  | .greatest => greatest none
  | .average => average (Double.zero false) 0

/-- The sum of two integers, exact if it fits 64 bits and rounded otherwise. -/
def addIntegers (total value : Int64) : Accumulator :=
  let sum := total.toInt + value.toInt
  if Int64.minValue.toInt ≤ sum ∧ sum ≤ Int64.maxValue.toInt then exactSum (Int64.ofInt sum)
  else roundedSum (Double.ofInt total.toInt + Double.ofInt value.toInt)

/-- Replace the best cell by one that compares as wanted with it; missing cells do not count. -/
def better (wanted : Ordering) (best? : Option Cell) (cell : Cell) : Option Cell :=
  if cell.isMissing then best?
  else
    match best? with
    | none => some cell
    | some best => if cell.order best = wanted then some cell else some best

/-- Take one row into account, given its cell in the summarised column. -/
def update (accumulator : Accumulator) (cell : Cell) : Accumulator :=
  match accumulator with
  | count rows => count (rows + 1)
  | countPresent rows => countPresent (if cell.isMissing then rows else rows + 1)
  | exactSum total =>
    match cell with
    | .integer value => addIntegers total value
    | .number value => roundedSum (Double.ofInt total.toInt + value)
    | _ => exactSum total
  | roundedSum total =>
    match cell with
    | .integer value => roundedSum (total + Double.ofInt value.toInt)
    | .number value => roundedSum (total + value)
    | _ => roundedSum total
  | least best? => least (better .lt best? cell)
  | greatest best? => greatest (better .gt best? cell)
  | average total cells =>
    match cell.toDouble? with
    | some value => average (total + value) (cells + 1)
    | none => average total cells

/-- The finished summary. -/
def result : Accumulator → Cell
  | count rows => .integer (Int64.ofNat rows)
  | countPresent rows => .integer (Int64.ofNat rows)
  | exactSum total => .integer total
  | roundedSum total => .number total
  | least best? => best?.getD .missing
  | greatest best? => best?.getD .missing
  | average total cells =>
    if cells = 0 then .missing else .number (total / Double.ofInt cells)

end Accumulator

/-- The cells of a group's first row in the key columns, and its summaries. -/
structure Group where
  keyCells : List Cell
  accumulators : List Accumulator
deriving DecidableEq, Repr, Inhabited

/-- A grouping bound to a layout, with the groups found so far. -/
structure Groups where
  keyPositions : List Nat
  aggregations : List (AggregateFunction × Option Nat)
  names : List String
  /-- The place of each group among `found`, by its key. -/
  index : Std.HashMap (List CellKey) Nat
  found : Array Group

namespace Groups

/-- Resolve the key columns; the first unknown one is the fault. -/
def bindKeys (layout : List String) : List String → Except Fault (List Nat)
  | [] => .ok []
  | name :: rest =>
    match requirePosition layout name with
    | .error fault => .error fault
    | .ok index =>
      match bindKeys layout rest with
      | .error fault => .error fault
      | .ok positions => .ok (index :: positions)

/-- Resolve the column of one summary; only a count of rows needs none. -/
def bindAggregation (layout : List String) (aggregation : Aggregation) :
    Except Fault (AggregateFunction × Option Nat) :=
  match aggregation.column, aggregation.function with
  | some name, function => (requirePosition layout name).map fun index => (function, some index)
  | none, .count => .ok (.count, none)
  | none, _ => .error (.aggregationWithoutColumn aggregation.label)

/-- Resolve summaries in order. -/
def bindAggregations (layout : List String) :
    List Aggregation → Except Fault (List (AggregateFunction × Option Nat))
  | [] => .ok []
  | aggregation :: rest =>
    match bindAggregation layout aggregation with
    | .error fault => .error fault
    | .ok bound =>
      match bindAggregations layout rest with
      | .error fault => .error fault
      | .ok others => .ok (bound :: others)

/-- A grouping bound to a layout, before any row. Keys are resolved first, then summaries, and last
the names of the result are checked to be distinct. -/
def bind (grouping : Grouping) (layout : List String) : Except Fault Groups := do
  let keyPositions ← bindKeys layout grouping.keys
  let aggregations ← bindAggregations layout grouping.aggregations
  Row.distinctNames [] grouping.outputNames
  return ⟨keyPositions, aggregations, grouping.outputNames, ∅, #[]⟩

/-- The key of a row. -/
def keyOf (groups : Groups) (row : Row) : List CellKey :=
  groups.keyPositions.map fun index => (row.cellAt index).key

/-- The group of a row, before the row itself is counted. -/
def newGroup (groups : Groups) (row : Row) : Group :=
  ⟨groups.keyPositions.map row.cellAt, groups.aggregations.map fun bound => .start bound.1⟩

/-- Take one row into the summaries of its group. -/
def count (groups : Groups) (row : Row) (group : Group) : Group :=
  { group with
    accumulators := group.accumulators.zipWith (fun accumulator bound =>
      accumulator.update (match bound.2 with
        | some index => row.cellAt index
        | none => .missing)) groups.aggregations }

/-- Take one row into account. -/
def add (groups : Groups) (row : Row) : Groups :=
  match groups.index[groups.keyOf row]? with
  | some place => { groups with found := groups.found.modify place (groups.count row) }
  | none =>
    { groups with
      index := groups.index.insert (groups.keyOf row) groups.found.size
      found := groups.found.push (groups.count row (groups.newGroup row)) }

/-- One row per group. -/
def table (groups : Groups) : Except Fault Table := do
  let cells := groups.found.toList.map fun group =>
    group.keyCells ++ group.accumulators.map Accumulator.result
  let rows ← Table.rowsOfCells groups.names cells
  Table.inferred groups.names rows

end Groups

namespace Table

/-- The summaries of a table's groups. -/
def groupBy (table : Table) (grouping : Grouping) : Except Fault Table := do
  let groups ← Groups.bind grouping table.names
  (table.rows.foldl Groups.add groups).table

end Table

end Medals
