import Std.Data.HashMap
import Medals.Cell.Key
import Medals.Table.Basic

/-!
# Joins

Two tables are joined on equal keys of the named columns. The smaller operand of an inner join is
indexed by its keys and the other one probed row by row; the result lists left rows in their order
and, for each, its partners in theirs. A row with a missing cell among its key columns has no
partner.
-/

namespace Medals

/-- What becomes of left rows without a partner. -/
inductive JoinKind where
  /-- They are dropped. -/
  | inner
  /-- They are kept, with missing cells for the right columns. -/
  | left
deriving DecidableEq, Repr, Inhabited

structure JoinOptions where
  kind : JoinKind
  /-- Appended to the names of right columns that are also names of left columns; without it these
  columns are dropped. -/
  rightSuffix : Option String
deriving DecidableEq, Repr, Inhabited

namespace JoinOptions

def inner : JoinOptions := ⟨.inner, none⟩

def left : JoinOptions := ⟨.left, none⟩

end JoinOptions

namespace Join

/-- The positions of the key columns of one operand; the first that is not there is the fault. -/
def keyPositions (names : List String) (side : JoinSide) : List String → Except Fault (List Nat)
  | [] => .ok []
  | name :: rest =>
    match position? names name with
    | none => .error (.joinKeyMissing name side)
    | some index =>
      match keyPositions names side rest with
      | .error fault => .error fault
      | .ok positions => .ok (index :: positions)

/-- A right column that the result keeps, under the name it has there. -/
structure RetainedColumn where
  position : Nat
  column : Column
deriving DecidableEq, Repr

/-- Go through the right columns with their positions, given the names of the result so far. Key
columns are left out; the name of a kept column must be new. -/
def retain (options : JoinOptions) (keys : List Nat) (names : List String) :
    List (Column × Nat) → Except Fault (List RetainedColumn)
  | [] => .ok []
  | (column, index) :: rest =>
    if keys.contains index then retain options keys names rest
    else
      let renamed? := if names.contains column.name
        then options.rightSuffix.map (column.name ++ ·) else some column.name
      match renamed? with
      | none => retain options keys names rest
      | some name =>
        if names.contains name then .error (.columnExists name)
        else
          match retain options keys (names ++ [name]) rest with
          | .error fault => .error fault
          | .ok retained =>
            .ok (⟨index, ⟨name, column.kind, column.nullable || options.kind == .left⟩⟩ :: retained)

/-- The keys of a row's cells at some positions, if none of them is missing. -/
def rowKey? (positions : List Nat) (row : Row) : Option (List CellKey) :=
  let keys := positions.map fun index => (row.cellAt index).key
  if keys.any CellKey.isMissing then none else some keys

/-- A row with its place in its table. -/
abbrev Placed := Nat × Row

/-- The rows of a table with their places. -/
def placed (rows : List Row) : List Placed :=
  rows.zipIdx.map fun (row, index) => (index, row)

/-- Rows by key, those of one key in their order. -/
abbrev Index := Std.HashMap (List CellKey) (Array Placed)

/-- File a row under its key. -/
def file (positions : List Nat) (index : Index) (row : Placed) : Index :=
  match rowKey? positions row.2 with
  | some key => index.insert key ((index.getD key #[]).push row)
  | none => index

/-- The index of rows by the cells at some positions. -/
def buildIndex (positions : List Nat) (rows : List Row) : Index :=
  (placed rows).foldl (file positions) ∅

/-- The indexed rows of the key of a row. -/
def partners (index : Index) (positions : List Nat) (row : Row) : List Placed :=
  match rowKey? positions row with
  | some key => (index.getD key #[]).toList
  | none => []

/-- A left row and its partner, if it has one. -/
abbrev Pair := Placed × Option Placed

/-- The places of a pair in the two tables. -/
def places (pair : Pair) : Nat × Option Nat :=
  (pair.1.1, pair.2.map Prod.fst)

/-- Pairs in the order of their left rows, those of one left row in the order of their right
rows. -/
def inPlace (first second : Pair) : Bool :=
  first.1.1 < second.1.1 ||
    (first.1.1 == second.1.1 &&
      match first.2, second.2 with
      | none, _ => true
      | some _, none => false
      | some one, some other => one.1 ≤ other.1)

/-- Probe an index of the left rows with each right row, and put the pairs in order. -/
def pairsByRight (leftKeys rightKeys : List Nat) (left right : List Row) : List Pair :=
  let index := buildIndex leftKeys left
  let pairs := (placed right).flatMap fun row =>
    (partners index rightKeys row.2).map fun partner => (partner, some row)
  pairs.mergeSort inPlace

/-- Probe an index of the right rows with each left row. -/
def pairsByLeft (kind : JoinKind) (leftKeys rightKeys : List Nat) (left right : List Row) :
    List Pair :=
  let index := buildIndex rightKeys right
  (placed left).flatMap fun row =>
    match partners index leftKeys row.2 with
    | [] => if kind = .left then [(row, none)] else []
    | found => found.map fun partner => (row, some partner)

/-- The pairs of a join in the order of the result. -/
def pairs (kind : JoinKind) (leftKeys rightKeys : List Nat) (left right : List Row) : List Pair :=
  if kind = .inner ∧ left.length < right.length then pairsByRight leftKeys rightKeys left right
  else pairsByLeft kind leftKeys rightKeys left right

/-- The cells of a pair: those of the left row, then the kept ones of the right row. -/
def cellsOfPair (retained : List RetainedColumn) (pair : Pair) : List Cell :=
  pair.1.2.cells ++ retained.map fun kept =>
    match pair.2 with
    | some partner => partner.2.cellAt kept.position
    | none => .missing

end Join

namespace Table

/-- Join two tables on equal keys of the named columns. -/
def join (left right : Table) (on : List String) (options : JoinOptions) : Except Fault Table := do
  let leftKeys ← Join.keyPositions left.names .left on
  let rightKeys ← Join.keyPositions right.names .right on
  let retained ← Join.retain options rightKeys left.names right.schema.columns.zipIdx
  let schema : Schema := ⟨left.schema.columns ++ retained.map Join.RetainedColumn.column⟩
  let pairs := Join.pairs options.kind leftKeys rightKeys left.rows right.rows
  let rows ← rowsOfCells schema.names (pairs.map (Join.cellsOfPair retained))
  ofRows schema rows

end Table

end Medals
