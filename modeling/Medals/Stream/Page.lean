import Medals.Stream.Pipeline
import Medals.Stream.Ranking
import Medals.Table.Sort

/-!
# Pages

A page is a window of the rows that pass a filter, taken in the order in which they come or in the
order of a key. Every match is counted, whatever the window; only the rows of the page, or for a
sorted page as many as its window reaches, are held.
-/

namespace Medals

/-- A window of a sequence. -/
structure Window where
  offset : Nat
  limit : Nat
deriving DecidableEq, Repr, Inhabited

namespace Window

/-- The window of a page; pages are numbered from one, and page zero is the first page as well.
Offsets beyond the greatest count stay there. -/
def ofPage (number size : Nat) : Window :=
  ⟨min ((max number 1 - 1) * size) maxCount, size⟩

/-- The whole sequence. -/
def all : Window := ⟨0, maxCount⟩

/-- Where the window ends, at most the greatest count. -/
def stop (window : Window) : Nat :=
  min (window.offset + window.limit) maxCount

/-- The position lies in the window. -/
def holds (window : Window) (index : Nat) : Bool :=
  decide (window.offset ≤ index) && decide (index < window.stop)

end Window

/-- The rows of a window, and what was counted on the way. -/
structure Page where
  names : List String
  rows : List Row
  /-- Rows that passed the filter. -/
  total : Nat
  /-- Rows pulled from the source. -/
  scanned : Nat

/-- A page in the making. -/
structure PageState where
  /-- The rows of the page so far, last one first. -/
  rows : List Row
  /-- The position of the next match. -/
  index : Nat
deriving Inhabited

/-- Take one match into account. -/
def PageState.add (window : Window) (projection : Option Projection) (state : PageState)
    (row : Row) : PageState :=
  ⟨if window.holds state.index then Projection.applyOptional projection row :: state.rows
    else state.rows, state.index + 1⟩

namespace Pipeline

/-- What the top stage has counted. -/
def topCounts (pipeline : Pipeline) : Nat × Nat :=
  match pipeline.stages.getLast? with
  | some stage => (stage.scanned, stage.matched)
  | none => (0, 0)

/-- Lay a filter on top, fold the rows that pass it, take it off again, and tell what it counted
as well as the layout of the projected rows. -/
def foldMatches {α : Type} (pipeline : Pipeline) (filter : Filter)
    (columns : Option (List String)) (step : Option Projection → α → Row → α) (state : α) :
    Except Fault (α × List String × Nat × Nat) × Pipeline :=
  match pipeline.addStage filter none, Projection.bindOptional pipeline.names columns with
  | .error fault, _ => (.error fault, pipeline)
  | .ok _, .error fault => (.error fault, pipeline)
  | .ok filtered, .ok projection =>
    match filtered.fold (step projection) state with
    | (.error fault, after) => (.error fault, after.dropStage)
    | (.ok state, after) =>
      (.ok (state, Projection.optionalNames projection pipeline.names, after.topCounts),
        after.dropStage)

/-- The page of the rows that pass the filter, in the order in which they come. -/
def page (pipeline : Pipeline) (filter : Filter) (columns : Option (List String))
    (window : Window) : Except Fault Page × Pipeline :=
  match pipeline.foldMatches filter columns (PageState.add window) ⟨[], 0⟩ with
  | (.error fault, after) => (.error fault, after)
  | (.ok (state, names, scanned, matched), after) =>
    (.ok ⟨names, state.rows.reverse, matched, scanned⟩, after)

/-- The page of the rows that pass the filter, in the order of a key. -/
def sortedPage (pipeline : Pipeline) (filter : Filter) (columns : Option (List String))
    (key : SortKey) (window : Window) : Except Fault Page × Pipeline :=
  match requirePosition pipeline.names key.column with
  | .error fault => (.error fault, pipeline)
  | .ok index =>
    let add (projection : Option Projection) (ranking : Ranking Row) (row : Row) : Ranking Row :=
      ranking.push (row.cellAt index) (Projection.applyOptional projection row)
    match pipeline.foldMatches filter columns add (Ranking.start window.stop key.descending) with
    | (.error fault, after) => (.error fault, after)
    | (.ok (ranking, names, scanned, matched), after) =>
      (.ok ⟨names, ranking.best.drop window.offset, matched, scanned⟩, after)

end Pipeline

end Medals
