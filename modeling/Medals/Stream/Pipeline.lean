import Medals.Stream.Origin
import Medals.Table.Basic
import Medals.Table.Group

/-!
# Pipelines

A pipeline lays filter and projection stages over an origin. A pull takes rows from the origin until
one passes every stage; each stage counts the rows it looks at and the rows it lets through. Stages
are resolved against the layout below them when they are laid, before any row is pulled.
-/

namespace Medals

/-- One stage over the rows of those below it. -/
structure Stage where
  filter : BoundFilter
  projection : Option Projection
  /-- The layout of the rows it yields. -/
  names : List String
  scanned : Nat
  matched : Nat
deriving Inhabited

namespace Stage

/-- A stage over rows of a layout; the filter is resolved before the projection. -/
def bind (layout : List String) (filter : Filter) (columns : Option (List String)) :
    Except Fault Stage := do
  let bound ← filter.bind layout
  let projection ← Projection.bindOptional layout columns
  return ⟨bound, projection, Projection.optionalNames projection layout, 0, 0⟩

/-- Look at a row from below and let it through or not. -/
def offer (stage : Stage) (row : Row) : Option Row × Stage :=
  if stage.filter.accepts row then
    (some (Projection.applyOptional stage.projection row),
      { stage with scanned := stage.scanned + 1, matched := stage.matched + 1 })
  else (none, { stage with scanned := stage.scanned + 1 })

/-- Send a row up through stages, the lowest first. -/
def offerAll : List Stage → Row → Option Row × List Stage
  | [], row => (some row, [])
  | stage :: above, row =>
    match stage.offer row with
    | (none, stage) => (none, stage :: above)
    | (some row, stage) =>
      match offerAll above row with
      | (passed, above) => (passed, stage :: above)

end Stage

/-- An origin under stages, the lowest first. -/
structure Pipeline where
  origin : Origin
  stages : List Stage
deriving Inhabited

namespace Pipeline

/-- The bare origin. -/
def ofOrigin (origin : Origin) : Pipeline := ⟨origin, []⟩

/-- Rows in memory. -/
def ofRows (names : List String) (rows : List Row) : Pipeline :=
  ofOrigin (.memory names rows)

/-- The rows of a reader. -/
def ofReader (reader : RowReader) : Pipeline :=
  ofOrigin (.text reader)

/-- The layout of the rows it yields. -/
def names (pipeline : Pipeline) : List String :=
  match pipeline.stages.getLast? with
  | some stage => stage.names
  | none => pipeline.origin.names

/-- The tracked schema; a pipeline with stages has none. -/
def schema? (pipeline : Pipeline) : Option Schema :=
  if pipeline.stages.isEmpty then pipeline.origin.schema? else none

/-- Lay one more stage on top. -/
def addStage (pipeline : Pipeline) (filter : Filter) (columns : Option (List String)) :
    Except Fault Pipeline := do
  let stage ← Stage.bind pipeline.names filter columns
  return { pipeline with stages := pipeline.stages ++ [stage] }

/-- Take the top stage off. -/
def dropStage (pipeline : Pipeline) : Pipeline :=
  { pipeline with stages := pipeline.stages.dropLast }

/-- Pull the next row that passes every stage. -/
def next (pipeline : Pipeline) : Except Fault (Option Row) × Pipeline :=
  match _pulled : pipeline.origin.next with
  | (.error fault, origin) => (.error fault, { pipeline with origin })
  | (.ok none, origin) => (.ok none, { pipeline with origin })
  | (.ok (some row), origin) =>
    match Stage.offerAll pipeline.stages row with
    | (some row, stages) => (.ok (some row), ⟨origin, stages⟩)
    | (none, stages) => next ⟨origin, stages⟩
termination_by pipeline.origin.remaining
decreasing_by exact Origin.next_remaining_lt _pulled

theorem next_remaining_lt {pipeline after : Pipeline} {row : Row}
    (pulled : pipeline.next = (.ok (some row), after)) :
    after.origin.remaining < pipeline.origin.remaining := by
  fun_induction Pipeline.next pipeline with
  | case1 => simp at pulled
  | case2 => simp at pulled
  | case3 pipeline first origin found passed stages offered =>
    simp only [Prod.mk.injEq] at pulled
    rw [← pulled.2]
    exact Origin.next_remaining_lt found
  | case4 pipeline first origin found stages offered ih =>
    exact Nat.lt_trans (ih pulled) (Origin.next_remaining_lt found)

/-- Pull all rows and fold them; a fault ends the fold. -/
def fold {α : Type} (step : α → Row → α) (state : α) (pipeline : Pipeline) :
    Except Fault α × Pipeline :=
  match _pulled : pipeline.next with
  | (.error fault, after) => (.error fault, after)
  | (.ok none, after) => (.ok state, after)
  | (.ok (some row), after) => fold step (step state row) after
termination_by pipeline.origin.remaining
decreasing_by exact next_remaining_lt _pulled

/-- All rows, in order. -/
def collect (pipeline : Pipeline) : Except Fault (List Row) × Pipeline :=
  match pipeline.fold (fun rows row => row :: rows) [] with
  | (rows, after) => (rows.map List.reverse, after)

/-- The table of all rows. Its schema is the tracked one if there is one. -/
def toTable (pipeline : Pipeline) : Except Fault Table × Pipeline :=
  match pipeline.collect with
  | (.error fault, after) => (.error fault, after)
  | (.ok rows, after) =>
    match after.schema? with
    | some schema => (Table.ofRows schema rows, after)
    | none => (Table.inferred pipeline.names rows, after)

/-- The summaries of the groups of all rows, in one pass. -/
def groupBy (pipeline : Pipeline) (grouping : Grouping) : Except Fault Table × Pipeline :=
  match Groups.bind grouping pipeline.names with
  | .error fault => (.error fault, pipeline)
  | .ok groups =>
    match pipeline.fold Groups.add groups with
    | (.error fault, after) => (.error fault, after)
    | (.ok groups, after) => (groups.table, after)

end Pipeline

end Medals
