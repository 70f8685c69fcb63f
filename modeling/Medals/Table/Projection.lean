import Medals.Table.Row

/-!
# Projections

A choice of columns, resolved to positions of one layout. Columns may be chosen in any order and
more than once.
-/

namespace Medals

/-- Positions of a layout with the names they are chosen under. -/
structure Projection where
  positions : List Nat
  names : List String
  width : positions.length = names.length
deriving Repr

namespace Projection

/-- Resolve names in order; the first unknown one is the fault. -/
def positionsOf (layout : List String) :
    (names : List String) → Except Fault { positions : List Nat // positions.length = names.length }
  | [] => .ok ⟨[], rfl⟩
  | name :: rest =>
    match requirePosition layout name with
    | .error fault => .error fault
    | .ok index =>
      match positionsOf layout rest with
      | .error fault => .error fault
      | .ok ⟨positions, width⟩ => .ok ⟨index :: positions, by simp [width]⟩

/-- The choice of the named columns of a layout. -/
def bind (layout names : List String) : Except Fault Projection :=
  (positionsOf layout names).map fun ⟨positions, width⟩ => ⟨positions, names, width⟩

/-- The chosen cells of a row. -/
def apply (projection : Projection) (row : Row) : Row :=
  row.pick projection.positions projection.names projection.width

/-- The choice of the named columns, or of the whole layout. -/
def bindOptional (layout : List String) : Option (List String) → Except Fault (Option Projection)
  | none => .ok none
  | some names => (bind layout names).map some

/-- The chosen cells, or all of them. -/
def applyOptional (projection? : Option Projection) (row : Row) : Row :=
  match projection? with
  | some projection => projection.apply row
  | none => row

/-- The names of the chosen columns, or of all of them. -/
def optionalNames (projection? : Option Projection) (layout : List String) : List String :=
  match projection? with
  | some projection => projection.names
  | none => layout

end Projection

end Medals
