import Medals.Cell.Basic

/-!
# The order of cells

Numbers come before texts and texts before missing cells. Two integers are compared exactly; an
integer and another number are compared as doubles, in the total order of bit patterns.
-/

namespace Medals

namespace Cell

/-- Compare two cells. -/
def order : Cell → Cell → Ordering
  | missing, missing => .eq
  | missing, _ => .gt
  | _, missing => .lt
  | integer left, integer right => compare left.toInt right.toInt
  | text left, text right => compare left right
  | text _, _ => .gt
  | _, text _ => .lt
  | integer left, number right => (Double.ofInt left.toInt).compareTotal right
  | number left, integer right => left.compareTotal (Double.ofInt right.toInt)
  | number left, number right => left.compareTotal right

/-- Compare two cells for sorting: missing cells are last in both directions. -/
def orderMissingLast (descending : Bool) (left right : Cell) : Ordering :=
  match left.isMissing, right.isMissing with
  | true, true => .eq
  | true, false => .gt
  | false, true => .lt
  | false, false => if descending then (order left right).swap else order left right

end Cell

end Medals
