import Medals.Proofs.Table.Columns
import Medals.Table.Filter
import Medals.Table.Projection

/-!
# Filters and projections bound to a layout

A filter that can be bound to the layout of a row tests it as it does by name
(`Filter.eval_eq_accepts`). Binding a filter or a projection fails only on one of their own
columns, as `Filter.bind_error` and `Projection.bind_error` say.
-/

namespace Medals

theorem requirePosition_eq_ok_iff {names : List String} {name : String} {index : Nat} :
    requirePosition names name = .ok index ↔ position? names name = some index := by
  unfold requirePosition
  split <;> simp_all

theorem requirePosition_error {names : List String} {name : String} {fault : Fault}
    (failed : requirePosition names name = .error fault) : fault = .unknownColumn name := by
  unfold requirePosition at failed
  split at failed <;> simp_all

theorem exists_requirePosition_iff {names : List String} {name : String} :
    (∃ index, requirePosition names name = .ok index) ↔ name ∈ names := by
  simp only [requirePosition_eq_ok_iff, exists_position?_iff]

/-- Names that are required one after the other are resolved. -/
theorem mapM_requirePosition_eq_ok_iff {layout names : List String} {positions : List Nat} :
    names.mapM (requirePosition layout) = .ok positions ↔ Resolves layout names positions := by
  simp only [mapM_eq_ok_iff, requirePosition_eq_ok_iff, Resolves]

namespace Filter

theorem bindConditions_eq (layout : List String) (conditions : List Condition) :
    bindConditions layout conditions = conditions.mapM fun condition =>
      (requirePosition layout condition.column).map fun index => (index, condition.test) := by
  induction conditions with
  | nil => rfl
  | cons condition rest ih =>
    rw [bindConditions, List.mapM_cons, ← ih]
    cases requirePosition layout condition.column with
    | error => rfl
    | ok index => cases bindConditions layout rest <;> rfl

/-- Bound conditions are their tests, each with the position of its column. -/
theorem bindConditions_eq_ok_iff {layout : List String} {conditions : List Condition}
    {tests : List (Nat × Test)} : bindConditions layout conditions = .ok tests ↔
      List.Forall₂ (fun condition test => ∃ index,
        position? layout condition.column = some index ∧ (index, condition.test) = test)
        conditions tests := by
  simp only [bindConditions_eq, mapM_eq_ok_iff, map_eq_ok_iff, requirePosition_eq_ok_iff]

theorem evalConditions_of_bind {row : Row} {conditions : List Condition}
    {tests : List (Nat × Test)} (bound : bindConditions row.names conditions = .ok tests) :
    evalConditions row conditions =
      .ok (tests.all fun (index, test) => test.accepts (row.cellAt index)) := by
  rw [bindConditions_eq_ok_iff] at bound
  induction bound with
  | nil => rfl
  | @cons condition _ rest _ first _ ih =>
    obtain ⟨index, found, rfl⟩ := first
    have cell : row.get condition.column = .ok (row.cellAt index) := by
      simp [Row.get, Row.position?, found]
    rw [evalConditions, cell, ih, List.all_cons]
    cases accepted : condition.test.accepts (row.cellAt index) <;> simp [accepted]

/-- By name and by position a filter passes the same rows. -/
theorem eval_eq_accepts {filter : Filter} {row : Row} {bound : BoundFilter}
    (binds : filter.bind row.names = .ok bound) : filter.eval row = .ok (bound.accepts row) := by
  obtain ⟨tests, found, rfl⟩ := map_eq_ok_iff.mp binds
  exact evalConditions_of_bind found

theorem bindConditions_error {names : List String} {conditions : List Condition} {fault : Fault}
    (failed : bindConditions names conditions = .error fault) :
    ∃ condition ∈ conditions, fault = .unknownColumn condition.column := by
  rw [bindConditions_eq] at failed
  obtain ⟨condition, member, cause⟩ := mapM_error failed
  exact ⟨condition, member, requirePosition_error (map_eq_error_iff.mp cause)⟩

/-- Binding fails only on the column of a condition. -/
theorem bind_error {filter : Filter} {names : List String} {fault : Fault}
    (failed : filter.bind names = .error fault) :
    ∃ condition ∈ filter.conditions, fault = .unknownColumn condition.column :=
  bindConditions_error (map_eq_error_iff.mp failed)

theorem exists_bindConditions_iff {names : List String} {conditions : List Condition} :
    (∃ tests, bindConditions names conditions = .ok tests) ↔
      ∀ condition ∈ conditions, condition.column ∈ names := by
  simp [bindConditions_eq, exists_mapM_iff, map_eq_ok_iff, exists_requirePosition_iff]

/-- A filter can be bound exactly when the layout has the columns of its conditions. -/
theorem exists_bind_iff {filter : Filter} {names : List String} :
    (∃ bound, filter.bind names = .ok bound) ↔
      ∀ condition ∈ filter.conditions, condition.column ∈ names := by
  simp [← exists_bindConditions_iff, bind, map_eq_ok_iff]

theorem evalConditions_eq_true_iff {row : Row} {conditions : List Condition}
    (listed : ∀ condition ∈ conditions, condition.column ∈ row.names) :
    evalConditions row conditions = .ok true ↔
      ∀ condition ∈ conditions, condition.test.accepts (row.under condition.column) = true := by
  induction conditions with
  | nil => simp [evalConditions]
  | cons condition rest ih =>
    obtain ⟨first, others⟩ := List.forall_mem_cons.mp listed
    obtain ⟨index, found⟩ := exists_position?_iff.mpr first
    have cell : row.get condition.column = .ok (row.under condition.column) := by
      rw [Row.under_eq_cellAt found, Row.get, Row.position?, found]
    rw [List.forall_mem_cons, ← ih others, evalConditions, cell]
    cases accepted : condition.test.accepts (row.under condition.column) <;> simp [accepted]

/-- A bound filter accepts the rows whose cells pass the tests of all its conditions. -/
theorem accepts_iff {filter : Filter} {row : Row} {bound : BoundFilter}
    (binds : filter.bind row.names = .ok bound) :
    bound.accepts row = true ↔ ∀ condition ∈ filter.conditions,
      condition.test.accepts (row.under condition.column) = true := by
  rw [← evalConditions_eq_true_iff (exists_bind_iff.mp ⟨bound, binds⟩)]
  have evaluated := eval_eq_accepts binds
  rw [eval] at evaluated
  rw [evaluated, Except.ok.injEq]

end Filter

namespace Projection

theorem positionsOf_eq (layout names : List String) :
    (positionsOf layout names).map Subtype.val = names.mapM (requirePosition layout) := by
  induction names with
  | nil => rfl
  | cons name rest ih =>
    rw [positionsOf, List.mapM_cons, ← ih]
    cases requirePosition layout name with
    | error => rfl
    | ok index => cases positionsOf layout rest <;> rfl

/-- The positions of a choice are those of its names. -/
theorem map_positions_bind (layout names : List String) :
    (bind layout names).map positions = names.mapM (requirePosition layout) := by
  rw [← positionsOf_eq, bind]
  cases positionsOf layout names <;> rfl

/-- Binding fails only on a chosen column. -/
theorem bind_error {layout names : List String} {fault : Fault}
    (failed : bind layout names = .error fault) : ∃ name ∈ names, fault = .unknownColumn name := by
  have refused : names.mapM (requirePosition layout) = .error fault := by
    rw [← map_positions_bind, failed]
    rfl
  obtain ⟨name, member, cause⟩ := mapM_error refused
  exact ⟨name, member, requirePosition_error cause⟩

/-- Columns can be chosen exactly when the layout has all of them. -/
theorem exists_bind_iff {layout names : List String} :
    (∃ projection, bind layout names = .ok projection) ↔ ∀ name ∈ names, name ∈ layout := by
  rw [← fault?_eq_none_iff, ← fault?_map _ positions, map_positions_bind, fault?_eq_none_iff,
    exists_mapM_iff]
  simp only [exists_requirePosition_iff]

theorem resolves_of_bind {layout names : List String} {projection : Projection}
    (bound : bind layout names = .ok projection) :
    projection.names = names ∧ Resolves layout names projection.positions := by
  have required : names.mapM (requirePosition layout) = .ok projection.positions := by
    rw [← map_positions_bind, bound]
    rfl
  refine ⟨?_, mapM_requirePosition_eq_ok_iff.mp required⟩
  obtain ⟨_, -, rfl⟩ := map_eq_ok_iff.mp bound
  rfl

/-- The chosen cells are those under the chosen names. -/
theorem apply_eq_narrow {layout names : List String} {projection : Projection}
    (bound : bind layout names = .ok projection) {row : Row} (aligned : row.names = layout) :
    projection.apply row = row.narrow names := by
  obtain ⟨named, resolved⟩ := resolves_of_bind bound
  exact Row.ext_cells named (resolved.map_cellAt aligned)

/-- A chosen column keeps its cells. -/
theorem under_apply {layout names : List String} {projection : Projection}
    (bound : bind layout names = .ok projection) {row : Row} (aligned : row.names = layout)
    {name : String} (chosen : name ∈ names) :
    (projection.apply row).under name = row.under name := by
  rw [apply_eq_narrow bound aligned, Row.under_narrow chosen]

end Projection

end Medals
