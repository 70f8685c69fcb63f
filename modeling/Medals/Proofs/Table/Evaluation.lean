import Medals.Proofs.Table.Refusals

/-!
# Filters looked up by name

A filter can be bound to a layout, or be evaluated on one row by looking up a column after the
other. `Filter.eval_agrees_with_bind` says how far the two agree: a filter that binds to the layout
of a row gives the same answer, and one that is refused for a column fails for the same column,
unless a condition in front of it is false, at which the evaluation stops.
-/

namespace Medals

namespace Condition

/-- The row's cell under the column of the condition passes it. -/
def Holds (condition : Condition) (row : Row) : Prop :=
  condition.test.accepts (row.under condition.column) = true

instance (condition : Condition) (row : Row) : Decidable (condition.Holds row) :=
  inferInstanceAs (Decidable (_ = true))

end Condition

namespace Row

/-- A column that the row has is found under its name. -/
theorem get_of_mem {row : Row} {name : String} (listed : name ∈ row.names) :
    row.get name = .ok (row.under name) := by
  obtain ⟨index, found⟩ := exists_position?_iff.mpr listed
  rw [under_eq_cellAt found, get, position?, found]

theorem get_of_not_mem {row : Row} {name : String} (lacking : name ∉ row.names) :
    row.get name = .error (.unknownColumn name) := by
  have unfound : Medals.position? row.names name = none := by
    simpa [← position?_isSome] using lacking
  rw [get, position?, unfound]

end Row

namespace Filter

variable {row : Row} {front : List Condition}

theorem evalConditions_cons {condition : Condition} (listed : condition.column ∈ row.names)
    (rest : List Condition) :
    evalConditions row (condition :: rest) =
      if condition.Holds row then evalConditions row rest else .ok false := by
  rw [evalConditions, Row.get_of_mem listed]
  rfl

/-- Conditions on columns of the row are tested up to the first that is false. -/
theorem evalConditions_append (known : ∀ earlier ∈ front, earlier.column ∈ row.names)
    (rest : List Condition) :
    evalConditions row (front ++ rest) =
      if ∀ earlier ∈ front, earlier.Holds row then evalConditions row rest else .ok false := by
  induction front with
  | nil => simp
  | cons condition others ih =>
    obtain ⟨first, later⟩ := List.forall_mem_cons.mp known
    rw [List.cons_append, evalConditions_cons first]
    by_cases passes : condition.Holds row
    · have remaining : (∀ earlier ∈ condition :: others, earlier.Holds row) ↔
          ∀ earlier ∈ others, earlier.Holds row := by
        rw [List.forall_mem_cons, and_iff_right passes]
      rw [if_pos passes, ih later]
      exact if_congr remaining.symm rfl rfl
    · rw [if_neg passes, if_neg]
      exact fun all => passes (all condition List.mem_cons_self)

/-- An evaluation that gets as far as a column that the row lacks fails for it. -/
theorem evalConditions_of_lacking (known : ∀ earlier ∈ front, earlier.column ∈ row.names)
    {condition : Condition} (lacking : condition.column ∉ row.names) (back : List Condition) :
    evalConditions row (front ++ condition :: back) =
      if ∀ earlier ∈ front, earlier.Holds row then .error (.unknownColumn condition.column)
      else .ok false := by
  rw [evalConditions_append known, evalConditions, Row.get_of_not_mem lacking]

/-- A filter is refused for the first of its conditions whose column the layout lacks. -/
theorem bind_eq_error_iff {filter : Filter} {layout : List String} {fault : Fault} :
    filter.bind layout = .error fault ↔ ∃ front condition back,
      filter.conditions = front ++ condition :: back ∧
        (∀ earlier ∈ front, earlier.column ∈ layout) ∧ condition.column ∉ layout ∧
        fault = .unknownColumn condition.column := by
  rw [← fault?_eq_some_iff, fault?_bind, columns, missingColumn?_map_eq_some_iff]

/-- A filter that binds to the layout of a row is evaluated on it to the answer of the bound filter.
One that is refused for its first unknown column fails for this column too, except that it is false
of the row if a condition before that column is false. No evaluation fails otherwise. -/
theorem eval_agrees_with_bind (filter : Filter) (row : Row) :
    (match filter.bind row.names with
      | .ok bound => filter.eval row = .ok (bound.accepts row)
      | .error fault => ∃ front condition back,
          filter.conditions = front ++ condition :: back ∧
          (∀ earlier ∈ front, earlier.column ∈ row.names) ∧ condition.column ∉ row.names ∧
          fault = .unknownColumn condition.column ∧
          (filter.eval row = .error fault ∨ filter.eval row = .ok false) ∧
          (filter.eval row = .ok false ↔ ∃ earlier ∈ front, ¬ earlier.Holds row)) ∧
      ∀ fault, filter.eval row = .error fault → filter.bind row.names = .error fault := by
  cases binds : filter.bind row.names with
  | ok bound =>
    have evaluated := eval_eq_accepts binds
    refine ⟨evaluated, fun fault failed => ?_⟩
    rw [evaluated] at failed
    cases failed
  | error fault =>
    obtain ⟨front, condition, back, split, known, lacking, rfl⟩ := bind_eq_error_iff.mp binds
    have evaluated : filter.eval row =
        if ∀ earlier ∈ front, earlier.Holds row then .error (.unknownColumn condition.column)
        else .ok false := by
      rw [eval, split, evalConditions_of_lacking known lacking]
    by_cases reached : ∀ earlier ∈ front, earlier.Holds row
    · rw [if_pos reached] at evaluated
      have none : ¬ ∃ earlier ∈ front, ¬ earlier.Holds row := by simpa using reached
      refine ⟨⟨front, condition, back, split, known, lacking, rfl, .inl evaluated, ?_⟩, ?_⟩
      · simp only [evaluated, none, reduceCtorEq]
      · rintro other failed
        exact congrArg Except.error (Except.error.inj (evaluated.symm.trans failed))
    · rw [if_neg reached] at evaluated
      have stopped : ∃ earlier ∈ front, ¬ earlier.Holds row := by simpa using reached
      refine ⟨⟨front, condition, back, split, known, lacking, rfl, .inr evaluated, ?_⟩, ?_⟩
      · simp only [evaluated, stopped]
      · rintro other failed
        rw [evaluated] at failed
        cases failed

/-- The first column of a repeated name decides, and a false condition hides the unknown column. -/
example :
    let row : Row := ⟨["NOC", "NOC"], [.missing, .text "GER"], rfl⟩
    let filter : Filter := ⟨[.present "NOC", .present "Year"]⟩
    filter.bind row.names = .error (.unknownColumn "Year") ∧ filter.eval row = .ok false := by
  decide

end Filter

end Medals
