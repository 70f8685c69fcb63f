import Mathlib.Data.List.Forall2
import Medals.Fault

/-!
# Outcomes

An operation makes a value or fails with a fault. `fault?` is the fault alone, on which operations
agree that are refused for the same reasons. Column names, conditions, sort keys and aggregations
are resolved one after the other; `mapM_eq_ok_iff` and `fault?_mapM` say once what comes of that.
`Concur` says of two operations that they make values that are related or fail with the same fault.
-/

namespace Medals

variable {α β γ δ : Type} {outcome : Except Fault α} {fault : Fault}

theorem map_eq_ok_iff {f : α → β} {result : β} :
    outcome.map f = .ok result ↔ ∃ value, outcome = .ok value ∧ f value = result := by
  cases outcome <;> simp [Except.map]

theorem map_eq_error_iff {f : α → β} : outcome.map f = .error fault ↔ outcome = .error fault := by
  cases outcome <;> simp [Except.map]

/-- Two steps make what the second makes of the value of the first. -/
theorem bind_eq_ok_iff {next : α → Except Fault β} {result : β} :
    (outcome >>= next) = .ok result ↔
      ∃ value, outcome = .ok value ∧ next value = .ok result := by
  cases outcome <;> simp [Bind.bind, Except.bind]

/-- The fault of an outcome, if it is one. -/
def fault? {α : Type} : Except Fault α → Option Fault
  | .error fault => some fault
  | .ok _ => none

theorem fault?_map (outcome : Except Fault α) (f : α → β) :
    fault? (outcome.map f) = fault? outcome := by
  cases outcome <;> rfl

/-- Two steps are refused as the first one is, and otherwise as the second. -/
theorem fault?_bind {next : α → Except Fault β} {refusal? : Option Fault}
    (same : ∀ value, fault? (next value) = refusal?) :
    fault? (outcome >>= next) = (fault? outcome).or refusal? := by
  cases outcome with
  | error fault => rfl
  | ok value => exact same value

theorem fault?_eq_none_iff : fault? outcome = none ↔ ∃ value, outcome = .ok value := by
  cases outcome <;> simp [fault?]

theorem fault?_eq_some_iff : fault? outcome = some fault ↔ outcome = .error fault := by
  cases outcome <;> simp [fault?]

section Each

variable {make : α → Except Fault β} {sources : List α}

/-- Values are made of all elements when one is made of each. -/
theorem mapM_eq_ok_iff {results : List β} : sources.mapM make = .ok results ↔
    List.Forall₂ (fun source result => make source = .ok result) sources results := by
  induction sources generalizing results with
  | nil => simp [pure, Except.pure, eq_comm]
  | cons source rest ih =>
    simp [bind_eq_ok_iff, ih, List.forall₂_cons_left_iff, pure, Except.pure, @eq_comm _ results]

/-- The first element of which no value is made is the reason that there is none of all. -/
theorem fault?_mapM :
    fault? (sources.mapM make) = sources.findSome? fun source => fault? (make source) := by
  induction sources with
  | nil => rfl
  | cons source rest ih =>
    rw [List.mapM_cons, List.findSome?_cons, ← ih]
    cases make source with
    | error fault => rfl
    | ok result => cases rest.mapM make <;> rfl

theorem exists_mapM_iff : (∃ results, sources.mapM make = .ok results) ↔
    ∀ source ∈ sources, ∃ result, make source = .ok result := by
  simp only [← fault?_eq_none_iff, fault?_mapM, List.findSome?_eq_none_iff]

theorem mapM_error (failed : sources.mapM make = .error fault) :
    ∃ source ∈ sources, make source = .error fault := by
  rw [← fault?_eq_some_iff, fault?_mapM] at failed
  obtain ⟨source, member, cause⟩ := List.exists_of_findSome?_eq_some failed
  exact ⟨source, member, fault?_eq_some_iff.mp cause⟩

end Each

/-- Two outcomes are values that are related, or the same fault. -/
inductive Concur {α β : Type} (related : α → β → Prop) :
    Except Fault α → Except Fault β → Prop where
  | value {one : α} {other : β} (alike : related one other) : Concur related (.ok one) (.ok other)
  | fault (cause : Fault) : Concur related (.error cause) (.error cause)

namespace Concur

variable {related : α → β → Prop} {made : γ → δ → Prop}
  {one : Except Fault α} {other : Except Fault β}

/-- An outcome concurs with itself on the value that it has. -/
theorem self (outcome : Except Fault α) :
    Concur (fun value further => outcome = .ok value ∧ value = further) outcome outcome := by
  cases outcome with
  | ok value => exact .value ⟨rfl, rfl⟩
  | error cause => exact .fault cause

/-- Steps that concur on related values concur after outcomes that do. -/
theorem bind {next : α → Except Fault γ} {step : β → Except Fault δ}
    (concur : Concur related one other)
    (later : ∀ value further, related value further → Concur made (next value) (step further)) :
    Concur made (one >>= next) (other >>= step) := by
  cases concur with
  | value alike => exact later _ _ alike
  | fault cause => exact .fault cause

/-- Outcomes with the same faults and related values concur. -/
theorem of_fault? (faults : fault? one = fault? other)
    (values : ∀ value further, one = .ok value → other = .ok further → related value further) :
    Concur related one other := by
  cases one with
  | error cause =>
    obtain rfl := fault?_eq_some_iff.mp faults.symm
    exact .fault cause
  | ok value =>
    obtain ⟨further, rfl⟩ := fault?_eq_none_iff.mp faults.symm
    exact .value (values value further rfl rfl)

theorem fault?_eq (concur : Concur related one other) : fault? one = fault? other := by
  cases concur <;> rfl

/-- Values of outcomes that concur are related. -/
theorem related_of_ok {value : α} {further : β} (concur : Concur related one other)
    (found : one = .ok value) (again : other = .ok further) : related value further := by
  subst found again
  cases concur with
  | value alike => exact alike

theorem eq {outcome : Except Fault α} (concur : Concur Eq one outcome) : one = outcome := by
  cases concur with
  | value same => rw [same]
  | fault => rfl

end Concur

end Medals
