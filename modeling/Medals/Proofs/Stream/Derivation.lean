import Medals.Proofs.Stream.Tracked

/-!
# Tables made from tables

`TableUse` lists the ways to make one more table out of rows, of a source, or of tables made before.
`TableUse.wellFormed_foldl` says that in every sequence of them all tables are well formed, and that
the tables made before are left as they are.
-/

namespace Medals

/-- A way to make a table. Operands are named by their places among the tables made so far. -/
inductive TableUse where
  | ofRows (names : List String) (rows : List Row)
  | empty (names : List String)
  | ofSource (pipeline : Pipeline)
  | addColumn (place : Nat) (name : String) (cellOf : Row → Cell)
  | project (place : Nat) (columns : List String)
  | filter (place : Nat) (wanted : Filter)
  | join (left right : Nat) (on : List String) (options : JoinOptions)
  | sortByKeys (place : Nat) (keys : List SortKey)
  | slice (place offset length : Nat)
  | groupBy (place : Nat) (grouping : Grouping)

namespace TableUse

/-- The outcome of the operation, if its operands are there. -/
def outcome? (tables : List Table) : TableUse → Option (Except Fault Table)
  | ofRows names rows => some (Table.inferred names rows)
  | empty names => some (.ok (Table.empty names))
  | ofSource pipeline => some pipeline.toTable.1
  | addColumn place name cellOf => tables[place]?.map fun table => table.addColumn name cellOf
  | project place columns => tables[place]?.map fun table => table.project columns
  | filter place wanted => tables[place]?.map fun table => table.filter wanted
  | join left right on options =>
    tables[left]?.bind fun first => tables[right]?.map fun second => first.join second on options
  | sortByKeys place keys => tables[place]?.map fun table => table.sortByKeys keys
  | slice place offset length => tables[place]?.map fun table => .ok (table.slice offset length)
  | groupBy place grouping => tables[place]?.map fun table => table.groupBy grouping

/-- Put the table that is made behind the others; an operation that fails makes none. -/
def extend (tables : List Table) (use : TableUse) : List Table :=
  match use.outcome? tables with
  | some (.ok table) => tables ++ [table]
  | _ => tables

variable {tables : List Table} {use : TableUse} {result : Table}

/-- What is made of well-formed tables is well formed. -/
theorem wellFormed_of_outcome? (whole : ∀ table ∈ tables, table.WellFormed)
    (made : use.outcome? tables = some (.ok result)) : result.WellFormed := by
  cases use with
  | ofRows names rows => exact Table.wellFormed_of_inferred (Option.some.inj made)
  | empty names =>
    obtain rfl := Except.ok.inj (Option.some.inj made)
    exact Table.wellFormed_empty names
  | ofSource pipeline => exact Pipeline.wellFormed_of_toTable (Option.some.inj made)
  | addColumn place name cellOf =>
    obtain ⟨table, found, added⟩ := Option.map_eq_some_iff.mp made
    exact (whole table (List.mem_of_getElem? found)).addColumn added
  | project place columns =>
    obtain ⟨table, found, projected⟩ := Option.map_eq_some_iff.mp made
    exact (whole table (List.mem_of_getElem? found)).project projected
  | filter place wanted =>
    obtain ⟨table, found, filtered⟩ := Option.map_eq_some_iff.mp made
    exact (whole table (List.mem_of_getElem? found)).filter filtered
  | join left right on options =>
    obtain ⟨first, firstFound, rest⟩ := Option.bind_eq_some_iff.mp made
    obtain ⟨second, secondFound, joined⟩ := Option.map_eq_some_iff.mp rest
    exact (whole first (List.mem_of_getElem? firstFound)).join
      (whole second (List.mem_of_getElem? secondFound)) joined
  | sortByKeys place keys =>
    obtain ⟨table, found, sorted⟩ := Option.map_eq_some_iff.mp made
    exact (whole table (List.mem_of_getElem? found)).sortByKeys sorted
  | slice place offset length =>
    obtain ⟨table, found, same⟩ := Option.map_eq_some_iff.mp made
    obtain rfl := Except.ok.inj same
    exact (whole table (List.mem_of_getElem? found)).slice offset length
  | groupBy place grouping =>
    obtain ⟨table, -, grouped⟩ := Option.map_eq_some_iff.mp made
    exact Table.wellFormed_of_groupBy grouped

/-- One use keeps the tables that there are, and all tables well formed. -/
theorem extend_step (tables : List Table) (use : TableUse) :
    tables <+: extend tables use ∧ ((∀ table ∈ tables, table.WellFormed) →
      ∀ table ∈ extend tables use, table.WellFormed) := by
  unfold extend
  split
  · next table made =>
    refine ⟨List.prefix_append tables [table], fun whole one member => ?_⟩
    rcases List.mem_append.mp member with before | last
    · exact whole one before
    · rw [List.mem_singleton.mp last]
      exact wellFormed_of_outcome? whole made
  · exact ⟨List.prefix_refl tables, id⟩

/-- However tables are made out of rows, sources and tables made before, all of them are well formed,
and no further use changes any of them. -/
theorem wellFormed_foldl (uses more : List TableUse) :
    let tables := uses.foldl extend []
    (∀ table ∈ tables, table.WellFormed) ∧ tables <+: more.foldl extend tables := by
  intro tables
  constructor
  · induction uses using List.reverseRecOn with
    | nil => simp [tables]
    | append_singleton uses use ih =>
      simp only [tables, List.foldl_concat]
      exact (extend_step _ use).2 ih
  · induction more using List.reverseRecOn with
    | nil => exact List.prefix_refl tables
    | append_singleton more use ih =>
      rw [List.foldl_concat]
      exact ih.trans (extend_step _ use).1

/-- Of these seven uses all succeed but the second last, which adds a column that is there. -/
example : ([ofRows ["NOC", "Year"] [⟨["NOC", "Year"], [.text "GER", .integer 2012], rfl⟩,
      ⟨["NOC", "Year"], [.text "XXX", .missing], rfl⟩], project 0 ["Year", "Year"],
    filter 0 ⟨[.present "Year"]⟩, sortByKeys 1 [⟨"Year", true⟩], slice 3 1 1,
    addColumn 4 "Year" fun _ => .missing, empty ["NOC"]].foldl extend []).length = 6 := by
  cbv

end TableUse

end Medals
