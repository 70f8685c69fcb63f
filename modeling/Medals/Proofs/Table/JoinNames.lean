import Medals.Proofs.Table.NestedLoop
import Medals.Proofs.Table.Refusals

/-!
# The columns of a join

By the rule for collisions a right column of a new name keeps it, and one that is called like a left
column is dropped, or renamed with the suffix if there is one (`JoinOptions.ruledNames`). A join goes
through the right columns in order and compares each with the names given so far, not with the left
names alone. `Table.names_join` says that it follows the rule all the same, unless a right column
comes after one that is renamed to its name.
-/

namespace Medals

namespace Row

variable {seen other names front back : List String}

theorem distinctNames_eq_ok_iff :
    distinctNames seen names = .ok () ↔ names.Nodup ∧ ∀ name ∈ names, name ∉ seen := by
  rw [← RowReader.firstRepeated?_eq_none_iff, ← Option.map_eq_none_iff (f := Fault.columnExists),
    ← Groups.fault?_distinctNames, fault?_eq_none_iff]
  exact ⟨fun accepted => ⟨(), accepted⟩, fun ⟨(), accepted⟩ => accepted⟩

theorem distinctNames_congr (same : ∀ name, name ∈ seen ↔ name ∈ other) :
    distinctNames seen names = distinctNames other names := by
  induction names generalizing seen other with
  | nil => rfl
  | cons name rest ih =>
    have further : ∀ one, one ∈ name :: seen ↔ one ∈ name :: other := fun one => by
      rw [List.mem_cons, List.mem_cons, same]
    simp only [distinctNames, List.contains_iff_mem, same name, ih further]

theorem distinctNames_cons (name : String) (names : List String) :
    distinctNames seen (name :: names) =
      if name ∈ seen then .error (.columnExists name)
      else distinctNames (seen ++ [name]) names := by
  have order : ∀ one, one ∈ name :: seen ↔ one ∈ seen ++ [name] := fun one => by simp [or_comm]
  simp only [distinctNames, List.contains_iff_mem, distinctNames_congr order]

/-- Behind names of which none comes again, further names must be new to them as well. -/
theorem distinctNames_append (distinct : distinctNames seen front = .ok ()) :
    distinctNames seen (front ++ back) = distinctNames (seen ++ front) back := by
  induction front generalizing seen with
  | nil => simp
  | cons name rest ih =>
    rw [distinctNames_cons] at distinct
    split at distinct
    · simp at distinct
    · next fresh =>
      rw [List.cons_append, distinctNames_cons, if_neg fresh, ih distinct, List.append_assoc,
        List.singleton_append]

end Row

namespace JoinOptions

/-- The name of a right column in the result: its own if no left column has it. Otherwise the column
is dropped without a suffix, and renamed with one. -/
def ruledName? (options : JoinOptions) (left : List String) (name : String) : Option String :=
  if name ∈ left then options.rightSuffix.map (name ++ ·) else some name

/-- The names that right columns have in the result; key columns are left out. -/
def keptNames (options : JoinOptions) (left on right : List String) : List String :=
  (right.filter (· ∉ on)).filterMap (options.ruledName? left)

/-- The names of the result: the left names, then those of the kept right columns. -/
def ruledNames (options : JoinOptions) (left on right : List String) : List String :=
  left ++ options.keptNames left on right

/-- No right column but one that is called like a left column comes after another that is given its
name. -/
def Apart (options : JoinOptions) (left on right : List String) : Prop :=
  (right.filter (· ∉ on)).Pairwise fun earlier later =>
    options.ruledName? left earlier = some later → later ∈ left

instance (options : JoinOptions) (left on right : List String) :
    Decidable (options.Apart left on right) :=
  inferInstanceAs (Decidable (List.Pairwise _ _))

variable {options : JoinOptions} {left on right other : List String} {name given : String}

theorem ruledName?_congr (same : name ∈ other ↔ name ∈ left) :
    options.ruledName? other name = options.ruledName? left name := by
  simp only [ruledName?, same]

theorem keptNames_cons_key (key : name ∈ on) :
    options.keptNames left on (name :: right) = options.keptNames left on right := by
  rw [keptNames, List.filter_cons_of_neg (by simpa using key), keptNames]

theorem keptNames_cons_dropped (other : name ∉ on) (dropped : options.ruledName? left name = none) :
    options.keptNames left on (name :: right) = options.keptNames left on right := by
  rw [keptNames, List.filter_cons_of_pos (by simpa using other), List.filterMap_cons_none dropped,
    keptNames]

theorem keptNames_cons_kept (other : name ∉ on)
    (kept : options.ruledName? left name = some given) :
    options.keptNames left on (name :: right) = given :: options.keptNames left on right := by
  rw [keptNames, List.filter_cons_of_pos (by simpa using other), List.filterMap_cons_some kept,
    keptNames]

theorem Apart.of_cons (apart : options.Apart left on (name :: right)) :
    options.Apart left on right :=
  List.Pairwise.sublist ((List.sublist_cons_self name right).filter _) apart

/-- The first column is not given the name of a later one that is no left column. -/
theorem Apart.head (apart : options.Apart left on (name :: right)) (noKey : name ∉ on)
    (kept : options.ruledName? left name = some given) (listed : given ∈ right)
    (unkeyed : given ∉ on) : given ∈ left := by
  unfold Apart at apart
  rw [List.filter_cons_of_pos (by simpa using noKey)] at apart
  exact (List.pairwise_cons.mp apart).1 given
    (List.mem_filter.mpr ⟨listed, by simpa using unkeyed⟩) kept

/-- Columns that are given distinct names are apart. -/
theorem apart_of_nodup (distinct : (options.ruledNames left on right).Nodup) :
    options.Apart left on right := by
  have given := (List.nodup_append.mp distinct).2.1
  refine (List.pairwise_filterMap.mp given).imp fun {earlier later} differ same => ?_
  by_contra new
  exact differ later same later (if_neg new) rfl

/-- Without a suffix distinct columns are always apart. -/
theorem apart_of_no_suffix (noSuffix : options.rightSuffix = none) (distinct : right.Nodup) :
    options.Apart left on right := by
  refine (distinct.filter _).imp fun {earlier later} differ same => ?_
  unfold ruledName? at same
  split at same
  · simp [noSuffix] at same
  · exact absurd (Option.some.inj same) differ

/-- The order of the right columns does not decide whether the names of the result are distinct. -/
theorem nodup_ruledNames_perm (perm : other.Perm right) :
    (options.ruledNames left on other).Nodup ↔ (options.ruledNames left on right).Nodup :=
  (((perm.filter _).filterMap _).append_left left).nodup_iff

end JoinOptions

namespace Join

variable {options : JoinOptions} {keys : List Nat} {left on names : List String} {column : Column}
  {index : Nat} {rest : List (Column × Nat)}

/-- The names of retained columns. -/
def namesOf (outcome : Except Fault (List RetainedColumn)) : Except Fault (List String) :=
  outcome.map (List.map fun kept => kept.column.name)

theorem retain_cons_key (key : index ∈ keys) :
    retain options keys names ((column, index) :: rest) = retain options keys names rest := by
  rw [retain, if_pos (by simpa using key)]

/-- A column is named by the rule for collisions with all names given so far. -/
theorem retain_cons_dropped (noKey : index ∉ keys)
    (dropped : options.ruledName? names column.name = none) :
    retain options keys names ((column, index) :: rest) = retain options keys names rest := by
  rw [retain, if_neg (by simpa using noKey)]
  simp only [List.contains_iff_mem]
  rw [← JoinOptions.ruledName?, dropped]

theorem namesOf_retain_cons {name : String} (noKey : index ∉ keys)
    (named : options.ruledName? names column.name = some name) :
    namesOf (retain options keys names ((column, index) :: rest)) =
      if name ∈ names then .error (.columnExists name)
      else (namesOf (retain options keys (names ++ [name]) rest)).map (name :: ·) := by
  rw [retain, if_neg (by simpa using noKey)]
  simp only [List.contains_iff_mem]
  rw [← JoinOptions.ruledName?, named]
  dsimp only
  split
  · rfl
  · cases retain options keys (names ++ [name]) rest <;> rfl

/-- Columns that are apart are given the names of the rule if these are new, and else refused for the
first that is not. The names given so far are those of left columns and of right columns before the
list, and meet none of the list's columns but such as are called like a left column. -/
theorem retain_of_apart {columns : List (Column × Nat)}
    (keyed : ∀ entry ∈ columns, entry.2 ∈ keys ↔ entry.1.name ∈ on)
    (known : ∀ name ∈ left, name ∈ names)
    (unmet : ∀ entry ∈ columns, entry.1.name ∉ on → entry.1.name ∈ names → entry.1.name ∈ left)
    (apart : options.Apart left on (columns.map fun entry => entry.1.name)) :
    namesOf (retain options keys names columns) =
      (Row.distinctNames names
        (options.keptNames left on (columns.map fun entry => entry.1.name))).map
          fun _ => options.keptNames left on (columns.map fun entry => entry.1.name) := by
  induction columns generalizing names with
  | nil => rfl
  | cons entry rest ih =>
    obtain ⟨column, index⟩ := entry
    obtain ⟨keyedHere, keyedRest⟩ := List.forall_mem_cons.mp keyed
    obtain ⟨unmetHere, unmetRest⟩ := List.forall_mem_cons.mp unmet
    rw [List.map_cons] at apart ⊢
    by_cases key : column.name ∈ on
    · rw [retain_cons_key (keyedHere.mpr key), JoinOptions.keptNames_cons_key key]
      exact ih keyedRest known unmetRest apart.of_cons
    · have noKey : index ∉ keys := fun member => key (keyedHere.mp member)
      have sameRule : options.ruledName? names column.name = options.ruledName? left column.name :=
        JoinOptions.ruledName?_congr ⟨unmetHere key, known column.name⟩
      cases named : options.ruledName? left column.name with
      | none =>
        rw [retain_cons_dropped noKey (sameRule.trans named),
          JoinOptions.keptNames_cons_dropped key named]
        exact ih keyedRest known unmetRest apart.of_cons
      | some name =>
        rw [namesOf_retain_cons noKey (sameRule.trans named),
          JoinOptions.keptNames_cons_kept key named, Row.distinctNames_cons]
        split
        · rfl
        · -- The name is met by later columns only if they are called like a left column.
          rw [ih keyedRest (fun one listed => List.mem_append_left _ (known one listed))
            (fun one listed unkeyed met => ?_) apart.of_cons]
          · cases Row.distinctNames (names ++ [name]) _ <;> rfl
          · rcases List.mem_append.mp met with before | last
            · exact unmetRest one listed unkeyed before
            · rw [← List.mem_singleton.mp last] at named
              exact apart.head key named (List.mem_map_of_mem listed) unkeyed

/-- Each retained column has a name that is new. -/
theorem nodup_of_retain {columns : List (Column × Nat)} {given : List String}
    (distinct : names.Nodup) (kept : namesOf (retain options keys names columns) = .ok given) :
    (names ++ given).Nodup := by
  induction columns generalizing names given with
  | nil =>
    obtain rfl := Except.ok.inj kept
    simpa using distinct
  | cons entry rest ih =>
    by_cases key : entry.2 ∈ keys
    · rw [retain_cons_key key] at kept
      exact ih distinct kept
    · cases named : options.ruledName? names entry.1.name with
      | none =>
        rw [retain_cons_dropped key named] at kept
        exact ih distinct kept
      | some name =>
        rw [namesOf_retain_cons key named] at kept
        split at kept
        · simp at kept
        · next new =>
          obtain ⟨further, others, rfl⟩ := map_eq_ok_iff.mp kept
          have longer : (names ++ [name]).Nodup := by
            rw [← List.concat_eq_append]
            exact distinct.concat new
          simpa using ih longer others

theorem retain_error {columns : List (Column × Nat)} {fault : Fault}
    (failed : namesOf (retain options keys names columns) = .error fault) :
    ∃ name, fault = .columnExists name := by
  induction columns generalizing names with
  | nil => simp [retain, namesOf, Except.map] at failed
  | cons entry rest ih =>
    by_cases key : entry.2 ∈ keys
    · rw [retain_cons_key key] at failed
      exact ih failed
    · cases named : options.ruledName? names entry.1.name with
      | none =>
        rw [retain_cons_dropped key named] at failed
        exact ih failed
      | some name =>
        rw [namesOf_retain_cons key named] at failed
        split at failed
        · exact ⟨name, (Except.error.inj failed).symm⟩
        · exact ih (map_eq_error_iff.mp failed)

end Join

namespace Table

variable {left right : Table} {on : List String} {leftKeys rightKeys : List Nat}
  {options : JoinOptions}

/-- Among distinct names the key columns are the only ones at the positions of the keys. -/
theorem key_iff_name_mem (distinct : right.names.Nodup)
    (resolved : Resolves right.names on rightKeys) {entry : Column × Nat}
    (member : entry ∈ right.schema.columns.zipIdx) :
    entry.2 ∈ rightKeys ↔ entry.1.name ∈ on := by
  refine ⟨name_mem_of_key resolved member, fun keyed => ?_⟩
  obtain ⟨index, key, found⟩ := resolved.exists_of_name_mem keyed
  obtain ⟨inside, same, -⟩ := List.findIdx?_eq_some_iff_getElem.mp found
  have here : right.names[entry.2]? = some entry.1.name := by
    simp [names, Schema.names, List.mem_zipIdx_iff_getElem?.mp member]
  obtain ⟨within, named⟩ := List.getElem?_eq_some_iff.mp here
  have again : right.names[index] = right.names[entry.2] := by simpa [named] using same
  exact (distinct.getElem_inj_iff.mp again) ▸ key

/-- A join whose keys are found is refused as the choice of its columns is. -/
theorem map_names_join (options : JoinOptions) (leftResolved : Resolves left.names on leftKeys)
    (rightResolved : Resolves right.names on rightKeys) :
    (left.join right on options).map names =
      (Join.namesOf (Join.retain options rightKeys left.names right.schema.columns.zipIdx)).map
        (left.names ++ ·) := by
  cases kept : Join.retain options rightKeys left.names right.schema.columns.zipIdx with
  | error fault =>
    simp [join, Join.keyPositions_eq_ok_iff.mpr leftResolved,
      Join.keyPositions_eq_ok_iff.mpr rightResolved, kept, bind, Except.bind, Except.map,
      Join.namesOf]
  | ok retained =>
    obtain ⟨joined, joins, schema, -⟩ := join_of_resolved leftResolved rightResolved kept
    simp [joins, Except.map, names, schema, joinedSchema, Schema.names, Join.namesOf]

/-- A join of columns that are apart has the names of the rule, and is refused for the first of them
that comes again. -/
theorem map_names_join_of_apart (leftDistinct : left.names.Nodup)
    (rightDistinct : right.names.Nodup) (leftResolved : Resolves left.names on leftKeys)
    (rightResolved : Resolves right.names on rightKeys)
    (apart : options.Apart left.names on right.names) :
    (left.join right on options).map names =
      (Row.distinctNames [] (options.ruledNames left.names on right.names)).map
        fun _ => options.ruledNames left.names on right.names := by
  have rightNames : right.schema.columns.zipIdx.map (fun entry => entry.1.name) = right.names := by
    have columns := congrArg (List.map Column.name) (List.zipIdx_map_fst 0 right.schema.columns)
    rwa [List.map_map] at columns
  have chosen := @Join.retain_of_apart options rightKeys left.names on left.names
    right.schema.columns.zipIdx
    (fun entry member => key_iff_name_mem rightDistinct rightResolved member)
    (fun name listed => listed) (fun entry _ _ met => met) (rightNames.symm ▸ apart)
  rw [rightNames] at chosen
  have front : Row.distinctNames [] left.names = .ok () :=
    Row.distinctNames_eq_ok_iff.mpr ⟨leftDistinct, by simp⟩
  rw [map_names_join options leftResolved rightResolved, chosen, JoinOptions.ruledNames,
    Row.distinctNames_append front, List.nil_append]
  cases Row.distinctNames left.names _ <;> rfl

/-- A join of columns that are apart succeeds exactly if the names of the rule are distinct. -/
theorem exists_join_iff_of_apart (leftDistinct : left.names.Nodup)
    (rightDistinct : right.names.Nodup) (leftResolved : Resolves left.names on leftKeys)
    (rightResolved : Resolves right.names on rightKeys)
    (apart : options.Apart left.names on right.names) :
    (∃ joined, left.join right on options = .ok joined) ↔
      (options.ruledNames left.names on right.names).Nodup := by
  rw [← fault?_eq_none_iff, ← fault?_map _ names,
    map_names_join_of_apart leftDistinct rightDistinct leftResolved rightResolved apart, fault?_map,
    Groups.fault?_distinctNames, Option.map_eq_none_iff, RowReader.firstRepeated?_eq_none_iff]
  simp

/-- A join keeps the names of the columns distinct. -/
theorem nodup_of_join {joined : Table} (distinct : left.names.Nodup)
    (joins : left.join right on options = .ok joined) : joined.names.Nodup := by
  obtain ⟨leftKeys, rightKeys, retained, leftResolved, rightResolved, kept⟩ :=
    resolved_of_join joins
  have same := map_names_join options leftResolved rightResolved
  rw [joins, kept] at same
  rw [Except.ok.inj same]
  exact Join.nodup_of_retain distinct (congrArg Join.namesOf kept)

theorem join_error {fault : Fault} (leftResolved : Resolves left.names on leftKeys)
    (rightResolved : Resolves right.names on rightKeys)
    (failed : left.join right on options = .error fault) : ∃ name, fault = .columnExists name := by
  have same := map_names_join options leftResolved rightResolved
  rw [failed] at same
  exact Join.retain_error (map_eq_error_iff.mp same.symm)

/-- A join on columns that both tables have succeeds whenever the names of the rule are distinct,
and has these names. When it fails they are not distinct, and the fault is that a column exists. The
converse holds if the right columns are apart, which they are without a suffix: then a join whose
names by the rule are not distinct is refused for the first of them that comes again, and so the
order of the right columns does not decide whether it succeeds. -/
theorem names_join (leftDistinct : left.names.Nodup) (rightDistinct : right.names.Nodup)
    (leftHeld : ∀ name ∈ on, name ∈ left.names) (rightHeld : ∀ name ∈ on, name ∈ right.names)
    (options : JoinOptions) :
    ((options.ruledNames left.names on right.names).Nodup →
      ∃ joined, left.join right on options = .ok joined ∧
        joined.names = options.ruledNames left.names on right.names) ∧
      (∀ fault, left.join right on options = .error fault →
        ¬ (options.ruledNames left.names on right.names).Nodup ∧
          ∃ name, fault = .columnExists name) ∧
      (options.Apart left.names on right.names →
        (left.join right on options).map names =
          (Row.distinctNames [] (options.ruledNames left.names on right.names)).map
            fun _ => options.ruledNames left.names on right.names) ∧
      (options.rightSuffix = none → options.Apart left.names on right.names) ∧
      ∀ other : Table, other.names.Perm right.names → options.Apart left.names on right.names →
        options.Apart left.names on other.names →
        ((∃ joined, left.join right on options = .ok joined) ↔
          ∃ joined, left.join other on options = .ok joined) := by
  obtain ⟨leftKeys, leftResolved⟩ := Resolves.exists_iff.mpr leftHeld
  obtain ⟨rightKeys, rightResolved⟩ := Resolves.exists_iff.mpr rightHeld
  have named : options.Apart left.names on right.names → _ :=
    map_names_join_of_apart leftDistinct rightDistinct leftResolved rightResolved
  have builds : (options.ruledNames left.names on right.names).Nodup →
      ∃ joined, left.join right on options = .ok joined ∧
        joined.names = options.ruledNames left.names on right.names := fun distinct => by
    have same := named (JoinOptions.apart_of_nodup distinct)
    rw [Row.distinctNames_eq_ok_iff.mpr ⟨distinct, by simp⟩] at same
    cases joins : left.join right on options with
    | error => simp [joins, Except.map] at same
    | ok joined => exact ⟨joined, rfl, by simpa [joins, Except.map] using same⟩
  refine ⟨builds, fun fault failed => ⟨fun distinct => ?_, ?_⟩, named,
    fun noSuffix => JoinOptions.apart_of_no_suffix noSuffix rightDistinct,
    fun other perm apart otherApart => ?_⟩
  · obtain ⟨joined, joins, -⟩ := builds distinct
    simp [failed] at joins
  · exact join_error leftResolved rightResolved failed
  · obtain ⟨otherKeys, otherResolved⟩ :=
      Resolves.exists_iff.mpr fun name key => perm.mem_iff.mpr (rightHeld name key)
    rw [exists_join_iff_of_apart leftDistinct rightDistinct leftResolved rightResolved apart,
      exists_join_iff_of_apart leftDistinct (perm.nodup_iff.mpr rightDistinct) leftResolved
        otherResolved otherApart, JoinOptions.nodup_ruledNames_perm perm]

/-- A left table with the columns `k` and `a`, and right columns with `a_r` before `a`: the rule
renames the latter to the former, and the join is refused for it. -/
theorem names_join_of_suffix :
    (empty ["k", "a"]).names.Nodup ∧ (empty ["k", "a_r", "a"]).names.Nodup ∧
      (∀ name ∈ ["k"], name ∈ (empty ["k", "a"]).names) ∧
      (∀ name ∈ ["k"], name ∈ (empty ["k", "a_r", "a"]).names) ∧
      (JoinOptions.mk .inner (some "_r")).Apart ["k", "a"] ["k"] ["k", "a_r", "a"] ∧
      ((empty ["k", "a"]).join (empty ["k", "a_r", "a"]) ["k"] ⟨.inner, some "_r"⟩).map names =
        .error (.columnExists "a_r") := by
  have leftDistinct : (empty ["k", "a"]).names.Nodup := by decide
  have rightDistinct : (empty ["k", "a_r", "a"]).names.Nodup := by decide
  have leftHeld : ∀ name ∈ ["k"], name ∈ (empty ["k", "a"]).names := by decide
  have rightHeld : ∀ name ∈ ["k"], name ∈ (empty ["k", "a_r", "a"]).names := by decide
  have apart : (JoinOptions.mk .inner (some "_r")).Apart ["k", "a"] ["k"] ["k", "a_r", "a"] := by
    decide
  obtain ⟨-, -, named, -⟩ :=
    names_join leftDistinct rightDistinct leftHeld rightHeld ⟨.inner, some "_r"⟩
  exact ⟨leftDistinct, rightDistinct, leftHeld, rightHeld, apart, (named apart).trans (by decide)⟩

/-- With the right columns the other way round `a` is given the name `a_r`, and the right column of
this name is renamed once more although the left table has no such column. -/
theorem names_join_not_ruled :
    ¬ ∀ (left right : Table) (on : List String) (options : JoinOptions),
      left.names.Nodup → right.names.Nodup → (∀ name ∈ on, name ∈ left.names) →
      (∀ name ∈ on, name ∈ right.names) →
      (∃ joined, left.join right on options = .ok joined) →
      (options.ruledNames left.names on right.names).Nodup := by
  intro ruled
  have joins : ((empty ["k", "a"]).join (empty ["k", "a", "a_r"]) ["k"] ⟨.inner, some "_r"⟩).map
      names = .ok ["k", "a", "a_r", "a_r_r"] := by decide +kernel
  cases joined : (empty ["k", "a"]).join (empty ["k", "a", "a_r"]) ["k"] ⟨.inner, some "_r"⟩ with
  | error => simp [joined, Except.map] at joins
  | ok table =>
    have distinct := ruled _ _ _ _ (by decide) (by decide) (by decide) (by decide)
      ⟨table, joined⟩
    exact absurd distinct (by decide)

end Table

end Medals
