import Mathlib

/-!
# Elements by key

The elements of a list fall into one class for each key among them. `distinctKeys` lists the keys
in the order of their first elements and `ofKey` the class of a key; `flatMap_ofKey_perm` is that
the classes hold every element exactly once.
-/

namespace Medals

variable {α : Type}

theorem getElem?_concat_eq_some {elements : List α} {last element : α} {place : Nat} :
    (elements ++ [last])[place]? = some element ↔
      elements[place]? = some element ∨ elements.length = place ∧ last = element := by
  rcases Nat.lt_trichotomy place elements.length with before | rfl | beyond
  · simp [List.getElem?_append_left before, Nat.ne_of_gt before]
  · simp
  · rw [List.getElem?_eq_none (by simp; omega), List.getElem?_eq_none (by omega)]
    simp [Nat.ne_of_lt beyond]

variable {κ : Type} [DecidableEq κ]

/-- The keys of elements, each once, in the order of their first elements. -/
def distinctKeys (keyOf : α → κ) (elements : List α) : List κ :=
  (elements.map keyOf).eraseDups

/-- The elements of a key, in their order. -/
def ofKey (keyOf : α → κ) (elements : List α) (key : κ) : List α :=
  elements.filter fun element => keyOf element = key

variable {keyOf : α → κ} {elements : List α}

@[simp] theorem mem_distinctKeys {key : κ} :
    key ∈ distinctKeys keyOf elements ↔ ∃ element ∈ elements, keyOf element = key := by
  simp [distinctKeys, List.mem_eraseDups]

@[simp] theorem mem_ofKey {key : κ} {element : α} :
    element ∈ ofKey keyOf elements key ↔ element ∈ elements ∧ keyOf element = key := by
  simp [ofKey]

theorem distinctKeys_congr {other : α → κ}
    (same : ∀ element ∈ elements, keyOf element = other element) :
    distinctKeys keyOf elements = distinctKeys other elements := by
  rw [distinctKeys, List.map_congr_left same, distinctKeys]

theorem ofKey_congr {other : α → κ} (same : ∀ element ∈ elements, keyOf element = other element)
    (key : κ) : ofKey keyOf elements key = ofKey other elements key :=
  List.filter_congr fun element member => by rw [same element member]

theorem ofKey_ne_nil {key : κ} (listed : key ∈ distinctKeys keyOf elements) :
    ofKey keyOf elements key ≠ [] := by
  obtain ⟨element, member, same⟩ := mem_distinctKeys.mp listed
  exact List.ne_nil_of_mem (mem_ofKey.mpr ⟨member, same⟩)

theorem ofKey_eq_nil {key : κ} (unlisted : key ∉ distinctKeys keyOf elements) :
    ofKey keyOf elements key = [] := by
  apply List.eq_nil_iff_forall_not_mem.mpr
  intro element member
  obtain ⟨listed, same⟩ := mem_ofKey.mp member
  exact unlisted (mem_distinctKeys.mpr ⟨element, listed, same⟩)

theorem distinctKeys_concat_of_mem {last : α} (known : keyOf last ∈ distinctKeys keyOf elements) :
    distinctKeys keyOf (elements ++ [last]) = distinctKeys keyOf elements := by
  have listed : keyOf last ∈ elements.map keyOf := List.mem_eraseDups.mp known
  have removed : [keyOf last].removeAll (elements.map keyOf) = [] := by
    rw [List.removeAll, List.filter_eq_nil_iff]
    simpa using listed
  rw [distinctKeys, List.map_append, List.map_singleton, List.eraseDups_append, removed,
    List.eraseDups_nil, List.append_nil, distinctKeys]

theorem distinctKeys_concat_of_not_mem {last : α}
    (new : keyOf last ∉ distinctKeys keyOf elements) :
    distinctKeys keyOf (elements ++ [last]) = distinctKeys keyOf elements ++ [keyOf last] := by
  have unlisted : keyOf last ∉ elements.map keyOf := fun listed =>
    new (List.mem_eraseDups.mpr listed)
  have kept : [keyOf last].removeAll (elements.map keyOf) = [keyOf last] := by
    rw [List.removeAll, List.filter_eq_self]
    simpa using unlisted
  rw [distinctKeys, List.map_append, List.map_singleton, List.eraseDups_append, kept, distinctKeys]
  rfl

theorem ofKey_concat (last : α) (key : κ) :
    ofKey keyOf (elements ++ [last]) key =
      ofKey keyOf elements key ++ if keyOf last = key then [last] else [] := by
  rw [ofKey, List.filter_append, ofKey]
  by_cases same : keyOf last = key <;> simp [same]

theorem nodup_distinctKeys : (distinctKeys keyOf elements).Nodup := by
  induction elements using List.reverseRecOn with
  | nil => simp [distinctKeys]
  | append_singleton elements last ih =>
    by_cases known : keyOf last ∈ distinctKeys keyOf elements
    · rwa [distinctKeys_concat_of_mem known]
    · rw [distinctKeys_concat_of_not_mem known]
      exact List.nodup_append.mpr ⟨ih, by simp, fun key listed other last => by
        rw [List.mem_singleton.mp last]
        rintro rfl
        exact known listed⟩

/-- Elements in another order have the same keys in another order. -/
theorem distinctKeys_perm {others : List α} (perm : elements.Perm others) :
    (distinctKeys keyOf elements).Perm (distinctKeys keyOf others) := by
  rw [List.perm_ext_iff_of_nodup nodup_distinctKeys nodup_distinctKeys]
  intro key
  simp only [mem_distinctKeys, perm.mem_iff]

section Wrapped

variable {κ' : Type} [DecidableEq κ'] {wrap : κ → κ'}

/-- Keys that are told apart after wrapping are listed alike. -/
theorem distinctKeys_wrap (injective : Function.Injective wrap) :
    distinctKeys (fun element => wrap (keyOf element)) elements =
      (distinctKeys keyOf elements).map wrap := by
  induction elements using List.reverseRecOn with
  | nil => simp [distinctKeys]
  | append_singleton elements last ih =>
    have listed : wrap (keyOf last) ∈
        distinctKeys (fun element => wrap (keyOf element)) elements ↔
          keyOf last ∈ distinctKeys keyOf elements := by
      rw [ih, List.mem_map_of_injective injective]
    by_cases known : keyOf last ∈ distinctKeys keyOf elements
    · rw [distinctKeys_concat_of_mem known, ← ih]
      exact distinctKeys_concat_of_mem (listed.mpr known)
    · rw [distinctKeys_concat_of_not_mem known, List.map_append, ← ih]
      exact distinctKeys_concat_of_not_mem (mt listed.mp known)

theorem ofKey_wrap (injective : Function.Injective wrap) (key : κ) :
    ofKey (fun element => wrap (keyOf element)) elements (wrap key) = ofKey keyOf elements key :=
  List.filter_congr fun element _ => by simp only [injective.eq_iff]

end Wrapped

theorem flatMap_ofKey_perm_of_nodup {keys : List κ} (nodup : keys.Nodup)
    (covers : ∀ element ∈ elements, keyOf element ∈ keys) :
    (keys.flatMap (ofKey keyOf elements)).Perm elements := by
  induction keys generalizing elements with
  | nil =>
    have empty : elements = [] := List.eq_nil_iff_forall_not_mem.mpr fun element member => by
      simpa using covers element member
    simp [empty]
  | cons key rest ih =>
    obtain ⟨new, others⟩ := List.nodup_cons.mp nodup
    let further := elements.filter fun element => !decide (keyOf element = key)
    have coversFurther : ∀ element ∈ further, keyOf element ∈ rest := by
      intro element member
      obtain ⟨listed, different⟩ := List.mem_filter.mp member
      exact (List.mem_cons.mp (covers element listed)).resolve_left (by simpa using different)
    have classes : rest.flatMap (ofKey keyOf elements) = rest.flatMap (ofKey keyOf further) := by
      rw [List.flatMap_def, List.flatMap_def]
      refine congrArg List.flatten (List.map_congr_left fun other later => ?_)
      rw [ofKey, ofKey, List.filter_filter]
      apply List.filter_congr
      intro element _
      by_cases same : keyOf element = other
      · have different : other ≠ key := fun equal => new (equal ▸ later)
        simp [same, different]
      · simp [same]
    rw [List.flatMap_cons, classes]
    exact ((ih others coversFurther).append_left _).trans (List.filter_append_perm _ elements)

/-- The classes of all keys hold every element exactly once. -/
theorem flatMap_ofKey_perm :
    ((distinctKeys keyOf elements).flatMap (ofKey keyOf elements)).Perm elements :=
  flatMap_ofKey_perm_of_nodup nodup_distinctKeys fun element member =>
    mem_distinctKeys.mpr ⟨element, member, rfl⟩

/-- What counts in the classes adds up to what counts among all elements. -/
theorem sum_countP_ofKey (counts : α → Bool) :
    ((distinctKeys keyOf elements).map fun key => (ofKey keyOf elements key).countP counts).sum =
      elements.countP counts := by
  rw [← (@flatMap_ofKey_perm _ _ _ keyOf elements).countP_eq, List.countP_flatMap]
  rfl

/-- The sizes of the classes add up to the number of elements. -/
theorem sum_length_ofKey :
    ((distinctKeys keyOf elements).map fun key => (ofKey keyOf elements key).length).sum =
      elements.length := by
  simpa using @sum_countP_ofKey _ _ _ keyOf elements fun _ => true

end Medals
