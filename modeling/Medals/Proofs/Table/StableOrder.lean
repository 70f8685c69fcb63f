import Mathlib.Data.List.Sort

/-!
# Stable orders

`StableOrder` says what a stable sort has to deliver, without saying how. A total preorder leaves
exactly one such list (`StableOrder.unique`), so that sorting all at once
(`StableOrder.mergeSort`) and inserting late arrivals one by one (`StableOrder.insert`) agree.
-/

namespace Medals

variable {α : Type}

/-- Elements compared by something of theirs are in a total preorder with it. -/
theorem transCmp_on {β : Type} (compare : β → β → Ordering) [Std.TransCmp compare] (part : α → β) :
    Std.TransCmp fun left right => compare (part left) (part right) where
  eq_swap := Std.OrientedCmp.eq_swap
  isLE_trans := Std.TransCmp.isLE_trans

section Lexicographic

variable {κ : Type}

/-- Compare by several keys, the first that tells the elements apart deciding. -/
def lexicographic (compare : κ → α → α → Ordering) (keys : List κ) (left right : α) : Ordering :=
  keys.foldr (fun key rest => (compare key left right).then rest) .eq

theorem lexicographic_congr {compare other : κ → α → α → Ordering} {keys : List κ} {left right : α}
    (same : ∀ key ∈ keys, compare key left right = other key left right) :
    lexicographic compare keys left right = lexicographic other keys left right := by
  induction keys with
  | nil => rfl
  | cons key rest ih =>
    obtain ⟨first, others⟩ := List.forall_mem_cons.mp same
    exact congrArg₂ Ordering.then first (ih others)

instance transCmp_lexicographic (compare : κ → α → α → Ordering)
    [∀ key, Std.TransCmp (compare key)] (keys : List κ) :
    Std.TransCmp (lexicographic compare keys) := by
  induction keys with
  | nil => exact { eq_swap := rfl, isLE_trans := fun _ _ => rfl }
  | cons key rest ih =>
    exact inferInstanceAs (Std.TransCmp (compareLex (compare key) (lexicographic compare rest)))

end Lexicographic

/-- Sorting by merging depends on the order of the elements alone. -/
theorem mergeSort_congr {inOrder other : α → α → Bool} {source : List α}
    (agrees : ∀ first ∈ source, ∀ second ∈ source, inOrder first second = other first second) :
    source.mergeSort inOrder = source.mergeSort other := by
  have mapped := @List.map_mergeSort _ _ inOrder other id source agrees
  rwa [List.map_id, List.map_id] at mapped

/-- A list holds the elements of a source in the order of a comparison, and those that compare
equal are in the order of the source. -/
structure StableOrder (order : α → α → Ordering) (source sorted : List α) : Prop where
  perm : sorted.Perm source
  ordered : sorted.Pairwise fun first second => order first second ≠ .gt
  ties : ∀ element ∈ source,
    (sorted.filter fun other => order element other = .eq) =
      source.filter fun other => order element other = .eq

namespace StableOrder

variable {order : α → α → Ordering}

/-- Comparisons that agree on the elements have the same stable orders. -/
theorem congr {other : α → α → Ordering} {source sorted : List α}
    (stable : StableOrder order source sorted)
    (same : ∀ first ∈ source, ∀ second ∈ source, order first second = other first second) :
    StableOrder other source sorted where
  perm := stable.perm
  ordered := stable.ordered.imp_of_mem fun {first second} one two => by
    rw [same first (stable.perm.mem_iff.mp one) second (stable.perm.mem_iff.mp two)]
    exact id
  ties element member := by
    have tied := stable.ties element member
    have left : (sorted.filter fun third => order element third = .eq) =
        sorted.filter fun third => other element third = .eq :=
      List.filter_congr fun third listed => by
        rw [same element member third (stable.perm.mem_iff.mp listed)]
    have right : (source.filter fun third => order element third = .eq) =
        source.filter fun third => other element third = .eq :=
      List.filter_congr fun third listed => by rw [same element member third listed]
    rw [← left, ← right, tied]

/-- What is made of the elements is in a stable order by a comparison that the elements were in. -/
theorem map {β : Type} {made : β → β → Ordering} {make : α → β} {source sorted : List α}
    (stable : StableOrder (fun first second => made (make first) (make second)) source sorted) :
    StableOrder made (source.map make) (sorted.map make) where
  perm := stable.perm.map make
  ordered := List.pairwise_map.mpr stable.ordered
  ties element member := by
    obtain ⟨origin, listed, rfl⟩ := List.mem_map.mp member
    have tied := congrArg (List.map make) (stable.ties origin listed)
    rw [List.filter_map, List.filter_map]
    exact tied

/-- An ordered list is in a stable order of itself. -/
theorem of_ordered {source : List α}
    (ordered : source.Pairwise fun first second => order first second ≠ .gt) :
    StableOrder order source source where
  perm := .refl source
  ordered := ordered
  ties _ _ := rfl

/-- To order by a second comparison what is in a stable order by a first one is to order by both,
the second one deciding. -/
theorem refine {major : α → α → Ordering} [Std.ReflCmp major] {source middle sorted : List α}
    (inner : StableOrder order source middle) (outer : StableOrder major middle sorted) :
    StableOrder (fun first second => (major first second).then (order first second))
      source sorted where
  perm := outer.perm.trans inner.perm
  ordered := by
    rw [List.pairwise_iff_forall_sublist]
    intro first second listed
    have inOrder : major first second ≠ .gt :=
      List.pairwise_iff_forall_sublist.mp outer.ordered listed
    cases tied : major first second with
    | lt => simp
    | gt => exact absurd tied inOrder
    | eq =>
      -- Ties of the second comparison are where the first one has put them.
      have together : [first, second].Sublist middle := by
        have kept := listed.filter fun other => decide (major first other = .eq)
        rw [outer.ties first (outer.perm.mem_iff.mp (listed.subset List.mem_cons_self))] at kept
        simp only [List.filter_cons, Std.ReflCmp.compare_self, tied, decide_true, if_true,
          List.filter_nil] at kept
        exact kept.trans List.filter_sublist
      exact List.pairwise_iff_forall_sublist.mp inner.ordered together
  ties element member := by
    have middleMember : element ∈ middle := inner.perm.mem_iff.mpr member
    have both : ∀ others : List α,
        (others.filter fun other => (major element other).then (order element other) = .eq) =
          (others.filter fun other => major element other = .eq).filter
            fun other => order element other = .eq := by
      intro others
      rw [List.filter_filter]
      refine List.filter_congr fun other _ => ?_
      cases major element other <;> simp
    rw [both, outer.ties element middleMember, List.filter_comm, inner.ties element member,
      List.filter_comm, ← both]

variable [Std.TransCmp order]

/-- An element from elsewhere ties with the same elements before and after: with all that tie with
one of its ties, or with none. -/
theorem ties_any {source sorted : List α} (stable : StableOrder order source sorted)
    (element : α) :
    (sorted.filter fun other => order element other = .eq) =
      source.filter fun other => order element other = .eq := by
  by_cases tied : ∃ member ∈ source, order element member = .eq
  · obtain ⟨member, listed, same⟩ := tied
    simpa only [Std.TransCmp.congr_left same] using stable.ties member listed
  · have untied : ∀ other ∈ source, ¬ order element other = .eq := fun other listed same =>
      tied ⟨other, listed, same⟩
    have before : (source.filter fun other => order element other = .eq) = [] :=
      List.filter_eq_nil_iff.mpr (by simpa using untied)
    have after : (sorted.filter fun other => order element other = .eq) = [] :=
      List.filter_eq_nil_iff.mpr (by simpa [stable.perm.mem_iff] using untied)
    rw [before, after]

theorem not_tied_of_lt {entry element other : α} (before : order entry other = .lt)
    (tied : order element entry = .eq) : order element other ≠ .eq := by
  rw [Std.TransCmp.congr_left tied, before]
  simp

/-- The first of two ordered lists is not after any element that ties with an element of its own. -/
theorem head_of_ties {first : α} {rest others : List α}
    (sorted : (first :: rest).Pairwise fun one other => order one other ≠ .gt)
    (ties : ∀ element, ((first :: rest).filter fun other => order element other = .eq) =
      others.filter fun other => order element other = .eq)
    {other : α} (member : other ∈ others) : order first other ≠ .gt := by
  have tied : other ∈ (first :: rest).filter fun one => order other one = .eq := by
    rw [ties other]
    simpa using And.intro member Std.ReflCmp.compare_self
  obtain ⟨listed, _⟩ := List.mem_filter.mp tied
  rcases List.mem_cons.mp listed with rfl | later
  · simp [Std.ReflCmp.compare_self]
  · exact List.rel_of_pairwise_cons sorted later

/-- Ordered lists with the same ties are the same. -/
theorem eq_of_ties {one other : List α}
    (oneOrdered : one.Pairwise fun first second => order first second ≠ .gt)
    (otherOrdered : other.Pairwise fun first second => order first second ≠ .gt)
    (ties : ∀ element, (one.filter fun entry => order element entry = .eq) =
      other.filter fun entry => order element entry = .eq) : one = other := by
  induction one generalizing other with
  | nil =>
    cases other with
    | nil => rfl
    | cons first rest => simpa [Std.ReflCmp.compare_self] using ties first
  | cons first rest ih =>
    cases other with
    | nil => simpa [Std.ReflCmp.compare_self] using ties first
    | cons first' rest' =>
      have forth := head_of_ties oneOrdered ties List.mem_cons_self
      have back := head_of_ties otherOrdered (fun element => (ties element).symm)
        List.mem_cons_self
      have tied : order first first' = .eq := by
        have swapped : order first' first = (order first first').swap := Std.OrientedCmp.eq_swap
        cases compared : order first first' <;> simp_all
      have heads := ties first
      simp only [List.filter_cons, Std.ReflCmp.compare_self, tied, decide_true, if_true,
        List.cons.injEq] at heads
      obtain ⟨rfl, _⟩ := heads
      refine congrArg _ (ih oneOrdered.tail otherOrdered.tail fun element => ?_)
      have same := ties element
      simp only [List.filter_cons] at same
      split at same
      · exact (List.cons.inj same).2
      · exact same

/-- There is one stable order of a source. -/
theorem unique {source one other : List α} (first : StableOrder order source one)
    (second : StableOrder order source other) : one = other :=
  eq_of_ties first.ordered second.ordered fun element =>
    (first.ties_any element).trans (second.ties_any element).symm

/-- What comes before the head of an ordered list comes before all of it. -/
theorem lt_of_lt_head {entry first : α} {rest : List α}
    (sorted : (first :: rest).Pairwise fun one other => order one other ≠ .gt)
    (before : order entry first = .lt) : ∀ other ∈ first :: rest, order entry other = .lt := by
  intro other member
  rcases List.mem_cons.mp member with rfl | later
  · exact before
  · exact Std.TransCmp.lt_of_lt_of_isLE before
      (Ordering.ne_gt_iff_isLE.mp (List.rel_of_pairwise_cons sorted later))

theorem pairwise_orderedInsert {sorted : List α}
    (ordered : sorted.Pairwise fun one other => order one other ≠ .gt) (entry : α) :
    (sorted.orderedInsert (fun one other => order one other = .lt) entry).Pairwise
      fun one other => order one other ≠ .gt := by
  induction sorted with
  | nil => simp
  | cons first rest ih =>
    rw [List.orderedInsert_cons]
    split
    · next before =>
      refine List.pairwise_cons.mpr ⟨fun other member => ?_, ordered⟩
      simp [lt_of_lt_head ordered before other member]
    · next after =>
      refine List.pairwise_cons.mpr ⟨fun other member => ?_, ih ordered.tail⟩
      rcases (List.mem_orderedInsert _).mp member with rfl | later
      · exact fun greater => after (Std.OrientedCmp.lt_of_gt greater)
      · exact List.rel_of_pairwise_cons ordered later

theorem filter_orderedInsert {sorted : List α}
    (ordered : sorted.Pairwise fun one other => order one other ≠ .gt) (entry element : α) :
    ((sorted.orderedInsert (fun one other => order one other = .lt) entry).filter
        fun other => order element other = .eq) =
      (sorted.filter fun other => order element other = .eq) ++
        [entry].filter fun other => order element other = .eq := by
  induction sorted with
  | nil => rfl
  | cons first rest ih =>
    rw [List.orderedInsert_cons]
    split
    · next before =>
      by_cases tied : order element entry = .eq
      · -- All of the list comes after the entry, so nothing in it ties with the element.
        have untied : ((first :: rest).filter fun other => order element other = .eq) = [] := by
          apply List.filter_eq_nil_iff.mpr
          intro other member
          simpa using not_tied_of_lt (lt_of_lt_head ordered before other member) tied
        rw [List.filter_cons, untied]
        simp [tied]
      · simp [List.filter_cons, tied]
    · simp only [List.filter_cons, ih ordered.tail]
      split <;> simp

/-- A late arrival that is put before the first element after it keeps the order stable. -/
theorem insert {source sorted : List α} (stable : StableOrder order source sorted) (entry : α) :
    StableOrder order (source ++ [entry])
      (sorted.orderedInsert (fun one other => order one other = .lt) entry) where
  perm := ((List.perm_orderedInsert _ entry sorted).trans (stable.perm.cons entry)).trans
    (List.perm_append_singleton entry source).symm
  ordered := pairwise_orderedInsert stable.ordered entry
  ties element _ := by
    rw [List.filter_append, ← stable.ties_any element, filter_orderedInsert stable.ordered]

/-- Sorting by merging is stable. -/
theorem mergeSort (source : List α) :
    StableOrder order source (source.mergeSort fun one other => order one other != .gt) := by
  have trans : ∀ one other third : α, (order one other != .gt) = true →
      (order other third != .gt) = true → (order one third != .gt) = true := by
    intro one other third forth further
    simp only [bne_iff_ne, Ordering.ne_gt_iff_isLE] at *
    exact Std.TransCmp.isLE_trans forth further
  have total : ∀ one other : α, (order one other != .gt || order other one != .gt) = true := by
    intro one other
    have swapped : order other one = (order one other).swap := Std.OrientedCmp.eq_swap
    cases compared : order one other <;> simp [swapped, compared]
  have perm := List.mergeSort_perm source fun one other => order one other != .gt
  refine ⟨perm, ?_, fun element _ => ?_⟩
  · simpa using List.pairwise_mergeSort trans total source
  · -- The tied elements are ordered as they are, so that sorting keeps them in place.
    have tiesOrdered : (source.filter fun other => order element other = .eq).Pairwise
        fun one other => (order one other != .gt) = true := by
      apply List.pairwise_of_forall_mem_list
      intro one oneTied other otherTied
      have first : order element one = .eq := by simpa using (List.mem_filter.mp oneTied).2
      have second : order element other = .eq := by simpa using (List.mem_filter.mp otherTied).2
      rw [← Std.TransCmp.congr_left first, second]
      rfl
    have kept := (List.sublist_mergeSort trans total tiesOrdered List.filter_sublist).filter
      fun other => decide (order element other = .eq)
    rw [List.filter_filter] at kept
    simp only [Bool.and_self] at kept
    exact (kept.eq_of_length (perm.filter _).length_eq.symm).symm

/-- There is one stable order of a source on which the comparison is a total preorder. -/
theorem unique_of_agrees {other : α → α → Ordering} {source one two : List α}
    (first : StableOrder other source one)
    (agrees : ∀ left ∈ source, ∀ right ∈ source, order left right = other left right)
    (second : StableOrder other source two) : one = two := by
  have back : ∀ left ∈ source, ∀ right ∈ source, other left right = order left right :=
    fun left listed right also => (agrees left listed right also).symm
  exact (first.congr back).unique (second.congr back)

/-- Sorting by merging is stable where the comparison is a total preorder on the elements. -/
theorem mergeSort_of_agrees {inOrder : α → α → Bool} {other : α → α → Ordering} {source : List α}
    (agrees : ∀ first ∈ source, ∀ second ∈ source, order first second = other first second)
    (sorts : ∀ first ∈ source, ∀ second ∈ source,
      inOrder first second = (other first second != .gt)) :
    StableOrder other source (source.mergeSort inOrder) := by
  have sorted : source.mergeSort inOrder =
      source.mergeSort fun first second => order first second != .gt :=
    mergeSort_congr fun first one second two => by
      rw [sorts first one second two, agrees first one second two]
  rw [sorted]
  exact (mergeSort source).congr agrees

end StableOrder

end Medals
