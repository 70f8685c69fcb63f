import Medals.Proofs.Cell.Order
import Medals.Proofs.Table.StableOrder
import Medals.Stream.Ranking

/-!
# What a ranking keeps and counts

`Ranking.Keeps` says that a ranking holds the beginning of the stable sort of all entries that were
pushed into it, up to its capacity. A push preserves this (`Ranking.Keeps.push`), although it looks
at no entry that was forgotten before. The keys have to be cells on which the order is transitive,
which a `Cell.TotalOrder` vouches for.

How many entries there are, and how many pushes were counted, does not depend on the keys.
`Ranking.pushAll_counts_and_keeps` says all of it after every part of a run of pushes.
-/

namespace Medals

variable {α : Type}

/-- A total preorder of all cells which is their order, with missing cells last, on those that it
admits. -/
structure Cell.TotalOrder (descending : Bool) where
  compare : Cell → Cell → Ordering
  admits : Cell → Prop
  transCmp : Std.TransCmp compare
  agrees : ∀ {left right}, admits left → admits right →
    compare left right = Cell.orderMissingLast descending left right

attribute [instance] Cell.TotalOrder.transCmp

namespace Cell.TotalOrder

/-- Integers that are doubles of their own may be compared with numbers. -/
def rounded (descending : Bool) : Cell.TotalOrder descending where
  compare := Cell.roundedMissingLast descending
  admits := Cell.Exact
  transCmp := inferInstance
  agrees := Cell.roundedMissingLast_eq descending

/-- Any integers may be compared where they meet no number. -/
def kindwise (descending : Bool) {cells : List Cell} (unmixed : Cell.Unmixed cells) :
    Cell.TotalOrder descending where
  compare := Cell.missingLast Cell.kindwiseOrder descending
  admits cell := cell ∈ cells
  transCmp := inferInstance
  agrees := Cell.kindwiseMissingLast_eq descending unmixed

end Cell.TotalOrder

variable {descending : Bool} (total : Cell.TotalOrder descending)

namespace Ranked

/-- Compare entries by their keys. -/
def order (left right : Ranked α) : Ordering :=
  total.compare left.key right.key

instance : Std.TransCmp (@order α descending total) :=
  transCmp_on total.compare key

/-- The stable sort of entries, best first. -/
def sorted (entries : List (Ranked α)) : List (Ranked α) :=
  entries.mergeSort fun left right => Ranked.order total left right != .gt

theorem sorted_stable (entries : List (Ranked α)) :
    StableOrder (Ranked.order total) entries (sorted total entries) :=
  StableOrder.mergeSort entries

/-- Compare entries by their keys, missing ones last, whatever the keys are. -/
def keyOrder (descending : Bool) (left right : Ranked α) : Ordering :=
  Cell.orderMissingLast descending left.key right.key

/-- Entries with admitted keys have one stable order. -/
theorem stableOrder_iff {entries others : List (Ranked α)}
    (admitted : ∀ entry ∈ entries, total.admits entry.key) :
    StableOrder (keyOrder descending) entries others ↔ others = sorted total entries := by
  have agrees : ∀ first ∈ entries, ∀ second ∈ entries,
      order total first second = keyOrder descending first second :=
    fun first one second other => total.agrees (admitted first one) (admitted second other)
  have stable : StableOrder (keyOrder descending) entries (sorted total entries) :=
    (sorted_stable total entries).congr agrees
  constructor
  · exact fun also => also.unique_of_agrees agrees stable
  · rintro rfl
    exact stable

end Ranked

namespace Ranking

theorem length_insertLast (descending : Bool) (entry : Ranked α) (entries : List (Ranked α)) :
    (insertLast descending entry entries).length = entries.length + 1 := by
  induction entries with
  | nil => rfl
  | cons first rest ih =>
    rw [insertLast]
    split
    · rfl
    · simp [ih]

/-- What an insertion puts at the front depends on the front only. -/
theorem take_insertLast (descending : Bool) (entry : Ranked α) (entries : List (Ranked α))
    (count : Nat) :
    (insertLast descending entry (entries.take count)).take count =
      (insertLast descending entry entries).take count := by
  induction entries generalizing count with
  | nil => simp
  | cons first rest ih =>
    cases count with
    | zero => simp
    | succ count =>
      rw [List.take_succ_cons, insertLast, insertLast]
      split
      · cases count <;> simp [List.take_take]
      · rw [List.take_succ_cons, List.take_succ_cons, ih]

theorem insertLast_of_not_gt {descending : Bool} {entry : Ranked α} {entries : List (Ranked α)}
    (behind : ∀ other ∈ entries, Cell.orderMissingLast descending other.key entry.key ≠ .gt) :
    insertLast descending entry entries = entries ++ [entry] := by
  induction entries with
  | nil => rfl
  | cons first rest ih =>
    rw [insertLast, if_neg (behind first List.mem_cons_self),
      ih fun other later => behind other (List.mem_cons_of_mem first later)]
    rfl

variable {total}

/-- On admitted keys an insertion is one into an ordered list. -/
theorem insertLast_eq_orderedInsert {entry : Ranked α} {entries : List (Ranked α)}
    (admitted : total.admits entry.key) (allAdmitted : ∀ other ∈ entries, total.admits other.key) :
    insertLast descending entry entries =
      entries.orderedInsert (fun left right => Ranked.order total left right = .lt) entry := by
  induction entries with
  | nil => rfl
  | cons first rest ih =>
    have swapped : Cell.orderMissingLast descending first.key entry.key = .gt ↔
        Ranked.order total entry first = .lt := by
      rw [← total.agrees (allAdmitted first List.mem_cons_self) admitted]
      exact Std.OrientedCmp.gt_iff_lt
    rw [insertLast, List.orderedInsert_cons,
      ih fun other later => allAdmitted other (List.mem_cons_of_mem first later)]
    simp only [swapped]

/-- A full ranking refuses only what ranks behind all of its entries. -/
theorem not_gt_of_outranked {entry : Ranked α} {entries : List (Ranked α)}
    (ordered : entries.Pairwise fun left right => Ranked.order total left right ≠ .gt)
    (admitted : total.admits entry.key) (allAdmitted : ∀ other ∈ entries, total.admits other.key)
    (refused : outranked descending entry entries = true) :
    ∀ other ∈ entries, Cell.orderMissingLast descending other.key entry.key ≠ .gt := by
  obtain rfl | ⟨front, worst, rfl⟩ := entries.eq_nil_or_concat'
  · simp
  intro other listed
  have worstListed : worst ∈ front ++ [worst] := by simp
  have notBefore : Ranked.order total entry worst ≠ .lt := by
    rw [Ranked.order, total.agrees admitted (allAdmitted worst worstListed)]
    simpa [outranked] using refused
  have worstFirst : (Ranked.order total worst entry).isLE :=
    Ordering.ne_gt_iff_isLE.mp fun greater => notBefore (Std.OrientedCmp.lt_of_gt greater)
  have otherFirst : (Ranked.order total other worst).isLE := by
    rcases List.mem_append.mp listed with before | last
    · exact Ordering.ne_gt_iff_isLE.mp
        ((List.pairwise_append.mp ordered).2.2 other before worst (by simp))
    · obtain rfl := List.mem_singleton.mp last
      exact Std.ReflCmp.isLE_rfl
  rw [← total.agrees (allAdmitted other listed) admitted]
  exact Ordering.ne_gt_iff_isLE.mpr (Std.TransCmp.isLE_trans otherFirst worstFirst)

@[simp] theorem capacity_push (ranking : Ranking α) (key : Cell) (item : α) :
    (ranking.push key item).capacity = ranking.capacity := by
  unfold push
  split_ifs <;> rfl

@[simp] theorem descending_push (ranking : Ranking α) (key : Cell) (item : α) :
    (ranking.push key item).descending = ranking.descending := by
  unfold push
  split_ifs <;> rfl

theorem mem_insertLast {descending : Bool} {entry other : Ranked α} {entries : List (Ranked α)} :
    other ∈ insertLast descending entry entries ↔ other = entry ∨ other ∈ entries := by
  induction entries with
  | nil => simp [insertLast]
  | cons first rest ih =>
    rw [insertLast]
    split
    · exact List.mem_cons
    · rw [List.mem_cons, ih, List.mem_cons, or_left_comm]

/-- A push adds nothing but the item. -/
theorem mem_of_mem_push {ranking : Ranking α} {key : Cell} {item : α} {entry : Ranked α}
    (member : entry ∈ (ranking.push key item).entries) :
    entry = ⟨key, item⟩ ∨ entry ∈ ranking.entries := by
  unfold push at member
  split_ifs at member
  · exact .inr member
  · exact mem_insertLast.mp member
  · exact .inr member
  · exact mem_insertLast.mp (List.mem_of_mem_dropLast member)

/-- A push fills the ranking up to its capacity. -/
theorem size_push {ranking : Ranking α} (bounded : ranking.size ≤ ranking.capacity) (key : Cell)
    (item : α) : (ranking.push key item).size = min (ranking.size + 1) ranking.capacity := by
  unfold size at bounded ⊢
  unfold push
  split_ifs with noCapacity free refused
  · omega
  · rw [length_insertLast]
    omega
  · -- Only a full ranking refuses, so that its size is its capacity.
    dsimp only
    omega
  · rw [List.length_dropLast, length_insertLast]
    omega

/-- A push is counted unless there is no capacity, whether its item is kept or not. -/
theorem seen_push (ranking : Ranking α) (key : Cell) (item : α) :
    (ranking.push key item).seen =
      if ranking.capacity = 0 then ranking.seen else ranking.seen + 1 := by
  unfold push
  split_ifs <;> rfl

/-- Push entries one after the other. -/
def pushAll (ranking : Ranking α) (pushed : List (Ranked α)) : Ranking α :=
  pushed.foldl (fun ranking entry => ranking.push entry.key entry.item) ranking

@[simp] theorem pushAll_nil (ranking : Ranking α) : ranking.pushAll [] = ranking :=
  rfl

@[simp] theorem pushAll_concat (ranking : Ranking α) (pushed : List (Ranked α))
    (entry : Ranked α) :
    ranking.pushAll (pushed ++ [entry]) = (ranking.pushAll pushed).push entry.key entry.item :=
  List.foldl_concat ..

/-- A fold that pushes something of each element pushes entries. -/
theorem pushAll_map {β : Type} (ranking : Ranking α) (keyOf : β → Cell) (itemOf : β → α)
    (sources : List β) :
    ranking.pushAll (sources.map fun source => ⟨keyOf source, itemOf source⟩) =
      sources.foldl (fun ranking source => ranking.push (keyOf source) (itemOf source)) ranking :=
  List.foldl_map

@[simp] theorem capacity_pushAll (ranking : Ranking α) (pushed : List (Ranked α)) :
    (ranking.pushAll pushed).capacity = ranking.capacity := by
  induction pushed using List.reverseRecOn with
  | nil => rfl
  | append_singleton pushed last ih => rw [pushAll_concat, capacity_push, ih]

/-- Only what was pushed is ranked. -/
theorem mem_of_mem_pushAll {ranking : Ranking α} {pushed : List (Ranked α)} {entry : Ranked α}
    (member : entry ∈ (ranking.pushAll pushed).entries) :
    entry ∈ ranking.entries ∨ entry ∈ pushed := by
  induction pushed using List.reverseRecOn with
  | nil => exact .inl member
  | append_singleton pushed last ih =>
    rw [pushAll_concat] at member
    rcases mem_of_mem_push member with rfl | before
    · exact .inr (by simp)
    · exact (ih before).imp_right (List.mem_append_left [last])

/-- The pushes of a run fill the ranking up to its capacity. -/
theorem size_pushAll {ranking : Ranking α} (bounded : ranking.size ≤ ranking.capacity)
    (pushed : List (Ranked α)) :
    (ranking.pushAll pushed).size = min (ranking.size + pushed.length) ranking.capacity := by
  induction pushed using List.reverseRecOn with
  | nil => simpa using bounded
  | append_singleton pushed last ih =>
    have stillBounded : (ranking.pushAll pushed).size ≤ (ranking.pushAll pushed).capacity := by
      rw [ih, capacity_pushAll]
      exact Nat.min_le_right _ _
    rw [pushAll_concat, size_push stillBounded, ih, capacity_pushAll, List.length_append,
      List.length_singleton]
    omega

/-- The pushes of a run are counted, all of them or, without capacity, none. -/
theorem seen_pushAll (ranking : Ranking α) (pushed : List (Ranked α)) :
    (ranking.pushAll pushed).seen =
      if ranking.capacity = 0 then ranking.seen else ranking.seen + pushed.length := by
  induction pushed using List.reverseRecOn with
  | nil => simp
  | append_singleton pushed last ih =>
    rw [pushAll_concat, seen_push, capacity_pushAll, ih]
    split
    · rfl
    · rw [List.length_append, List.length_singleton, Nat.add_assoc]

/-- A push inserts the entry and cuts the ranking back to its capacity, whichever way it takes. -/
theorem entries_push {ranking : Ranking α} {total : Cell.TotalOrder ranking.descending} {key : Cell}
    {item : α} (bounded : ranking.entries.length ≤ ranking.capacity)
    (ordered : ranking.entries.Pairwise fun left right => Ranked.order total left right ≠ .gt)
    (admitted : total.admits key)
    (allAdmitted : ∀ other ∈ ranking.entries, total.admits other.key) :
    (ranking.push key item).entries =
      (insertLast ranking.descending ⟨key, item⟩ ranking.entries).take ranking.capacity := by
  unfold push
  split_ifs with noCapacity free refused
  · rw [noCapacity, Nat.le_zero] at bounded
    rw [noCapacity, List.take_zero, List.eq_nil_of_length_eq_zero bounded]
  · rw [List.take_of_length_le (by rw [length_insertLast]; omega)]
  · have full : ranking.entries.length = ranking.capacity := by omega
    rw [insertLast_of_not_gt (not_gt_of_outranked ordered admitted allAdmitted refused), ← full,
      List.take_left]
  · have full : ranking.entries.length = ranking.capacity := by omega
    rw [List.dropLast_eq_take, length_insertLast, full, Nat.add_sub_cancel]

/-- The entries are the first of all that were pushed, in their stable order. -/
structure Keeps (total : Cell.TotalOrder descending) (ranking : Ranking α)
    (pushed : List (Ranked α)) : Prop where
  direction : ranking.descending = descending
  entries : ranking.entries = (Ranked.sorted total pushed).take ranking.capacity

theorem keeps_start (total : Cell.TotalOrder descending) (capacity : Nat) :
    Keeps total (start capacity descending : Ranking α) [] :=
  ⟨rfl, by simp [start, Ranked.sorted]⟩

/-- A push keeps the first entries, those that are pushed out included. -/
theorem Keeps.push {ranking : Ranking α} {pushed : List (Ranked α)}
    (kept : ranking.Keeps total pushed) (allAdmitted : ∀ entry ∈ pushed, total.admits entry.key)
    {key : Cell} (admitted : total.admits key) (item : α) :
    (ranking.push key item).Keeps total (pushed ++ [⟨key, item⟩]) := by
  obtain ⟨rfl, kept⟩ := kept
  have stable := Ranked.sorted_stable total pushed
  have sortedAdmitted : ∀ entry ∈ Ranked.sorted total pushed, total.admits entry.key :=
    fun entry listed => allAdmitted entry (stable.perm.mem_iff.mp listed)
  have keptAdmitted : ∀ entry ∈ ranking.entries, total.admits entry.key := fun entry listed =>
    sortedAdmitted entry (List.mem_of_mem_take (kept ▸ listed))
  have bounded : ranking.entries.length ≤ ranking.capacity := by
    rw [kept]
    exact List.length_take_le _ _
  have ordered : ranking.entries.Pairwise fun left right =>
      Ranked.order total left right ≠ .gt := by
    rw [kept]
    exact stable.ordered.sublist (List.take_sublist _ _)
  have inserted : insertLast ranking.descending ⟨key, item⟩ (Ranked.sorted total pushed) =
      Ranked.sorted total (pushed ++ [⟨key, item⟩]) := by
    rw [insertLast_eq_orderedInsert admitted sortedAdmitted]
    exact (stable.insert ⟨key, item⟩).unique (Ranked.sorted_stable _ _)
  refine ⟨descending_push ranking key item, ?_⟩
  rw [capacity_push, entries_push bounded ordered admitted keptAdmitted, kept, take_insertLast,
    inserted]

/-- Whatever is pushed into a ranking, it keeps the first entries of their stable sort. -/
theorem keeps_pushAll (total : Cell.TotalOrder descending) (capacity : Nat)
    {pushed : List (Ranked α)} (admitted : ∀ entry ∈ pushed, total.admits entry.key) :
    ((start capacity descending).pushAll pushed).Keeps total pushed := by
  induction pushed using List.reverseRecOn with
  | nil => exact keeps_start total capacity
  | append_singleton pushed last ih =>
    have before : ∀ entry ∈ pushed, total.admits entry.key := fun entry listed =>
      admitted entry (List.mem_append_left [last] listed)
    rw [pushAll_concat]
    exact (ih before).push before (admitted last (by simp)) last.item

/-- After every part of a run of pushes the ranking holds as many entries as were pushed, up to its
capacity, and has counted all pushes, those that were refused or pushed out included; without
capacity it counts none. Where integers among the keys pushed so far are at most `2 ^ 53` in
magnitude, what it holds is the beginning of the one stable order of the entries pushed so far by
their keys, missing ones last. -/
theorem pushAll_counts_and_keeps (capacity : Nat) (descending : Bool) (pushed : List (Ranked α))
    (count : Nat) (reached : count ≤ pushed.length) :
    let ranking := (start capacity descending).pushAll (pushed.take count)
    ranking.seen = (if capacity = 0 then 0 else count) ∧
      ranking.size = min count capacity ∧
      ((∀ entry ∈ pushed.take count, entry.key.Exact) →
        ∃ ordered, (∀ others, StableOrder (Ranked.keyOrder descending) (pushed.take count) others ↔
            others = ordered) ∧
          ranking.entries = ordered.take (min count capacity)) := by
  intro ranking
  have length : (pushed.take count).length = count := List.length_take_of_le reached
  refine ⟨?_, ?_, fun exact => ?_⟩
  · rw [seen_pushAll, length]
    simp [start]
  · have bounded : (start capacity descending : Ranking α).size ≤ capacity := Nat.zero_le capacity
    rw [size_pushAll bounded, length]
    simp [start, size]
  · let total : Cell.TotalOrder descending := .rounded descending
    refine ⟨Ranked.sorted total (pushed.take count),
      fun others => Ranked.stableOrder_iff total exact, ?_⟩
    have kept := (keeps_pushAll total capacity exact).entries
    -- The stable order ends with the pushes made, so that a larger capacity cuts nothing off.
    have all : (Ranked.sorted total (pushed.take count)).length = count := by
      rw [(Ranked.sorted_stable total _).perm.length_eq, length]
    rw [kept, capacity_pushAll, List.take_eq_take_min, all, Nat.min_comm]
    rfl

/-- Five of six pushes into three places leave the two of the earliest year and the next one; one
was refused and one pushed out, and both are counted. -/
theorem pushAll_of_five_years :
    let pushed : List (Ranked String) :=
      [⟨.integer 2016, "a"⟩, ⟨.missing, "b"⟩, ⟨.integer 1996, "c"⟩, ⟨.integer 2000, "d"⟩,
        ⟨.integer 1996, "e"⟩, ⟨.integer 1992, "f"⟩]
    let ranking := (start 3 false).pushAll (pushed.take 5)
    5 ≤ pushed.length ∧ (∀ entry ∈ pushed.take 5, entry.key.Exact) ∧ ranking.seen = 5 ∧
      ranking.size = 3 ∧ ranking.best = ["c", "e", "d"] ∧
      ∃ ordered, StableOrder (Ranked.keyOrder false) (pushed.take 5) ordered ∧
        ranking.entries = ordered.take 3 := by
  intro pushed ranking
  have exact : ∀ entry ∈ pushed.take 5, entry.key.Exact := by decide
  obtain ⟨seen, size, keeps⟩ := pushAll_counts_and_keeps 3 false pushed 5 (by decide)
  obtain ⟨ordered, stable, entries⟩ := keeps exact
  exact ⟨by decide, exact, seen, size, by cbv, ordered, (stable ordered).mpr rfl, entries⟩

/-- Without capacity a push is not counted. -/
theorem pushAll_not_counted :
    let pushed : List (Ranked String) := [⟨.integer 2012, "a"⟩]
    ((start 0 false).pushAll pushed).seen ≠ pushed.length := by
  decide

end Ranking

end Medals
