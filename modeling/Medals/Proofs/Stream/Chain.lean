import Medals.Proofs.Stream.Names

/-!
# Chains of stages

A chain lists what each of its stages is asked for, a filter and a choice of columns. Laid over a
source it yields the rows of which every filter is true, each asked of the row as the stages before
show it, and shows them by all choices one after the other (`Pipeline.Runs.lay`). `Stage.Tallied`
says how the counters of the stages fit together; the offer of a row keeps this, and with it
every pull, also one past the end. `Pipeline.lay_composes` puts this together for sources without
faults. The source may have been read before the chain is laid, but nothing is pulled through a
stage before the next one is laid on it.
-/

namespace Medals

/-- The cells under some names, or the whole row. -/
def Row.shown (row : Row) : Option (List String) → Row
  | none => row
  | some names => row.narrow names

/-- What one stage of a chain is asked for. -/
structure Link where
  filter : Filter
  columns : Option (List String)
deriving DecidableEq, Repr

namespace Link

/-- A row as the stages of a chain show it, one after the other. -/
def shown (chain : List Link) (row : Row) : Row :=
  chain.foldl (fun row link => row.shown link.columns) row

/-- The filter of every stage is true of the row as the stages before it show it. -/
def Passes (chain : List Link) (row : Row) : Prop :=
  ∀ index, (inside : index < chain.length) →
    chain[index].filter.eval (shown (chain.take index) row) = .ok true

instance (chain : List Link) (row : Row) : Decidable (Passes chain row) :=
  inferInstanceAs (Decidable (∀ index, (inside : index < chain.length) →
    chain[index].filter.eval (shown (chain.take index) row) = .ok true))

/-- The conjunction of the filters of a chain. -/
def conjunction (chain : List Link) : Filter :=
  ⟨chain.flatMap fun link => link.filter.conditions⟩

theorem conditions_conjunction_cons (link : Link) (above : List Link) :
    (conjunction (link :: above)).conditions =
      link.filter.conditions ++ (conjunction above).conditions := by
  simp [conjunction]

theorem passes_cons {link : Link} {above : List Link} {row : Row} :
    Passes (link :: above) row ↔
      link.filter.eval row = .ok true ∧ Passes above (row.shown link.columns) := by
  constructor
  · intro passes
    exact ⟨passes 0 (by simp), fun index inside => passes (index + 1) (by simpa using inside)⟩
  · rintro ⟨first, others⟩ index inside
    cases index with
    | zero => exact first
    | succ index => exact others index (by simpa using inside)

/-- What passes a stage, as it shows it, and passes the stages above, as they show it, passes the
whole chain. -/
theorem map_shown_cons (link : Link) (above : List Link) (rows : List Row) :
    ((((rows.filter (link.filter.eval · = .ok true)).map (·.shown link.columns)).filter
      (Passes above ·)).map (shown above)) =
      (rows.filter (Passes (link :: above) ·)).map (shown (link :: above)) := by
  rw [List.filter_map, List.filter_filter, List.map_map]
  have together : rows.filter (Passes (link :: above) ·) = rows.filter fun row =>
      decide (Passes above (row.shown link.columns)) &&
        decide (link.filter.eval row = .ok true) := by
    refine List.filter_congr fun row _ => ?_
    rw [decide_eq_decide.mpr passes_cons, Bool.decide_and, Bool.and_comm]
  rw [together]
  rfl

/-- Without choices of columns rows are shown whole. -/
theorem shown_of_unprojected {chain : List Link} (whole : ∀ link ∈ chain, link.columns = none)
    (row : Row) : shown chain row = row := by
  induction chain with
  | nil => rfl
  | cons link above ih =>
    obtain ⟨first, others⟩ := List.forall_mem_cons.mp whole
    rw [shown, List.foldl_cons, first]
    exact ih others

/-- Without choices of columns the stages pass a row together that their conjunction passes. -/
theorem passes_iff_conjunction {chain : List Link} {row : Row}
    (whole : ∀ link ∈ chain, link.columns = none)
    (listed : ∀ condition ∈ (conjunction chain).conditions, condition.column ∈ row.names) :
    Passes chain row ↔ (conjunction chain).eval row = .ok true := by
  induction chain with
  | nil => simp [Passes, conjunction, Filter.eval, Filter.evalConditions]
  | cons link above ih =>
    obtain ⟨first, others⟩ := List.forall_mem_cons.mp whole
    rw [conditions_conjunction_cons] at listed
    obtain ⟨listedHere, listedAbove⟩ := List.forall_mem_append.mp listed
    rw [passes_cons, first, show row.shown none = row from rfl, ih others listedAbove]
    unfold Filter.eval
    rw [conditions_conjunction_cons, Filter.evalConditions_eq_true_iff listed,
      Filter.evalConditions_eq_true_iff listedHere, Filter.evalConditions_eq_true_iff listedAbove,
      List.forall_mem_append]

end Link

namespace Projection

theorem applyOptional_eq_shown {layout : List String} {columns : Option (List String)}
    {projection : Option Projection} (bound : bindOptional layout columns = .ok projection)
    {row : Row} (aligned : row.names = layout) :
    applyOptional projection row = row.shown columns := by
  cases columns with
  | none =>
    obtain rfl := Except.ok.inj bound
    rfl
  | some names =>
    obtain ⟨choice, chosen, rfl⟩ := map_eq_ok_iff.mp bound
    exact apply_eq_narrow chosen aligned

end Projection

namespace Stage

/-- By position a stage lets through and shows what its filter and its columns say by name. -/
theorem passing_of_bind {layout : List String} {link : Link} {stage : Stage}
    (bound : bind layout link.filter link.columns = .ok stage) {rows : List Row}
    (aligned : ∀ row ∈ rows, row.names = layout) :
    stage.passing rows =
      (rows.filter (link.filter.eval · = .ok true)).map (·.shown link.columns) := by
  obtain ⟨tests, projection, filtered, projected, rfl⟩ := bind_eq_ok_iff.mp bound
  have accepted : rows.filter tests.accepts = rows.filter (link.filter.eval · = .ok true) := by
    refine List.filter_congr fun row member => ?_
    have binds : link.filter.bind row.names = .ok tests := (aligned row member).symm ▸ filtered
    simp [Filter.eval_eq_accepts binds]
  rw [passing, accepted]
  refine List.map_congr_left fun row member => ?_
  exact Projection.applyOptional_eq_shown projected (aligned row (List.mem_filter.mp member).1)

/-- The lowest stage has looked at the rows taken from the source, each stage above at those that
the one below let through, none has let through more than it looked at, and the outermost let
through the rows returned. -/
def Tallied : Nat → List Stage → Nat → Prop
  | taken, [], returned => taken = returned
  | taken, stage :: above, returned =>
    stage.scanned = taken ∧ stage.matched ≤ stage.scanned ∧ Tallied stage.matched above returned

theorem Tallied.append {taken returned : Nat} {stages : List Stage} {top : Stage}
    (tallied : Tallied taken stages returned) (looked : top.scanned = returned)
    (fewer : top.matched ≤ top.scanned) : Tallied taken (stages ++ [top]) top.matched := by
  induction stages generalizing taken with
  | nil => exact ⟨looked.trans (tallied : taken = returned).symm, fewer, rfl⟩
  | cons stage above ih => exact ⟨tallied.1, tallied.2.1, ih tallied.2.2⟩

/-- A row that is offered to stages is counted by those it reaches. -/
theorem Tallied.offerAll {taken returned : Nat} {stages : List Stage}
    (tallied : Tallied taken stages returned) (row : Row) :
    Tallied (taken + 1) (Stage.offerAll stages row).2
      (returned + (Stage.offerAll stages row).1.toList.length) := by
  induction stages generalizing taken row with
  | nil => exact congrArg (· + 1) (tallied : taken = returned)
  | cons stage above ih =>
    obtain ⟨looked, fewer, others⟩ := tallied
    rw [Stage.offerAll, offer_eq]
    cases accepted : stage.filter.accepts row with
    | false =>
      refine ⟨congrArg (· + 1) looked, ?_, ?_⟩
      · simpa [counted, accepted] using Nat.le_succ_of_le fewer
      · simpa [counted, accepted] using others
    | true =>
      refine ⟨congrArg (· + 1) looked, ?_, ?_⟩
      · simpa [counted, accepted] using fewer
      · simpa [counted, accepted] using ih others (Projection.applyOptional stage.projection row)

end Stage

namespace RowReader

/-- A reader that has ended stays as it is. -/
theorem next_of_ended {reader after : RowReader} (ended : reader.next = (.ok none, after)) :
    after.next = (.ok none, after) := by
  refine next_of_finished ?_
  fun_induction RowReader.next reader with
  | case1 reader finished =>
    obtain ⟨-, rfl⟩ := Prod.mk.inj ended
    exact finished
  | case2 =>
    obtain ⟨-, rfl⟩ := Prod.mk.inj ended
    rfl
  | case3 =>
    obtain ⟨-, rfl⟩ := Prod.mk.inj ended
    rfl
  | case4 => simp at ended
  | case5 _ _ _ _ _ _ _ _ _ _ _ ih => exact ih ended
  | case6 => simp at ended
  | case7 => simp at ended

end RowReader

/-- An origin that has ended stays as it is. -/
theorem Origin.next_of_ended {origin after : Origin} (ended : origin.next = (.ok none, after)) :
    after.next = (.ok none, after) := by
  match origin with
  | .memory layout [] =>
    obtain ⟨-, rfl⟩ := Prod.mk.inj ended
    rfl
  | .memory layout (first :: rest) =>
    rw [next] at ended
    split at ended <;> simp at ended
  | .text reader =>
    obtain ⟨answered, rfl⟩ := Prod.mk.inj ended
    have stays := reader.next_of_ended (Prod.ext answered rfl)
    rw [next, stays]

namespace Pipeline

/-- Lay a chain of stages on top, the first of it the lowest. -/
def lay (pipeline : Pipeline) (chain : List Link) : Except Fault Pipeline :=
  chain.foldlM (fun below link => below.addStage link.filter link.columns) pipeline

/-- The pipeline after some pulls. -/
def pulled (pipeline : Pipeline) : Nat → Pipeline
  | 0 => pipeline
  | pulls + 1 => pulled pipeline.next.2 pulls

theorem lay_cons_eq_ok_iff {below top : Pipeline} {link : Link} {above : List Link} :
    below.lay (link :: above) = .ok top ↔
      ∃ stage, Stage.bind below.names link.filter link.columns = .ok stage ∧
        (below.withStage stage).lay above = .ok top := by
  rw [lay, List.foldlM_cons, bind_eq_ok_iff]
  constructor
  · rintro ⟨middle, laid, rest⟩
    obtain ⟨stage, bound, rfl⟩ := addStage_eq_ok_iff.mp laid
    exact ⟨stage, bound, rest⟩
  · rintro ⟨stage, bound, rest⟩
    exact ⟨_, addStage_eq_ok_iff.mpr ⟨stage, bound, rfl⟩, rest⟩

/-- A chain over a run yields what passes all its stages, as they show it. -/
theorem Runs.lay {below pipeline after : Pipeline} {rows : List Row} {chain : List Link}
    (run : Runs below rows after) (ordered : Stage.Laid below.origin.names below.stages)
    (laid : below.lay chain = .ok pipeline) :
    ∃ last, Runs pipeline ((rows.filter (Link.Passes chain ·)).map (Link.shown chain)) last := by
  induction chain generalizing below rows after with
  | nil =>
    obtain rfl := Except.ok.inj laid
    have all : (rows.filter (Link.Passes [] ·)).map (Link.shown []) = rows := by
      simp [Link.Passes, show Link.shown [] = id from rfl]
    exact ⟨after, all.symm ▸ run⟩
  | cons link above ih =>
    obtain ⟨stage, bound, rest⟩ := lay_cons_eq_ok_iff.mp laid
    have aligned := (run.aligned ordered).2
    have through := run.withStage stage
    rw [Stage.passing_of_bind bound aligned] at through
    rw [← Link.map_shown_cons]
    exact ih through (laid_of_addStage ordered (addStage_eq_ok_iff.mpr ⟨stage, bound, rfl⟩)) rest

/-- Stages that have just been laid have counted nothing. -/
theorem tallied_lay {below pipeline : Pipeline} {chain : List Link}
    (tallied : Stage.Tallied 0 below.stages 0) (laid : below.lay chain = .ok pipeline) :
    Stage.Tallied 0 pipeline.stages 0 := by
  induction chain generalizing below with
  | nil =>
    obtain rfl := Except.ok.inj laid
    exact tallied
  | cons link above ih =>
    obtain ⟨stage, bound, rest⟩ := lay_cons_eq_ok_iff.mp laid
    obtain ⟨tests, projection, -, -, rfl⟩ := Stage.bind_eq_ok_iff.mp bound
    exact ih (tallied.append rfl (Nat.le_refl 0)) rest

theorem origin_lay {below pipeline : Pipeline} {chain : List Link}
    (laid : below.lay chain = .ok pipeline) : pipeline.origin = below.origin := by
  induction chain generalizing below with
  | nil =>
    obtain rfl := Except.ok.inj laid
    rfl
  | cons link above ih =>
    obtain ⟨stage, -, rest⟩ := lay_cons_eq_ok_iff.mp laid
    exact (ih rest).trans rfl

/-- The rows of an origin without faults are the run of the pipeline that is this origin. -/
theorem runs_ofOrigin {origin last : Origin} {rows : List Row}
    (drains : Drains Origin.next origin rows none last) :
    Runs (ofOrigin origin) rows (ofOrigin last) := by
  generalize clean : none = fault? at drains
  induction drains with
  | ended found => exact .done (next_of_end (ofOrigin _) found)
  | failed => simp at clean
  | pulled found _ ih => exact .pull (next_of_row (ofOrigin _) found) (ih clean)

/-- A pipeline that has ended stays as it is. -/
theorem next_of_ended {pipeline after : Pipeline} (ended : pipeline.next = (.ok none, after)) :
    after.next = (.ok none, after) := by
  fun_induction Pipeline.next pipeline with
  | case1 => simp at ended
  | case2 pipeline origin found =>
    obtain ⟨-, rfl⟩ := Prod.mk.inj ended
    exact next_of_end _ (Origin.next_of_ended found)
  | case3 => simp at ended
  | case4 _ _ _ _ _ _ ih => exact ih ended

/-- A pull takes the first row off a run; past its end the run stays empty. -/
theorem Runs.next {pipeline after : Pipeline} {rows : List Row} (run : Runs pipeline rows after) :
    pipeline.next.1 = .ok rows.head? ∧ ∃ last, Runs pipeline.next.2 rows.tail last := by
  cases run with
  | done ended =>
    rw [ended]
    exact ⟨rfl, after, .done (next_of_ended ended)⟩
  | pull yielded rest =>
    rw [yielded]
    exact ⟨rfl, after, rest⟩

/-- A pull reads on until a row passes or the source ends, and keeps the tally. -/
theorem tallied_next {pipeline : Pipeline} {left : List Row} {last : Origin} {taken returned : Nat}
    (drains : Drains Origin.next pipeline.origin left none last)
    (tallied : Stage.Tallied taken pipeline.stages returned) :
    ∃ answer read rest, pipeline.next.1 = .ok answer ∧ left = read ++ rest ∧
      Drains Origin.next pipeline.next.2.origin rest none last ∧
      Stage.Tallied (taken + read.length) pipeline.next.2.stages
        (returned + answer.toList.length) := by
  fun_induction Pipeline.next pipeline generalizing left taken with
  | case1 pipeline fault origin found =>
    cases drains <;> simp_all
  | case2 pipeline origin found =>
    cases drains with
    | ended ended =>
      obtain ⟨-, rfl⟩ := Prod.mk.inj (found.symm.trans ended)
      exact ⟨none, [], [], rfl, rfl, .ended (Origin.next_of_ended found), tallied⟩
    | pulled yielded => simp [found] at yielded
  | case3 pipeline row origin found passed stages offered =>
    cases drains with
    | ended ended => simp [found] at ended
    | @pulled _ middle _ first rest _ yielded drains =>
      obtain ⟨-, rfl⟩ := Prod.mk.inj (found.symm.trans yielded)
      have kept := tallied.offerAll row
      rw [offered] at kept
      exact ⟨some passed, [first], rest, rfl, rfl, drains, kept⟩
  | case4 pipeline row origin found stages offered ih =>
    cases drains with
    | ended ended => simp [found] at ended
    | @pulled _ middle _ first others _ yielded drains =>
      obtain ⟨-, rfl⟩ := Prod.mk.inj (found.symm.trans yielded)
      have kept := tallied.offerAll row
      rw [offered] at kept
      obtain ⟨answer, read, rest, answered, rfl, later, tallied⟩ := ih drains kept
      refine ⟨answer, first :: read, rest, answered, rfl, later, ?_⟩
      rwa [Nat.add_right_comm] at tallied

/-- Pull by pull a pipeline returns the rows of its run and then nothing, and keeps the tally. -/
theorem tallied_pulled {pipeline after : Pipeline} {rows left : List Row} {last : Origin}
    {taken returned : Nat} (run : Runs pipeline rows after)
    (drains : Drains Origin.next pipeline.origin left none last)
    (tallied : Stage.Tallied taken pipeline.stages returned) (pulls : Nat) :
    (pipeline.pulled pulls).next.1 = .ok rows[pulls]? ∧
      ∃ read rest, left = read ++ rest ∧
        Drains Origin.next (pipeline.pulled pulls).origin rest none last ∧
        Stage.Tallied (taken + read.length) (pipeline.pulled pulls).stages
          (returned + (rows.take pulls).length) := by
  induction pulls generalizing pipeline after left taken returned rows with
  | zero =>
    refine ⟨?_, [], left, rfl, drains, by rwa [List.take_zero]⟩
    rw [← List.head?_eq_getElem?]
    exact run.next.1
  | succ pulls ih =>
    obtain ⟨head, others, runs⟩ := run.next
    obtain ⟨answer, read, rest, answered, rfl, drains, kept⟩ := tallied_next drains tallied
    obtain rfl : answer = rows.head? := Except.ok.inj (answered.symm.trans head)
    obtain ⟨later, more, remaining, rfl, drained, counted⟩ := ih runs drains kept
    have step : rows.head?.toList.length + (rows.tail.take pulls).length =
        (rows.take (pulls + 1)).length := by
      cases rows <;> simp [Nat.add_comm]
    refine ⟨?_, read ++ more, remaining, (List.append_assoc ..).symm, drained, ?_⟩
    · rw [← List.getElem?_tail]
      exact later
    · rw [Nat.add_assoc, Nat.add_assoc, step, ← List.length_append] at counted
      exact counted

/-- The filters of a chain without choices of columns find their columns below the chain. -/
theorem listed_of_lay {below pipeline : Pipeline} {chain : List Link}
    (whole : ∀ link ∈ chain, link.columns = none) (laid : below.lay chain = .ok pipeline) :
    ∀ condition ∈ (Link.conjunction chain).conditions, condition.column ∈ below.names := by
  induction chain generalizing below with
  | nil => simp [Link.conjunction]
  | cons link above ih =>
    obtain ⟨first, others⟩ := List.forall_mem_cons.mp whole
    obtain ⟨stage, bound, rest⟩ := lay_cons_eq_ok_iff.mp laid
    have same := names_of_addStage (addStage_eq_ok_iff.mpr ⟨stage, bound, rfl⟩)
    rw [first, Option.getD_none] at same
    obtain ⟨tests, -, filtered, -, -⟩ := Stage.bind_eq_ok_iff.mp bound
    rw [Link.conditions_conjunction_cons, List.forall_mem_append]
    exact ⟨Filter.exists_bind_iff.mp ⟨tests, filtered⟩, same ▸ ih others rest⟩

/-- Instead of a chain without choices of columns one stage with the conjunction of its filters can
be laid, and lets through the same. -/
theorem Runs.conjoined {below pipeline after : Pipeline} {rows : List Row} {chain : List Link}
    (run : Runs below rows after) (aligned : ∀ row ∈ rows, row.names = below.names)
    (whole : ∀ link ∈ chain, link.columns = none) (laid : below.lay chain = .ok pipeline) :
    ∃ single last, below.addStage (Link.conjunction chain) none = .ok single ∧
      Runs single ((rows.filter (Link.Passes chain ·)).map (Link.shown chain)) last := by
  have listed := listed_of_lay whole laid
  obtain ⟨bound, binds⟩ := Filter.exists_bind_iff.mpr listed
  have passing : (rows.filter (Link.Passes chain ·)).map (Link.shown chain) =
      (filterStage bound below.names).passing rows := by
    have unchanged : Link.shown chain = id := funext (Link.shown_of_unprojected whole)
    rw [passing_filterStage, unchanged, List.map_id]
    refine List.filter_congr fun row member => ?_
    rw [← aligned row member] at binds listed
    have together := Link.passes_iff_conjunction whole listed
    rw [Filter.eval_eq_accepts binds, Except.ok.injEq] at together
    simp [together]
  rw [passing]
  exact ⟨_, _, addStage_unprojected binds, run.withStage (filterStage bound below.names)⟩

/-- Every chain of stages that can be laid over a source without faults collects the rows of the
source of which every filter is true, each asked of the row as the stages before show it, as all
stages together show them, in the order of the source. If no stage chooses columns, one stage with
the conjunction of the filters can be laid instead and collects the same. Single pulls return these
rows one by one and then nothing. After any number of pulls the lowest stage has looked at the rows
read from the source so far, each other stage at those that the one below let through, none has let
through more than it looked at, and the outermost let through as many as were returned. -/
theorem lay_composes {origin last : Origin} {rows : List Row} {chain : List Link}
    {pipeline : Pipeline} (faultless : Drains Origin.next origin rows none last)
    (laid : (ofOrigin origin).lay chain = .ok pipeline) :
    ∃ result, result = (rows.filter (Link.Passes chain ·)).map (Link.shown chain) ∧
      pipeline.collect.1 = .ok result ∧
      ((∀ link ∈ chain, link.columns = none) →
        ∃ single, (ofOrigin origin).addStage (Link.conjunction chain) none = .ok single ∧
          single.collect.1 = .ok result) ∧
      ∀ pulls, (pipeline.pulled pulls).next.1 = .ok result[pulls]? ∧
        ∃ read left, rows = read ++ left ∧
          Drains Origin.next (pipeline.pulled pulls).origin left none last ∧
          Stage.Tallied read.length (pipeline.pulled pulls).stages (result.take pulls).length := by
  have ground := runs_ofOrigin faultless
  obtain ⟨top, run⟩ := ground.lay trivial laid
  refine ⟨_, rfl, congrArg Prod.fst run.collect, fun whole => ?_, fun pulls => ?_⟩
  · obtain ⟨single, last, conjoined, alike⟩ :=
      ground.conjoined (aligned_of_origin faultless) whole laid
    exact ⟨single, conjoined, congrArg Prod.fst alike.collect⟩
  · have start : Drains Origin.next pipeline.origin rows none last :=
      (origin_lay laid).symm ▸ faultless
    have unstaged : Stage.Tallied 0 (ofOrigin origin).stages 0 := rfl
    have fresh := tallied_lay unstaged laid
    simpa only [Nat.zero_add] using tallied_pulled run start fresh pulls

/-- The first stage drops the row without a medal and all years, and the second keeps what is gold,
so that one row is left and the second pull ends. -/
theorem lay_composes_of_two_stages :
    let rows : List Row :=
      [⟨["Year", "Medal"], [.integer 2012, .text "Gold"], rfl⟩,
        ⟨["Year", "Medal"], [.integer 2016, .missing], rfl⟩,
        ⟨["Year", "Medal"], [.integer 2020, .text "Silver"], rfl⟩]
    let chain : List Link :=
      [⟨⟨[.present "Medal"]⟩, some ["Medal"]⟩, ⟨⟨[.equals "Medal" (.text "Gold")]⟩, none⟩]
    ∃ pipeline, (ofRows ["Year", "Medal"] rows).lay chain = .ok pipeline ∧
      pipeline.collect.1 = .ok [⟨["Medal"], [.text "Gold"], rfl⟩] ∧
      (pipeline.pulled 1).next.1 = .ok none ∧
      ∃ taken, Stage.Tallied taken (pipeline.pulled 2).stages 1 := by
  intro rows chain
  have faultless : Drains Origin.next (.memory ["Year", "Medal"] rows) rows none
      (.memory ["Year", "Medal"] []) :=
    .pulled rfl (.pulled rfl (.pulled rfl (.ended rfl)))
  obtain ⟨pipeline, laid⟩ : ∃ pipeline, (ofRows ["Year", "Medal"] rows).lay chain = .ok pipeline :=
    ⟨_, rfl⟩
  obtain ⟨result, same, collected, -, pulls⟩ := lay_composes faultless laid
  obtain rfl : result = [⟨["Medal"], [.text "Gold"], rfl⟩] := same
  obtain ⟨-, read, -, -, -, tallied⟩ := pulls 2
  exact ⟨pipeline, laid, collected, (pulls 1).1, read.length, tallied⟩

end Pipeline

end Medals
