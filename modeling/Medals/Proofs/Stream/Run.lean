import Medals.Stream.Pipeline

/-!
# Runs of a pipeline

A source is drained by pulling until it ends or fails (`Drains`). `Pipeline.Runs` is a whole run:
all pulls up to the end of a source without faults. Every fold over a pipeline is a fold over the
rows of its run (`Runs.fold`), and a stage on top of a pipeline filters and projects the rows of the
run below it and counts them (`Runs.withStage`), and hides no fault of it (`runs_of_withStage`). A
run that ends in a fault is no `Runs`.
-/

namespace Medals

/-- The rows pulled from a source until it ends or fails, the fault it fails with if it does, and
the source afterwards. -/
inductive Drains {σ : Type} (next : σ → Except Fault (Option Row) × σ) :
    σ → List Row → Option Fault → σ → Prop where
  | ended {source after : σ} (found : next source = (.ok none, after)) :
      Drains next source [] none after
  | failed {source after : σ} {fault : Fault} (found : next source = (.error fault, after)) :
      Drains next source [] (some fault) after
  | pulled {source middle after : σ} {row : Row} {rows : List Row} {fault? : Option Fault}
      (found : next source = (.ok (some row), middle)) (rest : Drains next middle rows fault? after) :
      Drains next source (row :: rows) fault? after

section Drains

variable {σ : Type} {next : σ → Except Fault (Option Row) × σ}

/-- A source of which every row leaves less can be drained. -/
theorem exists_drains (left : σ → Nat)
    (less : ∀ {source after row}, next source = (.ok (some row), after) → left after < left source)
    (source : σ) : ∃ rows fault? after, Drains next source rows fault? after := by
  induction size : left source using Nat.strongRecOn generalizing source with
  | ind size ih =>
    cases found : next source with
    | mk answer middle =>
      match answer with
      | .error fault => exact ⟨[], some fault, middle, .failed found⟩
      | .ok none => exact ⟨[], none, middle, .ended found⟩
      | .ok (some row) =>
        obtain ⟨rows, fault?, after, rest⟩ := ih _ (size ▸ less found) middle rfl
        exact ⟨row :: rows, fault?, after, .pulled found rest⟩

theorem Drains.of_next_eq {source other after : σ} {rows : List Row} {fault? : Option Fault}
    (drains : Drains next other rows fault? after) (same : next source = next other) :
    Drains next source rows fault? after := by
  cases drains with
  | ended found => exact .ended (same.trans found)
  | failed found => exact .failed (same.trans found)
  | pulled found rest => exact .pulled (same.trans found) rest

end Drains

namespace Pipeline

theorem next_of_fault (pipeline : Pipeline) {origin : Origin} {fault : Fault}
    (found : pipeline.origin.next = (.error fault, origin)) :
    pipeline.next = (.error fault, { pipeline with origin }) := by
  rw [Pipeline.next]
  split <;> simp_all

theorem next_of_end (pipeline : Pipeline) {origin : Origin}
    (found : pipeline.origin.next = (.ok none, origin)) :
    pipeline.next = (.ok none, { pipeline with origin }) := by
  rw [Pipeline.next]
  split <;> simp_all

/-- A row from the origin is offered to the stages, and pulled past when one refuses it. -/
theorem next_of_row (pipeline : Pipeline) {origin : Origin} {row : Row}
    (found : pipeline.origin.next = (.ok (some row), origin)) :
    pipeline.next =
      match Stage.offerAll pipeline.stages row with
      | (some row, stages) => (.ok (some row), ⟨origin, stages⟩)
      | (none, stages) => next ⟨origin, stages⟩ := by
  rw [Pipeline.next]
  split
  · simp_all
  · simp_all
  · next other after same =>
    obtain ⟨rfl, rfl⟩ : row = other ∧ origin = after := by simpa using found.symm.trans same
    rfl

/-- The rows pulled from a pipeline up to its end, and the pipeline afterwards. -/
inductive Runs : Pipeline → List Row → Pipeline → Prop where
  | done {pipeline after : Pipeline} (ended : pipeline.next = (.ok none, after)) :
      Runs pipeline [] after
  | pull {pipeline middle after : Pipeline} {row : Row} {rows : List Row}
      (pulled : pipeline.next = (.ok (some row), middle)) (rest : Runs middle rows after) :
      Runs pipeline (row :: rows) after

/-- A run is a pipeline drained without a fault. -/
theorem runs_iff_drains {pipeline after : Pipeline} {rows : List Row} :
    Runs pipeline rows after ↔ Drains next pipeline rows none after := by
  constructor
  · intro run
    induction run with
    | done ended => exact .ended ended
    | pull pulled _ ih => exact .pulled pulled ih
  · intro drains
    generalize clean : none = fault? at drains
    induction drains with
    | ended found => exact .done found
    | failed => simp at clean
    | pulled found _ ih => exact .pull found (ih clean)

/-- A fold drains the pipeline, and fails if that does. -/
theorem fold_of_drains {α : Type} {pipeline after : Pipeline} {rows : List Row}
    {fault? : Option Fault} (drains : Drains next pipeline rows fault? after) (step : α → Row → α)
    (state : α) :
    pipeline.fold step state = (fault?.elim (.ok (rows.foldl step state)) .error, after) := by
  induction drains generalizing state with
  | ended found =>
    rw [Pipeline.fold]
    split <;> simp_all
  | failed found =>
    rw [Pipeline.fold]
    split <;> simp_all
  | pulled found _ ih =>
    rw [Pipeline.fold]
    split <;> simp_all

/-- A fold over a pipeline is a fold over the rows of its run. -/
theorem Runs.fold {α : Type} {pipeline after : Pipeline} {rows : List Row}
    (run : Runs pipeline rows after) (step : α → Row → α) (state : α) :
    pipeline.fold step state = (.ok (rows.foldl step state), after) :=
  fold_of_drains (runs_iff_drains.mp run) step state

/-- A fold that succeeds has seen a whole run. -/
theorem runs_of_fold {α : Type} {step : α → Row → α} {state result : α}
    {pipeline after : Pipeline} (success : pipeline.fold step state = (.ok result, after)) :
    ∃ rows, Runs pipeline rows after := by
  fun_induction Pipeline.fold step state pipeline with
  | case1 => simp at success
  | case2 _ _ _ ended =>
    obtain ⟨_, rfl⟩ := Prod.mk.inj success
    exact ⟨[], .done ended⟩
  | case3 _ _ row _ pulled ih =>
    obtain ⟨rows, run⟩ := ih success
    exact ⟨row :: rows, .pull pulled run⟩

theorem Runs.collect {pipeline after : Pipeline} {rows : List Row}
    (run : Runs pipeline rows after) : pipeline.collect = (.ok rows, after) := by
  simp [Pipeline.collect, run.fold, Except.map]

/-- A source is free of faults exactly when it has a run. -/
theorem collect_eq_ok_iff {pipeline after : Pipeline} {rows : List Row} :
    pipeline.collect = (.ok rows, after) ↔ Runs pipeline rows after := by
  refine Iff.intro ?_ Runs.collect
  intro success
  obtain ⟨others, run⟩ : ∃ others, Runs pipeline others after := by
    unfold Pipeline.collect at success
    cases folded : pipeline.fold (fun rows row => row :: rows) [] with
    | mk result final =>
      rw [folded] at success
      cases result with
      | error => simp [Except.map] at success
      | ok => exact runs_of_fold (folded.trans (Prod.ext rfl (Prod.mk.inj success).2))
  rw [run.collect] at success
  obtain ⟨same, _⟩ := Prod.mk.inj success
  rw [← Except.ok.inj same]
  exact run

theorem Runs.of_next_eq {pipeline other after : Pipeline} {rows : List Row}
    (run : Runs other rows after) (same : pipeline.next = other.next) :
    Runs pipeline rows after := by
  cases run with
  | done ended => exact .done (same.trans ended)
  | pull pulled rest => exact .pull (same.trans pulled) rest

/-- Rows in memory that are laid out as expected are a run. -/
theorem runs_ofRows {names : List String} {rows : List Row}
    (aligned : ∀ row ∈ rows, row.names = names) :
    Runs (ofRows names rows) rows (ofRows names []) := by
  induction rows with
  | nil => exact .done (next_of_end _ rfl)
  | cons row rest ih =>
    have expected : (ofRows names (row :: rest)).origin.next =
        (.ok (some row), .memory names rest) := by
      simp [ofRows, ofOrigin, Origin.next, aligned row List.mem_cons_self]
    exact .pull (next_of_row _ expected) (ih fun other later =>
      aligned other (List.mem_cons_of_mem row later))

section Stages

/-- The pipeline under one more stage. -/
def withStage (pipeline : Pipeline) (stage : Stage) : Pipeline :=
  { pipeline with stages := pipeline.stages ++ [stage] }

theorem offerAll_append (stages : List Stage) (top : Stage) (row : Row) :
    Stage.offerAll (stages ++ [top]) row =
      match Stage.offerAll stages row with
      | (none, stages) => (none, stages ++ [top])
      | (some row, stages) =>
        match top.offer row with
        | (passed, top) => (passed, stages ++ [top]) := by
  induction stages generalizing row with
  | nil =>
    simp only [List.nil_append, Stage.offerAll]
    cases top.offer row with
    | mk passed top => cases passed <;> rfl
  | cons stage above ih =>
    rw [List.cons_append, Stage.offerAll, Stage.offerAll]
    cases stage.offer row with
    | mk passed stage =>
      cases passed with
      | none => rfl
      | some row =>
        simp only [ih]
        cases Stage.offerAll above row with
        | mk passed above => cases passed <;> rfl

/-- The end of a source is the end under a stage. -/
theorem next_withStage_of_end {pipeline after : Pipeline} (top : Stage)
    (ended : pipeline.next = (.ok none, after)) :
    (pipeline.withStage top).next = (.ok none, after.withStage top) := by
  fun_induction Pipeline.next pipeline with
  | case1 => simp at ended
  | case2 pipeline origin found =>
    obtain ⟨_, rfl⟩ := Prod.mk.inj ended
    exact next_of_end (pipeline.withStage top) found
  | case3 => simp at ended
  | case4 pipeline row origin found stages offered ih =>
    rw [next_of_row (pipeline.withStage top) found]
    simpa [withStage, offerAll_append, offered] using ih ended

/-- A fault of a source is a fault under a stage. -/
theorem next_withStage_of_fault {pipeline after : Pipeline} {fault : Fault} (top : Stage)
    (failed : pipeline.next = (.error fault, after)) :
    (pipeline.withStage top).next = (.error fault, after.withStage top) := by
  fun_induction Pipeline.next pipeline with
  | case1 pipeline cause origin found =>
    obtain ⟨same, rfl⟩ := Prod.mk.inj failed
    obtain rfl := Except.error.inj same
    exact next_of_fault (pipeline.withStage top) found
  | case2 => simp at failed
  | case3 => simp at failed
  | case4 pipeline row origin found stages offered ih =>
    rw [next_of_row (pipeline.withStage top) found]
    simpa [withStage, offerAll_append, offered] using ih failed

/-- A row that a pipeline yields is offered to a stage on top of it. -/
theorem next_withStage_of_row {pipeline middle : Pipeline} {row : Row} (top : Stage)
    (pulled : pipeline.next = (.ok (some row), middle)) :
    (pipeline.withStage top).next =
      match top.offer row with
      | (some passed, top) => (.ok (some passed), middle.withStage top)
      | (none, top) => (middle.withStage top).next := by
  fun_induction Pipeline.next pipeline with
  | case1 => simp at pulled
  | case2 => simp at pulled
  | case3 pipeline first origin found passed stages offered =>
    obtain ⟨same, rfl⟩ := Prod.mk.inj pulled
    obtain rfl : passed = row := by simpa using same
    rw [next_of_row (pipeline.withStage top) found]
    simp only [withStage, offerAll_append, offered]
    cases top.offer passed with
    | mk result top => cases result <;> rfl
  | case4 pipeline first origin found stages offered ih =>
    rw [next_of_row (pipeline.withStage top) found]
    simpa [withStage, offerAll_append, offered] using ih pulled

end Stages

end Pipeline

namespace Stage

/-- The rows of those below that a stage lets through, as it shows them. -/
def passing (stage : Stage) (rows : List Row) : List Row :=
  (rows.filter stage.filter.accepts).map (Projection.applyOptional stage.projection)

/-- A stage after it has looked at some rows. -/
def counted (stage : Stage) (rows : List Row) : Stage :=
  { stage with
    scanned := stage.scanned + rows.length
    matched := stage.matched + (rows.filter stage.filter.accepts).length }

theorem offer_eq (stage : Stage) (row : Row) :
    stage.offer row =
      (if stage.filter.accepts row then some (Projection.applyOptional stage.projection row)
        else none, stage.counted [row]) := by
  unfold offer counted
  split <;> simp_all

theorem counted_counted (stage : Stage) (row : Row) (rows : List Row) :
    (stage.counted [row]).counted rows = stage.counted (row :: rows) := by
  cases accepted : stage.filter.accepts row <;> simp [counted, accepted] <;> omega

end Stage

namespace Pipeline

/-- A stage on top of a pipeline that is drained yields what it lets through, has counted the rows
below it, and fails as the pipeline does. -/
theorem drains_withStage {pipeline after : Pipeline} {rows : List Row} {fault? : Option Fault}
    (drains : Drains next pipeline rows fault? after) (top : Stage) :
    Drains next (pipeline.withStage top) (top.passing rows) fault?
      (after.withStage (top.counted rows)) := by
  induction drains generalizing top with
  | ended found => exact .ended (next_withStage_of_end top found)
  | failed found => exact .failed (next_withStage_of_fault top found)
  | @pulled pipeline middle after row rows fault? found _ ih =>
    have next := next_withStage_of_row top found
    have rest := ih (top.counted [row])
    rw [Stage.counted_counted] at rest
    rw [Stage.offer_eq] at next
    cases accepted : top.filter.accepts row with
    | true =>
      rw [accepted] at next
      have passing : top.passing (row :: rows) =
          Projection.applyOptional top.projection row :: (top.counted [row]).passing rows := by
        simp [Stage.passing, Stage.counted, accepted]
      rw [passing]
      exact .pulled next rest
    | false =>
      rw [accepted] at next
      have passing : top.passing (row :: rows) = (top.counted [row]).passing rows := by
        simp [Stage.passing, Stage.counted, accepted]
      rw [passing]
      exact rest.of_next_eq next

/-- A stage on top of a pipeline yields what it lets through of a run, and has counted its rows. -/
theorem Runs.withStage {pipeline after : Pipeline} {rows : List Row}
    (run : Runs pipeline rows after) (top : Stage) :
    Runs (pipeline.withStage top) (top.passing rows) (after.withStage (top.counted rows)) :=
  runs_iff_drains.mpr (drains_withStage (runs_iff_drains.mp run) top)

/-- What runs under a stage runs without it: a stage hides no fault. -/
theorem runs_of_withStage {pipeline after : Pipeline} {top : Stage} {rows : List Row}
    (run : Runs (pipeline.withStage top) rows after) :
    ∃ all last, Runs pipeline all last := by
  induction left : pipeline.origin.remaining using Nat.strongRecOn
    generalizing pipeline top rows with
  | ind size ih =>
    cases pulled : pipeline.next with
    | mk answer middle =>
      match answer with
      | .error fault =>
        have failed := next_withStage_of_fault top pulled
        cases run with
        | done ended => simp [failed] at ended
        | pull yielded => simp [failed] at yielded
      | .ok none => exact ⟨[], middle, .done pulled⟩
      | .ok (some row) =>
        have smaller : middle.origin.remaining < size := left ▸ next_remaining_lt pulled
        have offered := next_withStage_of_row top pulled
        obtain ⟨all, last, rest⟩ : ∃ all last, Runs middle all last := by
          rw [Stage.offer_eq] at offered
          cases accepted : top.filter.accepts row with
          | false =>
            rw [accepted] at offered
            exact ih _ smaller (run.of_next_eq offered.symm) rfl
          | true =>
            rw [accepted] at offered
            cases run with
            | done ended => simp [offered] at ended
            | pull yielded rest =>
              obtain ⟨_, rfl⟩ := Prod.mk.inj (offered.symm.trans yielded)
              exact ih _ smaller rest rfl
        exact ⟨row :: all, last, .pull pulled rest⟩

end Pipeline

end Medals
