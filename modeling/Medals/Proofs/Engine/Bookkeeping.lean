import Mathlib.Data.List.Basic
import Mathlib.Data.List.Induction
import Mathlib.Data.Set.List
import Medals.Engine.Cache

/-!
# What a table cache remembers and counts

`CacheRun` is a cache in use: it is asked for tables, and tables are forgotten, in any order and under
any paths. Loaders act on a world of their own, so that they may fail or give another table each
time, and the fingerprints they are asked with may change, change back or be missing.
`CacheRun.hit_iff_lastLoad` says what a question is answered with by the history alone: the table of
`LastLoad` if its fingerprint is the one asked with, and otherwise what the loader gives, which is
run in no other case.
-/

namespace Medals

/-- What gives a table when it is run, in a world that it may change. -/
abbrev TableLoader (World : Type) := World → Except Fault Table × World

namespace TableCache

variable {World : Type} {cache : TableCache} {path other : String} {fingerprint : Digest}
  {fingerprint? : Option Digest} {table : Table}

/-- `getOrLoad` with a loader that is run only when what it gives is needed. -/
def getOrRun (cache : TableCache) (path : String) (fingerprint? : Option Digest)
    (loader : TableLoader World) (world : World) : (Except Fault Table × TableCache) × World :=
  match fingerprint? with
  | none =>
    match loader world with
    | (loaded, world) => ((loaded, cache.countMiss), world)
  | some fingerprint =>
    match cache.fresh? path fingerprint with
    | some table => ((.ok table, cache.countHit), world)
    | none =>
      match loader world with
      | (.ok table, world) => ((.ok table, cache.countMiss.remember path fingerprint table), world)
      | (.error fault, world) => ((.error fault, cache.countMiss), world)

/-- The cache after a load: it counts as a miss, and a table is remembered if there is a fingerprint
to remember it under. -/
def afterLoad (cache : TableCache) (path : String) (fingerprint? : Option Digest)
    (loaded : Except Fault Table) : TableCache :=
  match fingerprint?, loaded with
  | some fingerprint, .ok table => cache.countMiss.remember path fingerprint table
  | _, _ => cache.countMiss

@[simp] theorem afterLoad_hits (loaded : Except Fault Table) :
    (cache.afterLoad path fingerprint? loaded).hits = cache.hits := by
  unfold afterLoad
  split <;> rfl

@[simp] theorem afterLoad_misses (loaded : Except Fault Table) :
    (cache.afterLoad path fingerprint? loaded).misses = cache.misses + 1 := by
  unfold afterLoad
  split <;> rfl

/-- A load that fails leaves the entries as they were. -/
theorem afterLoad_error_entries (fault : Fault) :
    (cache.afterLoad path fingerprint? (.error fault)).entries = cache.entries := by
  cases fingerprint? <;> rfl

/-- The answer and the cache are those of `getOrLoad` with what the loader would give. -/
theorem getOrRun_fst (loader : TableLoader World) (world : World) :
    (cache.getOrRun path fingerprint? loader world).1 =
      cache.getOrLoad path fingerprint? (loader world).1 := by
  unfold getOrRun getOrLoad
  cases fingerprint? with
  | none => rfl
  | some fingerprint =>
    dsimp only
    cases cache.fresh? path fingerprint with
    | some table => rfl
    | none => cases loader world with | mk loaded world => cases loaded <;> rfl

theorem fresh?_eq_some_iff : cache.fresh? path fingerprint = some table ↔
    ∃ entry, cache.entry? path = some entry ∧ entry.fingerprint = fingerprint ∧
      entry.table = table := by
  unfold fresh?
  cases cache.entry? path <;> simp

/-- A remembered table under the fingerprint asked with is the answer, and no loader is run. -/
theorem getOrRun_of_fresh (fresh : cache.fresh? path fingerprint = some table)
    (loader : TableLoader World) (world : World) :
    cache.getOrRun path (some fingerprint) loader world = ((.ok table, cache.countHit), world) := by
  simp only [getOrRun, fresh]

/-- In every other case the answer is what the loader gives. -/
theorem getOrRun_of_stale (stale : ∀ fingerprint table, fingerprint? = some fingerprint →
      cache.fresh? path fingerprint ≠ some table)
    (loader : TableLoader World) (world : World) :
    cache.getOrRun path fingerprint? loader world =
      (((loader world).1, cache.afterLoad path fingerprint? (loader world).1),
        (loader world).2) := by
  unfold getOrRun
  cases fingerprint? with
  | none => rfl
  | some fingerprint =>
    have unknown : cache.fresh? path fingerprint = none :=
      Option.eq_none_iff_forall_ne_some.mpr fun table => stale fingerprint table rfl
    simp only [unknown]
    cases loader world with | mk loaded world => cases loaded <;> rfl

section Entries

theorem find?_kept (entries : List CachedTable) (place other : Bool × List String) :
    (entries.filter fun entry => entry.place != place).find? (fun entry => entry.place == other) =
      if other = place then none else entries.find? fun entry => entry.place == other := by
  rw [List.find?_filter]
  split
  · next same =>
    subst same
    exact List.find?_eq_none.mpr fun entry _ => by simp
  · next different =>
    refine congrArg (List.find? · entries) (funext fun entry => ?_)
    by_cases found : entry.place = other
    · simp [found, different]
    · simp [found]

theorem entry?_remember : TableCache.entry? (cache.remember path fingerprint table) other =
    if Path.parts other = Path.parts path then some ⟨Path.parts path, fingerprint, table⟩
    else cache.entry? other := by
  rw [TableCache.entry?, remember, List.find?_append, find?_kept]
  by_cases same : Path.parts other = Path.parts path
  · simp [same]
  · simp [same, Ne.symm same, entry?]

theorem entry?_invalidate : TableCache.entry? (cache.invalidate path).2 other =
    if Path.parts other = Path.parts path then none else cache.entry? other :=
  find?_kept cache.entries (Path.parts path) (Path.parts other)

/-- There is one entry for each place, and every place is that of a path. -/
structure Sound (cache : TableCache) : Prop where
  once : (cache.entries.map CachedTable.place).Nodup
  named : ∀ entry ∈ cache.entries, entry.place ∈ Set.range Path.parts

theorem sound_empty : Sound .empty := ⟨List.nodup_nil, by simp [empty]⟩

theorem Sound.keep (sound : cache.Sound) (place : Bool × List String) :
    Sound { cache with entries := cache.entries.filter fun entry => entry.place != place } where
  once := (List.filter_sublist.map _).nodup sound.once
  named entry listed := sound.named entry (List.mem_of_mem_filter listed)

theorem Sound.remember (sound : cache.Sound) (path : String) (fingerprint : Digest)
    (table : Table) : Sound (cache.remember path fingerprint table) := by
  have kept := sound.keep (Path.parts path)
  constructor
  case once =>
    rw [TableCache.remember, List.map_append, List.map_singleton]
    refine List.nodup_append.mpr ⟨kept.once, by simp, ?_⟩
    intro place listed last only same
    obtain ⟨entry, held, rfl⟩ := List.mem_map.mp listed
    simpa [same.trans (List.mem_singleton.mp only)] using (List.mem_filter.mp held).2
  case named =>
    intro entry listed
    rcases List.mem_append.mp listed with before | last
    · exact kept.named entry before
    · rw [List.mem_singleton.mp last]
      exact Set.mem_range_self path

/-- The entries of a sound cache stand for as many paths. -/
theorem Sound.exists_paths (sound : cache.Sound) :
    ∃ paths : List String, (paths.map Path.parts).Nodup ∧ paths.length = cache.entries.length ∧
      ∀ path, Path.parts path ∈ paths.map Path.parts ↔ ∃ entry, cache.entry? path = some entry := by
  have places : cache.entries.map CachedTable.place ∈ Set.range (List.map Path.parts) := by
    rw [Set.range_list_map]
    exact List.forall_mem_map.mpr sound.named
  obtain ⟨paths, same⟩ := places
  refine ⟨paths, same ▸ sound.once, by simpa using congrArg List.length same, fun path => ?_⟩
  rw [same, ← Option.isSome_iff_exists, entry?, List.find?_isSome]
  simp

end Entries

end TableCache

/-- What a use of a cache has come to. -/
inductive CacheEvent where
  /-- A remembered table was the answer. -/
  | hit
  /-- A loader was run for a path. -/
  | load (path : String) (fingerprint? : Option Digest) (outcome : Except Fault Table)
  | invalidated (path : String)
  | cleared

/-- The event decides what is remembered of a path: it is a successful load under a fingerprint, or
the table of the path is forgotten. -/
def CacheEvent.Settles (path : String) : CacheEvent → Prop
  | .load other (some _) (.ok _) => Path.parts other = Path.parts path
  | .invalidated other => Path.parts other = Path.parts path
  | .cleared => True
  | _ => False

/-- The table was given by the most recent successful load of the path under a fingerprint, which is
this one, and has not been forgotten since. -/
def LastLoad (history : List CacheEvent) (path : String) (fingerprint : Digest) (table : Table) :
    Prop :=
  ∃ before other after, history = before ++ .load other (some fingerprint) (.ok table) :: after ∧
    Path.parts other = Path.parts path ∧ ∀ event ∈ after, ¬ event.Settles path

theorem not_lastLoad_nil {path : String} {fingerprint : Digest} {table : Table} :
    ¬ LastLoad [] path fingerprint table := by
  rintro ⟨before, other, after, split, -⟩
  simp at split

/-- One more event is the most recent load, or leaves the one before as it is. -/
theorem lastLoad_concat {history : List CacheEvent} {event : CacheEvent} {path : String}
    {fingerprint : Digest} {table : Table} :
    LastLoad (history ++ [event]) path fingerprint table ↔
      (∃ other, event = .load other (some fingerprint) (.ok table) ∧
        Path.parts other = Path.parts path) ∨
      (¬ event.Settles path ∧ LastLoad history path fingerprint table) := by
  constructor
  · rintro ⟨before, other, after, split, same, unsettled⟩
    obtain rfl | ⟨front, last, rfl⟩ := after.eq_nil_or_concat'
    · obtain ⟨-, rfl⟩ := List.append_singleton_inj.mp split
      exact .inl ⟨other, rfl, same⟩
    · rw [← List.cons_append, ← List.append_assoc] at split
      obtain ⟨rfl, rfl⟩ := List.append_singleton_inj.mp split
      refine .inr ⟨unsettled event (by simp), before, other, front, rfl, same, fun one listed => ?_⟩
      exact unsettled one (List.mem_append_left _ listed)
  · rintro (⟨other, rfl, same⟩ | ⟨unsettled, before, other, after, rfl, same, later⟩)
    · exact ⟨history, other, [], rfl, same, by simp⟩
    · refine ⟨before, other, after ++ [event], by simp, same, fun one listed => ?_⟩
      rcases List.mem_append.mp listed with earlier | last
      · exact later one earlier
      · rwa [List.mem_singleton.mp last]

/-- A use of a cache. -/
inductive CacheUse (World : Type) where
  /-- Ask for the table of a path, whose file has a fingerprint if it can be read. -/
  | ask (path : String) (fingerprint? : Option Digest) (loader : TableLoader World)
  | invalidate (path : String)
  | clear

/-- The use asks for a table. -/
def CacheUse.asks {World : Type} : CacheUse World → Bool
  | ask .. => true
  | _ => false

/-- A cache in use: the world of its loaders, and what has happened so far. -/
structure CacheRun (World : Type) where
  cache : TableCache
  world : World
  history : List CacheEvent

namespace CacheRun

variable {World : Type} {run : CacheRun World}

def start (world : World) : CacheRun World := ⟨.empty, world, []⟩

/-- Use the cache once more. A question that adds to the misses goes down as a load. -/
def use (run : CacheRun World) : CacheUse World → CacheRun World
  | .ask path fingerprint? loader =>
    match run.cache.getOrRun path fingerprint? loader run.world with
    | ((answer, cache), world) =>
      ⟨cache, world, run.history ++
        [if cache.misses = run.cache.misses then .hit else .load path fingerprint? answer]⟩
  | .invalidate path => ⟨(run.cache.invalidate path).2, run.world, run.history ++ [.invalidated path]⟩
  | .clear => ⟨run.cache.clear, run.world, run.history ++ [.cleared]⟩

/-- The entries are the last loads of the history. -/
structure Remembers (run : CacheRun World) : Prop where
  sound : run.cache.Sound
  entries : ∀ path fingerprint table,
    run.cache.fresh? path fingerprint = some table ↔ LastLoad run.history path fingerprint table

theorem remembers_start (world : World) : Remembers (start world) :=
  ⟨TableCache.sound_empty, fun _ _ _ => iff_of_false (by simp [start, TableCache.fresh?,
    TableCache.entry?, TableCache.empty]) not_lastLoad_nil⟩

section Use

variable {path : String} {fingerprint? : Option Digest} {loader : TableLoader World}

/-- The question is asked with the fingerprint of the table that is remembered. -/
def Finds (run : CacheRun World) (path : String) (fingerprint? : Option Digest) : Prop :=
  ∃ fingerprint table, fingerprint? = some fingerprint ∧
    LastLoad run.history path fingerprint table

/-- A question that finds a remembered table is answered with it. -/
theorem Remembers.getOrRun_of_lastLoad (remembers : run.Remembers) {fingerprint : Digest}
    {table : Table} (last : LastLoad run.history path fingerprint table)
    (loader : TableLoader World) :
    run.cache.getOrRun path (some fingerprint) loader run.world =
      ((.ok table, run.cache.countHit), run.world) :=
  TableCache.getOrRun_of_fresh ((remembers.entries path fingerprint table).mpr last) loader run.world

/-- Any other question is answered by its loader. -/
theorem Remembers.getOrRun_of_not_finds (remembers : run.Remembers)
    (unknown : ¬ run.Finds path fingerprint?) (loader : TableLoader World) :
    run.cache.getOrRun path fingerprint? loader run.world =
      (((loader run.world).1, run.cache.afterLoad path fingerprint? (loader run.world).1),
        (loader run.world).2) :=
  TableCache.getOrRun_of_stale (fun fingerprint table asked fresh => unknown
    ⟨fingerprint, table, asked, (remembers.entries path fingerprint table).mp fresh⟩) loader run.world

theorem Remembers.use_ask_of_lastLoad (remembers : run.Remembers) {fingerprint : Digest}
    {table : Table} (last : LastLoad run.history path fingerprint table)
    (loader : TableLoader World) :
    run.use (.ask path (some fingerprint) loader) =
      ⟨run.cache.countHit, run.world, run.history ++ [.hit]⟩ := by
  simp only [use, remembers.getOrRun_of_lastLoad last, TableCache.countHit, if_true]

theorem Remembers.use_ask_of_not_finds (remembers : run.Remembers)
    (unknown : ¬ run.Finds path fingerprint?) (loader : TableLoader World) :
    run.use (.ask path fingerprint? loader) =
      ⟨run.cache.afterLoad path fingerprint? (loader run.world).1, (loader run.world).2,
        run.history ++ [.load path fingerprint? (loader run.world).1]⟩ := by
  simp [use, remembers.getOrRun_of_not_finds unknown]

/-- An event that decides nothing goes with the entries as they were. -/
theorem Remembers.unsettled (remembers : run.Remembers) {cache : TableCache} {event : CacheEvent}
    (entries : cache.entries = run.cache.entries) (idle : ∀ path, ¬ event.Settles path)
    (world : World) : Remembers ⟨cache, world, run.history ++ [event]⟩ where
  sound := ⟨entries ▸ remembers.sound.once, entries ▸ remembers.sound.named⟩
  entries path fingerprint table := by
    have known := remembers.entries path fingerprint table
    simp only [TableCache.fresh?, TableCache.entry?, entries] at known ⊢
    rw [known, lastLoad_concat, and_iff_right (idle path)]
    refine (or_iff_right ?_).symm
    rintro ⟨other, rfl, same⟩
    exact idle path same

theorem Remembers.loaded (remembers : run.Remembers) (path : String) (fingerprint : Digest)
    (table : Table) (world : World) :
    Remembers ⟨run.cache.countMiss.remember path fingerprint table, world,
      run.history ++ [.load path (some fingerprint) (.ok table)]⟩ where
  sound :=
    have counted : run.cache.countMiss.Sound := ⟨remembers.sound.once, remembers.sound.named⟩
    counted.remember path fingerprint table
  entries other wanted found := by
    rw [lastLoad_concat, ← remembers.entries, TableCache.fresh?_eq_some_iff,
      TableCache.fresh?_eq_some_iff, TableCache.entry?_remember]
    by_cases same : Path.parts other = Path.parts path
    · simp [same, CacheEvent.Settles]
    · simp [same, Ne.symm same, CacheEvent.Settles, TableCache.entry?, TableCache.countMiss]

theorem Remembers.invalidated (remembers : run.Remembers) (path : String) :
    (run.use (.invalidate path)).Remembers where
  sound := remembers.sound.keep (Path.parts path)
  entries other wanted found := by
    simp only [use]
    rw [lastLoad_concat, ← remembers.entries, TableCache.fresh?_eq_some_iff,
      TableCache.fresh?_eq_some_iff, TableCache.entry?_invalidate]
    by_cases same : Path.parts other = Path.parts path
    · simp [same, CacheEvent.Settles]
    · simp [same, Ne.symm same, CacheEvent.Settles]

theorem remembers_clear : (run.use .clear).Remembers where
  sound := ⟨List.nodup_nil, by simp [use, TableCache.clear]⟩
  entries path fingerprint table := by
    simp [use, lastLoad_concat, CacheEvent.Settles, TableCache.fresh?, TableCache.entry?,
      TableCache.clear]

/-- Every use keeps the entries the last loads of the history. -/
theorem Remembers.use (remembers : run.Remembers) : ∀ one, (run.use one).Remembers
  | .invalidate path => remembers.invalidated path
  | .clear => remembers_clear
  | .ask path fingerprint? loader => by
    by_cases found : run.Finds path fingerprint?
    · obtain ⟨fingerprint, table, rfl, last⟩ := found
      rw [remembers.use_ask_of_lastLoad last loader]
      refine remembers.unsettled ?_ ?_ run.world
      · rfl
      · simp [CacheEvent.Settles]
    · rw [remembers.use_ask_of_not_finds found loader]
      cases loaded : (loader run.world).1 with
      | error fault =>
        refine remembers.unsettled (TableCache.afterLoad_error_entries fault) ?_ _
        simp [CacheEvent.Settles]
      | ok table =>
        cases fingerprint? with
        | none =>
          refine remembers.unsettled ?_ ?_ _
          · rfl
          · simp [CacheEvent.Settles]
        | some fingerprint => exact remembers.loaded path fingerprint table _

/-- A use adds to the hits or to the misses if it asks for a table, and to neither otherwise. -/
theorem counted_use (one : CacheUse World) :
    (run.use one).cache.hits + (run.use one).cache.misses =
      run.cache.hits + run.cache.misses + if one.asks then 1 else 0 := by
  cases one with
  | invalidate path => rfl
  | clear => rfl
  | ask path fingerprint? loader =>
    simp only [CacheRun.use, CacheUse.asks, if_true]
    by_cases found : ∃ fingerprint table,
        fingerprint? = some fingerprint ∧ run.cache.fresh? path fingerprint = some table
    · obtain ⟨fingerprint, table, rfl, fresh⟩ := found
      simp only [TableCache.getOrRun_of_fresh fresh, TableCache.countHit]
      omega
    · rw [TableCache.getOrRun_of_stale fun fingerprint table asked fresh =>
        found ⟨fingerprint, table, asked, fresh⟩]
      simp only [TableCache.afterLoad_hits, TableCache.afterLoad_misses]
      omega

end Use

/-- What a whole run keeps. -/
theorem remembers_foldl (uses : List (CacheUse World)) (world : World) :
    (uses.foldl use (start world)).Remembers := by
  induction uses using List.reverseRecOn with
  | nil => exact remembers_start world
  | append_singleton uses one kept =>
    rw [List.foldl_append]
    exact kept.use one

theorem counted_foldl (uses : List (CacheUse World)) (world : World) :
    (uses.foldl use (start world)).cache.hits + (uses.foldl use (start world)).cache.misses =
      uses.countP CacheUse.asks := by
  induction uses using List.reverseRecOn with
  | nil => rfl
  | append_singleton uses one counted =>
    rw [List.foldl_append, List.countP_append, ← counted]
    simpa [List.countP_singleton] using counted_use one

/-- In every run, hits and misses add up to the questions, there is one entry for each path with a
load to remember, and a question is a hit exactly if it is asked with the fingerprint of the last
load of its path. A hit gives the table of that load and does not run the loader; a miss gives what
the loader gives, and leaves the entries alone if that is a fault. -/
theorem hit_iff_lastLoad (uses : List (CacheUse World)) (world : World) :
    let run := uses.foldl use (start world)
    run.cache.hits + run.cache.misses = uses.countP CacheUse.asks ∧
    (∃ paths : List String, (paths.map Path.parts).Nodup ∧
      paths.length = run.cache.entries.length ∧
      ∀ path, Path.parts path ∈ paths.map Path.parts ↔
        ∃ fingerprint table, LastLoad run.history path fingerprint table) ∧
    ∀ path fingerprint? (loader : TableLoader World), ∃ answer after left,
      run.cache.getOrRun path fingerprint? loader run.world = ((answer, after), left) ∧
      run.cache.getOrLoad path fingerprint? (loader run.world).1 = (answer, after) ∧
      (after.hits = run.cache.hits + 1 ↔ ∃ fingerprint table,
        fingerprint? = some fingerprint ∧ LastLoad run.history path fingerprint table) ∧
      (∀ fingerprint table, fingerprint? = some fingerprint →
        LastLoad run.history path fingerprint table →
        answer = .ok table ∧ left = run.world ∧ after.misses = run.cache.misses ∧
          after.entries = run.cache.entries) ∧
      (after.hits ≠ run.cache.hits + 1 →
        (answer, left) = loader run.world ∧ after.hits = run.cache.hits ∧
          after.misses = run.cache.misses + 1) ∧
      ∀ fault, answer = .error fault → after.entries = run.cache.entries := by
  intro run
  have remembers : run.Remembers := remembers_foldl uses world
  refine ⟨counted_foldl uses world, ?_, ?_⟩
  · obtain ⟨paths, once, count, listed⟩ := remembers.sound.exists_paths
    refine ⟨paths, once, count, fun path => (listed path).trans ?_⟩
    simp only [← remembers.entries, TableCache.fresh?_eq_some_iff]
    constructor
    · rintro ⟨entry, found⟩
      exact ⟨_, _, entry, found, rfl, rfl⟩
    · rintro ⟨-, -, entry, found, -⟩
      exact ⟨entry, found⟩
  intro path fingerprint? loader
  by_cases found : run.Finds path fingerprint?
  · obtain ⟨fingerprint, table, rfl, last⟩ := found
    have asked := remembers.getOrRun_of_lastLoad last loader
    refine ⟨_, _, _, asked, ?_, ?_, ?_, ?_, ?_⟩
    · rw [← TableCache.getOrRun_fst, asked]
    · exact iff_of_true rfl ⟨fingerprint, table, rfl, last⟩
    · rintro _ other ⟨⟩ same
      have tables := ((remembers.entries path fingerprint table).mpr last).symm.trans
        ((remembers.entries path fingerprint other).mpr same)
      exact ⟨congrArg _ (Option.some.inj tables), rfl, rfl, rfl⟩
    · exact fun missed => absurd rfl missed
    · exact fun _ wrong => nomatch wrong
  · have asked := remembers.getOrRun_of_not_finds found loader
    refine ⟨_, _, _, asked, ?_, ?_, ?_, ?_, ?_⟩
    · rw [← TableCache.getOrRun_fst, asked]
    · exact iff_of_false (by simp) found
    · exact fun fingerprint table same last => absurd ⟨fingerprint, table, same, last⟩ found
    · exact fun _ => ⟨rfl, by simp, by simp⟩
    · intro fault failed
      rw [failed]
      exact TableCache.afterLoad_error_entries fault

end CacheRun

end Medals
