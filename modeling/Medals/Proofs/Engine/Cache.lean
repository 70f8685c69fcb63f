import Medals.Engine.Basic
import Medals.Proofs.Csv.WellFormed
import Medals.Proofs.Engine.Paths
import Medals.Proofs.Stream.Source

/-!
# What the table cache can be trusted with

A cached table is found again by the path and the fingerprint of its file; the way in which it was
read is not part of what it is remembered under. `TableLoad.throughCache_eq_direct` says that loads
on one cache give what they give without it, provided that a path is always read with the same
options and that states of a file with one size and one time of change have the same bytes.
`TableLoad.throughCache_ne_direct` shows that neither can be left out. The engines may be many, and
the files may change from load to load.
-/

namespace Medals

section LittleEndian

theorem length_littleEndian (count value : Nat) : (littleEndian count value).length = count := by
  induction count generalizing value with
  | zero => rfl
  | succ count ih => rw [littleEndian, List.length_cons, ih]

/-- Numbers that fit are told apart by their bytes. -/
theorem littleEndian_injective {count left right : Nat} (leftFits : left < 256 ^ count)
    (rightFits : right < 256 ^ count) (same : littleEndian count left = littleEndian count right) :
    left = right := by
  induction count generalizing left right with
  | zero => omega
  | succ count ih =>
    rw [littleEndian, littleEndian, List.cons.injEq] at same
    obtain ⟨low, high⟩ := same
    have low : left % 256 = right % 256 := by simpa using congrArg UInt8.toNat low
    have high : left / 256 = right / 256 :=
      ih (by omega) (by omega) high
    omega

end LittleEndian

namespace StoredFile

/-- The time of the last change as it is stamped; times before the epoch count as the epoch. -/
def nanoseconds (file : StoredFile) : Nat :=
  file.modified.toNat

/-- The size and the time of change fit the fields that hold them, of 8 and of 16 bytes. -/
def Storable (file : StoredFile) : Prop :=
  file.bytes.length < 256 ^ 8 ∧ file.nanoseconds < 256 ^ 16

instance : DecidablePred Storable := fun _ => inferInstanceAs (Decidable (_ ∧ _))

/-- What the fingerprint of a file condenses. -/
def stamp (file : StoredFile) (path : String) : List (List UInt8) :=
  [littleEndian 8 file.bytes.length, littleEndian 16 file.nanoseconds, Utf8.encode path]

/-- The stamp holds the path, the size and the time of change. -/
theorem stamp_injective {left right : StoredFile} {leftPath rightPath : String}
    (leftFits : left.Storable) (rightFits : right.Storable)
    (same : (left.stamp leftPath).flatten = (right.stamp rightPath).flatten) :
    leftPath = rightPath ∧ left.bytes.length = right.bytes.length ∧
      left.nanoseconds = right.nanoseconds := by
  simp only [stamp, List.flatten_cons, List.flatten_nil, List.append_nil] at same
  obtain ⟨sizes, same⟩ := List.append_inj same (by simp only [length_littleEndian])
  obtain ⟨times, paths⟩ := List.append_inj same (by simp only [length_littleEndian])
  have decoded := congrArg Utf8.decode? paths
  rw [Utf8.decode?_encode, Utf8.decode?_encode] at decoded
  exact ⟨Option.some.inj decoded, littleEndian_injective leftFits.1 rightFits.1 sizes,
    littleEndian_injective leftFits.2 rightFits.2 times⟩

end StoredFile

/-- One load of a table by an engine, with the files at that moment. -/
structure TableLoad where
  engine : Engine
  table : Dataset
  files : Files

namespace TableLoad

/-- What the load gives without a cache. -/
def direct (load : TableLoad) : Except Fault Table :=
  (load.engine.load load.files load.table none).1

/-- What loads give one after the other on one cache. -/
def throughCache (cache? : Option TableCache) : List TableLoad → List (Except Fault Table)
  | [] => []
  | load :: rest =>
    match load.engine.load load.files load.table cache? with
    | (loaded, cache?) => loaded :: throughCache cache? rest

/-- How the load reads its table. -/
def options (load : TableLoad) : ReadOptions :=
  load.engine.settings.readOptionsOf load.table

/-- The load asks the cache for a path that leads to a file. Events never come from the cache. -/
structure Consults (load : TableLoad) (path : String) (file : StoredFile) : Prop where
  small : load.table ≠ .events
  leads : load.engine.settings.path load.table = .ok path
  found : load.files.find path = .file file

/-- A table without a path fails with or without a cache. -/
theorem direct_of_error {load : TableLoad} {fault : Fault}
    (pathless : load.engine.settings.path load.table = .error fault) :
    load.direct = .error fault := by
  change load.engine.readTable load.files load.table = _
  rw [Engine.readTable, Engine.openTable, Engine.openWith, pathless]
  rfl

/-- What a cache does with a load of another table than events. -/
theorem load_of_small {load : TableLoad} (small : load.table ≠ .events) (cache : TableCache) :
    load.engine.load load.files load.table (some cache) =
      match load.engine.settings.path load.table with
      | .error fault => (.error fault, some cache)
      | .ok path =>
        match cache.getOrLoad path (load.files.fingerprint? path) load.direct with
        | (loaded, cache) => (loaded, some cache) := by
  obtain ⟨engine, table, files⟩ := load
  cases table with
  | events => exact absurd rfl small
  | countries => rfl
  | stats => rfl
  | nocCodes => rfl

/-- Events pass the cache by. -/
theorem load_of_events {load : TableLoad} (large : load.table = .events) (cache : TableCache) :
    load.engine.load load.files load.table (some cache) = (load.direct, some cache) := by
  rw [direct, large]
  rfl

section Consulting

variable {load other : TableLoad} {path : String} {file : StoredFile}

theorem Consults.fingerprint (consults : load.Consults path file) :
    load.files.fingerprint? path = some (Digest.ofParts (file.stamp path)) := by
  rw [Files.fingerprint?, consults.found]
  rfl

/-- What a load gives depends on the bytes of the file and the way they are read. -/
theorem Consults.direct_eq (consults : load.Consults path file) :
    load.direct =
      match RowReader.openData file.bytes path load.options with
      | .ok reader => (Pipeline.ofReader reader).toTable.1
      | .error fault => .error (.tableUnavailable load.table fault) := by
  have opened : Engine.openFile load.files path load.options =
      RowReader.openData file.bytes path load.options := by
    rw [Engine.openFile, consults.found]
  have bound : load.engine.openWith load.files load.table load.options =
      match RowReader.openData file.bytes path load.options with
      | .ok reader => .ok reader
      | .error fault => .error (Fault.tableUnavailable load.table fault) := by
    rw [Engine.openWith, consults.leads, ← opened]
    rfl
  change (load.engine.openWith load.files load.table load.options >>= fun reader =>
    (Pipeline.ofReader reader).toTable.1) = _
  rw [bound]
  cases RowReader.openData file.bytes path load.options <;> rfl

/-- A table loaded once is loaded again from the same bytes with the same options. -/
theorem Consults.direct_of_same {file' : StoredFile} {table : Table}
    (consults : load.Consults path file) (again : other.Consults path file')
    (options : load.options = other.options) (bytes : file.bytes = file'.bytes)
    (loaded : load.direct = .ok table) : other.direct = .ok table := by
  rw [consults.direct_eq, options, bytes] at loaded
  rw [again.direct_eq]
  cases opened : RowReader.openData file'.bytes path other.options with
  | error => simp [opened] at loaded
  | ok => simpa [opened] using loaded

/-- A file with a header of distinct names and well-formed records is loaded as its rows. -/
theorem Consults.direct_of_records (consults : load.Consults path file)
    {header : Csv.LinedRecord} {records : List Csv.LinedRecord} {names : List String}
    (read : Csv.recordsOf load.options.delimiter load.options.bufferCapacity file.bytes =
      header :: records)
    (valid : ∀ field ∈ header.2, Utf8.isValid field = true)
    (bound : RowReader.headerNames header.2 = names) (distinct : names.Nodup)
    (wellFormed : ∀ entry ∈ records, ¬ Csv.Malformed names.length entry.2) :
    ∃ table, load.direct = .ok table ∧ table.names = names ∧
      table.rows = records.map fun entry => load.options.rowOf names entry.2 := by
  obtain ⟨reader, opened, same, pulls⟩ :=
    RowReader.pulls_of_records path read valid bound distinct rfl wellFormed
  obtain ⟨table, made, layout, rows⟩ := Pipeline.toTable_of_pulls fun count => (pulls count).1
  refine ⟨table, ?_, layout.trans same, rows⟩
  rw [consults.direct_eq, opened]
  exact made

end Consulting

/-- Nothing but a table of countries at its standard place. -/
def countriesAlone (file : StoredFile) : Files :=
  Files.empty.put ["data", "countries.csv"] file

theorem consults_countriesAlone {engine : Engine}
    (leads : engine.settings.path .countries = .ok "data/countries.csv") (file : StoredFile) :
    Consults ⟨engine, .countries, countriesAlone file⟩ "data/countries.csv" file := by
  refine ⟨Dataset.noConfusion, leads, ?_⟩
  exact Files.find_relative (by decide) (by decide)
    (show Path.segments _ = ["data", "countries.csv"] by decide) rfl rfl

theorem countries_path {engine : Engine} (directory : engine.settings.dataDir = "data")
    (name : engine.settings.countriesFile = "countries.csv") :
    engine.settings.path .countries = .ok "data/countries.csv" := by
  rw [Settings.path, Settings.countriesPath, directory, name, Path.join_data (by decide)]
  rfl

/-- What has to hold of loads for a cache to be trusted with them. -/
structure Trusted (loads : List TableLoad) : Prop where
  /-- One path is always read in one way. -/
  sameOptions : ∀ load ∈ loads, ∀ other ∈ loads, ∀ path file file',
    load.Consults path file → other.Consults path file' → load.options = other.options
  /-- Other bytes under a path show in the size or in the time of change. -/
  changesShow : ∀ load ∈ loads, ∀ other ∈ loads, ∀ path file file',
    load.Consults path file → other.Consults path file' →
      file.bytes.length = file'.bytes.length → file.nanoseconds = file'.nanoseconds →
        file.bytes = file'.bytes
  storable : ∀ load ∈ loads, ∀ path file, load.Consults path file → file.Storable
  /-- No two stamps of the loads have one digest. -/
  noCollision : ∀ load ∈ loads, ∀ other ∈ loads, ∀ path path' file file',
    load.Consults path file → other.Consults path' file' →
      Digest.ofParts (file.stamp path) = Digest.ofParts (file'.stamp path') →
        (file.stamp path).flatten = (file'.stamp path').flatten

theorem Consults.unique {load : TableLoad} {path path' : String} {file file' : StoredFile}
    (consults : load.Consults path file) (again : load.Consults path' file') :
    path = path' ∧ file = file' := by
  obtain rfl : path = path' := Except.ok.inj (consults.leads.symm.trans again.leads)
  exact ⟨rfl, Files.Found.file.inj (consults.found.symm.trans again.found)⟩

/-- Loads of countries by one engine can be trusted to the cache when the states of the file can be
told apart. -/
theorem trusted_countriesAlone {engine : Engine}
    (leads : engine.settings.path .countries = .ok "data/countries.csv") {states : List StoredFile}
    (changesShow : ∀ file ∈ states, ∀ file' ∈ states,
      file.bytes.length = file'.bytes.length → file.nanoseconds = file'.nanoseconds →
        file.bytes = file'.bytes)
    (storable : ∀ file ∈ states, file.Storable)
    (noCollision : ∀ file ∈ states, ∀ file' ∈ states,
      Digest.ofParts (file.stamp "data/countries.csv") =
          Digest.ofParts (file'.stamp "data/countries.csv") →
        (file.stamp "data/countries.csv").flatten = (file'.stamp "data/countries.csv").flatten) :
    Trusted (states.map fun file => ⟨engine, .countries, countriesAlone file⟩) := by
  have known : ∀ load : TableLoad,
      load ∈ states.map (fun file => ⟨engine, .countries, countriesAlone file⟩) →
      ∀ path file, load.Consults path file →
        load.options = engine.settings.readOptionsOf .countries ∧ file ∈ states ∧
          path = "data/countries.csv" := by
    intro load member path file consults
    obtain ⟨state, listed, rfl⟩ := List.mem_map.mp member
    obtain ⟨rfl, rfl⟩ := consults.unique (consults_countriesAlone leads state)
    exact ⟨rfl, listed, rfl⟩
  constructor
  case sameOptions =>
    intro load member other member' path file file' consults again
    rw [(known load member path file consults).1, (known other member' path file' again).1]
  case changesShow =>
    intro load member other member' path file file' consults again
    exact changesShow file (known load member path file consults).2.1 file'
      (known other member' path file' again).2.1
  case storable =>
    intro load member path file consults
    exact storable file (known load member path file consults).2.1
  case noCollision =>
    intro load member other member' path path' file file' consults again
    obtain ⟨_, listed, rfl⟩ := known load member path file consults
    obtain ⟨_, listed', rfl⟩ := known other member' path' file' again
    exact noCollision file listed file' listed'

/-- Every remembered table stems from one of the loads, under the stamp that its file had. -/
def Sound (loads : List TableLoad) (cache : TableCache) : Prop :=
  ∀ entry ∈ cache.entries, ∃ load ∈ loads, ∃ path file, load.Consults path file ∧
    entry.fingerprint = Digest.ofParts (file.stamp path) ∧ load.direct = .ok entry.table

section Run

variable {loads : List TableLoad} {load : TableLoad} {cache : TableCache}

/-- Counting leaves what is remembered as it is. -/
theorem Sound.of_entries {after : TableCache} (sound : Sound loads cache)
    (same : after.entries = cache.entries) : Sound loads after := by
  rw [Sound, same]
  exact sound

theorem Sound.remember {path : String} {file : StoredFile} {table : Table}
    (sound : Sound loads cache) (member : load ∈ loads) (consults : load.Consults path file)
    (loaded : load.direct = .ok table) :
    Sound loads (cache.remember path (Digest.ofParts (file.stamp path)) table) := by
  intro entry listed
  rcases List.mem_append.mp listed with kept | added
  · exact sound entry (List.mem_of_mem_filter kept)
  · obtain rfl := List.mem_singleton.mp added
    exact ⟨load, member, path, file, consults, rfl, loaded⟩

/-- A table is found under a fingerprint only if it would be loaded again now. -/
theorem Sound.direct_of_fresh {path : String} {file : StoredFile} {table : Table}
    (sound : Sound loads cache) (trusted : Trusted loads) (member : load ∈ loads)
    (consults : load.Consults path file)
    (fresh : cache.fresh? path (Digest.ofParts (file.stamp path)) = some table) :
    load.direct = .ok table := by
  unfold TableCache.fresh? at fresh
  cases found : cache.entry? path with
  | none => simp [found] at fresh
  | some entry =>
    simp only [found, Option.ite_none_right_eq_some, Option.some.injEq] at fresh
    obtain ⟨digest, rfl⟩ := fresh
    obtain ⟨earlier, listed, path', file', before, stamped, loaded⟩ :=
      sound entry (List.mem_of_find?_eq_some found)
    have flattened := trusted.noCollision earlier listed load member path' path file' file before
      consults (stamped.symm.trans digest)
    obtain ⟨rfl, sizes, times⟩ := StoredFile.stamp_injective
      (trusted.storable earlier listed path' file' before)
      (trusted.storable load member path file consults) flattened
    exact before.direct_of_same consults
      (trusted.sameOptions earlier listed load member path' file' file before consults)
      (trusted.changesShow earlier listed load member path' file' file before consults sizes times)
      loaded

/-- One load gives what it gives without the cache, and the cache stays sound. -/
theorem Sound.load_eq (sound : Sound loads cache) (trusted : Trusted loads)
    (member : load ∈ loads) :
    ∃ after, load.engine.load load.files load.table (some cache) = (load.direct, some after) ∧
      Sound loads after := by
  by_cases small : load.table = .events
  · exact ⟨cache, load_of_events small cache, sound⟩
  rw [load_of_small small]
  cases leads : load.engine.settings.path load.table with
  | error fault =>
    exact ⟨cache, by rw [direct_of_error leads], sound⟩
  | ok path =>
    cases found : load.files.find path with
    | file file =>
      have consults : load.Consults path file := ⟨small, leads, found⟩
      simp only [consults.fingerprint, TableCache.getOrLoad]
      cases fresh : cache.fresh? path (Digest.ofParts (file.stamp path)) with
      | some table =>
        rw [sound.direct_of_fresh trusted member consults fresh]
        exact ⟨cache.countHit, rfl, sound.of_entries rfl⟩
      | none =>
        cases loaded : load.direct with
        | ok table =>
          exact ⟨_, rfl, (sound.of_entries rfl).remember member consults loaded⟩
        | error fault => exact ⟨cache.countMiss, rfl, sound.of_entries rfl⟩
    | directory =>
      refine ⟨cache.countMiss, ?_, sound.of_entries rfl⟩
      simp [Files.fingerprint?, found, TableCache.getOrLoad]
    | missing cause =>
      refine ⟨cache.countMiss, ?_, sound.of_entries rfl⟩
      simp [Files.fingerprint?, found, TableCache.getOrLoad]

/-- Every load on one cache gives what it gives without the cache. -/
theorem throughCache_eq_direct (trusted : Trusted loads) :
    throughCache (some .empty) loads = loads.map direct := by
  have run : ∀ rest cache, (∀ load ∈ rest, load ∈ loads) → Sound loads cache →
      throughCache (some cache) rest = rest.map direct := by
    intro rest
    induction rest with
    | nil => intro _ _ _; rfl
    | cons load rest ih =>
      intro cache listed sound
      obtain ⟨after, given, later⟩ := sound.load_eq trusted (listed load List.mem_cons_self)
      rw [throughCache, given, List.map_cons,
        ← ih after (fun other more => listed other (List.mem_cons_of_mem load more)) later]
  exact run loads .empty (fun _ member => member) (by simp [Sound, TableCache.empty])

/-- A table is kept while its file stays as it is and loaded again when it has changed. -/
theorem throughCache_of_changed_file :
    ∃ engine : Engine, engine.settings = .standard ∧
      throughCache (some .empty) [⟨engine, .countries, countriesAlone ⟨[97, 10], 1⟩⟩,
          ⟨engine, .countries, countriesAlone ⟨[97, 10], 1⟩⟩,
          ⟨engine, .countries, countriesAlone ⟨[98, 98, 10], 2⟩⟩] =
        [⟨engine, .countries, countriesAlone ⟨[97, 10], 1⟩⟩,
          ⟨engine, .countries, countriesAlone ⟨[97, 10], 1⟩⟩,
          ⟨engine, .countries, countriesAlone ⟨[98, 98, 10], 2⟩⟩].map direct := by
  have leads := @countries_path ⟨.standard, rfl⟩ rfl rfl
  have trusted := @trusted_countriesAlone ⟨.standard, rfl⟩ leads
    [⟨[97, 10], 1⟩, ⟨[97, 10], 1⟩, ⟨[98, 98, 10], 2⟩] (by decide) (by decide) (by decide +kernel)
  exact ⟨⟨.standard, rfl⟩, rfl, throughCache_eq_direct trusted⟩

end Run

section Staleness

/-- A load under the stamp of an earlier one gives the earlier table. -/
theorem throughCache_again {first second : TableLoad} {path : String} {before now : StoredFile}
    {table : Table} (earlier : first.Consults path before) (later : second.Consults path now)
    (same : before.stamp path = now.stamp path) (loaded : first.direct = .ok table)
    {between : List TableLoad} (passing : ∀ load ∈ between, load.table = .events) :
    throughCache (some .empty) (first :: (between ++ [second])) =
      .ok table :: (between.map direct ++ [.ok table]) := by
  have stored : ∃ after, first.engine.load first.files first.table (some .empty) =
      (.ok table, some after) ∧
        after.fresh? path (Digest.ofParts (now.stamp path)) = some table := by
    rw [load_of_small earlier.small, earlier.leads]
    simp only [earlier.fingerprint, TableCache.getOrLoad, loaded, same]
    exact ⟨_, rfl, by simp [TableCache.fresh?, TableCache.entry?, TableCache.remember,
      TableCache.countMiss, TableCache.empty]⟩
  obtain ⟨after, kept, fresh⟩ := stored
  rw [throughCache, kept]
  refine congrArg (Except.ok table :: ·) ?_
  clear kept
  induction between with
  | nil =>
    simp only [List.nil_append, throughCache, load_of_small later.small, later.leads,
      later.fingerprint, TableCache.getOrLoad, fresh, List.map_nil]
  | cons load rest ih =>
    rw [List.cons_append, throughCache, load_of_events (passing load List.mem_cons_self),
      List.map_cons, List.cons_append]
    exact congrArg (load.direct :: ·) (ih fun other more =>
      passing other (List.mem_cons_of_mem load more))

/-- The header alone is loaded as a table of its names. -/
theorem Consults.direct_of_header {load : TableLoad} {path : String} {file : StoredFile}
    (consults : load.Consults path file) {start after last : Csv.Cursor} {header : Csv.Record}
    {names : List String}
    (started : Csv.Cursor.start? load.options.delimiter load.options.bufferCapacity file.bytes =
      some start)
    (first : start.next = (some header, after)) (ended : after.next = (none, last))
    (valid : ∀ field ∈ header, Utf8.isValid field = true)
    (bound : RowReader.headerNames header = names) (distinct : names.Nodup) :
    ∃ table, load.direct = .ok table ∧ table.names = names := by
  have read : Csv.recordsOf load.options.delimiter load.options.bufferCapacity file.bytes =
      [(start.line, header)] := by
    rw [Csv.recordsOf, started]
    simp only [Csv.Cursor.records_of_record first, Csv.Cursor.records_of_end ended]
  obtain ⟨table, loaded, layout, _⟩ :=
    consults.direct_of_records read valid bound distinct (by simp)
  exact ⟨table, loaded, layout⟩

/-- A table that is found again under an old stamp is wrong when the names have changed. -/
theorem throughCache_ne_of_names {first second : TableLoad} {path : String}
    {before now : StoredFile} {table other : Table} (earlier : first.Consults path before)
    (later : second.Consults path now) (same : before.stamp path = now.stamp path)
    (loaded : first.direct = .ok table) (current : second.direct = .ok other)
    (changed : table.names ≠ other.names)
    {between : List TableLoad} (passing : ∀ load ∈ between, load.table = .events) :
    throughCache (some .empty) (first :: (between ++ [second])) ≠
      (first :: (between ++ [second])).map direct := by
  rw [throughCache_again earlier later same loaded passing]
  intro equal
  have lasts : (between.map direct ++ [.ok table]) = between.map direct ++ [.ok other] := by
    simpa [current] using (List.cons.inj equal).2
  have tables : table = other := by simpa using List.append_cancel_left lasts
  exact changed (congrArg Table.names tables)

/-- Without the conditions a cached table can be wrong. -/
theorem throughCache_ne_direct :
    ∃ comma semicolon : Engine, comma.settings = .standard ∧
      semicolon.settings = { Settings.standard with delimiter := ';' } ∧
      ∀ loads ∈ [
        -- Two engines read one file, each in its own way.
        [⟨comma, .countries, countriesAlone ⟨[97, 59, 98, 10], 1⟩⟩,
          ⟨semicolon, .countries, countriesAlone ⟨[97, 59, 98, 10], 1⟩⟩],
        -- A file comes back to a former size and time of change with other bytes.
        [⟨comma, .countries, countriesAlone ⟨[97, 10], 1⟩⟩,
          ⟨comma, .events, countriesAlone ⟨[98, 98, 10], 2⟩⟩,
          ⟨comma, .countries, countriesAlone ⟨[98, 10], 1⟩⟩],
        -- A file changes between two times before the epoch.
        [⟨comma, .countries, countriesAlone ⟨[97, 10], -2⟩⟩,
          ⟨comma, .countries, countriesAlone ⟨[98, 10], -1⟩⟩]],
        throughCache (some .empty) loads ≠ loads.map direct := by
  refine ⟨⟨.standard, rfl⟩, ⟨{ Settings.standard with delimiter := ';' }, rfl⟩, rfl, rfl, ?_⟩
  intro loads listed
  simp only [List.mem_cons, List.not_mem_nil, or_false] at listed
  have commas := @countries_path ⟨.standard, rfl⟩ rfl rfl
  have semicolons := @countries_path ⟨{ Settings.standard with delimiter := ';' }, rfl⟩ rfl rfl
  rcases listed with rfl | rfl | rfl
  · have earlier := consults_countriesAlone commas ⟨[97, 59, 98, 10], 1⟩
    have later := consults_countriesAlone semicolons ⟨[97, 59, 98, 10], 1⟩
    obtain ⟨table, loaded, names⟩ := earlier.direct_of_header rfl rfl rfl (by decide)
      (show RowReader.headerNames [[97, 59, 98]] = ["a;b"] by decide) (by decide)
    obtain ⟨other, current, others⟩ := later.direct_of_header rfl rfl rfl (by decide)
      (show RowReader.headerNames [[97], [98]] = ["a", "b"] by decide) (by decide)
    exact throughCache_ne_of_names earlier later rfl loaded current
      (by rw [names, others]; decide) (List.forall_mem_nil _)
  · have earlier := consults_countriesAlone commas ⟨[97, 10], 1⟩
    have later := consults_countriesAlone commas ⟨[98, 10], 1⟩
    obtain ⟨table, loaded, names⟩ := earlier.direct_of_header rfl rfl rfl (by decide)
      (show RowReader.headerNames [[97]] = ["a"] by decide) (by decide)
    obtain ⟨other, current, others⟩ := later.direct_of_header rfl rfl rfl (by decide)
      (show RowReader.headerNames [[98]] = ["b"] by decide) (by decide)
    exact @throughCache_ne_of_names _ _ _ _ _ _ _ earlier later rfl loaded current
      (by rw [names, others]; decide)
      [⟨⟨.standard, rfl⟩, .events, countriesAlone ⟨[98, 98, 10], 2⟩⟩] (by simp)
  · have earlier := consults_countriesAlone commas ⟨[97, 10], -2⟩
    have later := consults_countriesAlone commas ⟨[98, 10], -1⟩
    obtain ⟨table, loaded, names⟩ := earlier.direct_of_header rfl rfl rfl (by decide)
      (show RowReader.headerNames [[97]] = ["a"] by decide) (by decide)
    obtain ⟨other, current, others⟩ := later.direct_of_header rfl rfl rfl (by decide)
      (show RowReader.headerNames [[98]] = ["b"] by decide) (by decide)
    exact throughCache_ne_of_names earlier later rfl loaded current
      (by rw [names, others]; decide) (List.forall_mem_nil _)

end Staleness

end TableLoad

end Medals
