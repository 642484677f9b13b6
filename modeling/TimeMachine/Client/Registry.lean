import TimeMachine.Client.DbClient
import TimeMachine.Base.Transition
import TimeMachine.Base.StateError

/-!
# The folder registry

What a client object that serves a database looks like, and that opening, creating a
folder and restarting keep it so: the cache has exactly the folders of the database,
each with a handle of the open instance. Creating a folder invalidates every handle;
the cache is refilled by name without being cleared, which leaves nothing stale
because no folder is ever dropped.
-/

namespace TimeMachine.Client.DbClient
open TimeMachine.Base TimeMachine.Base.StateError TimeMachine.Store

/-- The counter a folder gets when the cache is filled. -/
def seed (s : DbClient) (name : String) : UInt64 := (uniqueRange ((s.family name).getD [])).till

/-- The cache after filling it from a list of handles. -/
def cacheAll (s : DbClient) : List ColumnFamilyHandle → DbClient
  | [] => s
  | h :: rest => (s.cache h.name ⟨h, s.seed h.name⟩).cacheAll rest

/-- Filling the cache touches nothing but the cache. -/
@[simp] theorem cacheAll_rocks (s : DbClient) (hs : List ColumnFamilyHandle) :
    (s.cacheAll hs).impl = s.impl ∧ (s.cacheAll hs).cfg = s.cfg ∧
      (s.cacheAll hs).rocks = s.rocks ∧ (s.cacheAll hs).db = s.db ∧
      (s.cacheAll hs).handles = s.handles := by
  induction hs generalizing s with
  | nil => exact ⟨rfl, rfl, rfl, rfl, rfl⟩
  | cons h rest ih => exact ih (s.cache h.name _)

/-- A name without a handle in the list keeps its cached data. -/
theorem lookup_cacheAll_of_notMem (s : DbClient) {hs : List ColumnFamilyHandle} {name : String}
    (h : name ∉ hs.map (·.name)) :
    (s.cacheAll hs).columnFamalies.lookup name = s.columnFamalies.lookup name := by
  induction hs generalizing s with
  | nil => rfl
  | cons g rest ih =>
    rw [List.map_cons, List.mem_cons, not_or] at h
    rw [cacheAll, ih _ h.2]
    exact AList.lookup_insert_ne h.1

/-- A name with a handle in the list is cached with it and with its seed. -/
theorem lookup_cacheAll_of_mem (s : DbClient) {hs : List ColumnFamilyHandle}
    (hnd : (hs.map (·.name)).Nodup) {g : ColumnFamilyHandle} (hg : g ∈ hs) :
    (s.cacheAll hs).columnFamalies.lookup g.name = some ⟨g, s.seed g.name⟩ := by
  induction hs generalizing s with
  | nil => cases hg
  | cons h rest ih =>
    obtain ⟨hnot, hrest⟩ := List.nodup_cons.mp hnd
    rw [cacheAll]
    rcases List.mem_cons.mp hg with rfl | hr
    · rw [lookup_cacheAll_of_notMem _ hnot]
      exact AList.lookup_insert _
    · exact ih _ hrest hr

/-- Dereferencing a handle of the open instance. -/
theorem run_deref {s : DbClient} {h : ColumnFamilyHandle} {es : ColumnFamily}
    (hdb : s.db = some h.db) (hf : s.family h.name = some es) :
    (deref (some h)).run s = .ok (h, es) s := by
  simp [deref, hdb, hf]

/-- Caching one handle of the open instance. -/
theorem run_cacheHandle {s : DbClient} {h : ColumnFamilyHandle} {es : ColumnFamily}
    (hdb : s.db = some h.db) (hf : s.family h.name = some es) :
    (cacheHandle h).run s = .ok () (s.cache h.name ⟨h, s.seed h.name⟩) := by
  simp [cacheHandle, getUniqueRange, run_deref hdb hf, seed, hf]

/-- The loop over the handles fills the cache. -/
theorem run_forM_cacheHandle {s : DbClient} {hs : List ColumnFamilyHandle}
    (h : ∀ g ∈ hs, s.db = some g.db ∧ ∃ es, s.family g.name = some es) :
    EStateM.run (hs.forM cacheHandle) s = .ok () (s.cacheAll hs) := by
  induction hs generalizing s with
  | nil => rfl
  | cons g rest ih =>
    obtain ⟨hdb, es, hf⟩ := h g (by simp)
    have hi := ih (s := s.cache g.name ⟨g, s.seed g.name⟩)
      (fun k hk ↦ h k (List.mem_cons_of_mem g hk))
    change EStateM.run (cacheHandle g >>= fun _ ↦ rest.forM cacheHandle) s = _
    rw [run_bind_of_ok (run_cacheHandle hdb hf)]
    exact hi

/-! ### Serving a database -/

/-- The client serves database `d` through instance `i`: it lists the directory it opens,
and handles and cache are those of the open instance. -/
structure Serving (s : DbClient) (i : Nat) (d : Database) : Prop where
  same_dir : s.cfg.dbName = s.openDir
  instance_eq : s.db = some i
  instance_lt : i < s.rocks.nextDb
  database_eq : s.database = some d
  handles_names : (s.handles.map (·.name)).Perm d.names
  handles_db : ∀ h ∈ s.handles, h.db = i
  mem_cache : ∀ n, n ∈ s.columnFamalies ↔ n ∈ d.names
  cached : ∀ n e, s.columnFamalies.lookup n = some e → e.handle ∈ s.handles ∧ e.handle.name = n

/-- The object after its database was opened again with all of its families. -/
def reopened (s : DbClient) (d : Database) : DbClient :=
  let handles := RocksDB.freshHandles s.rocks.nextHandle s.rocks.nextDb d.names
  cacheAll
    { s with
      rocks := { disk := s.rocks.disk, nextDb := s.rocks.nextDb + 1
                 nextHandle := s.rocks.nextHandle + d.names.length }
      db := some s.rocks.nextDb
      handles := handles } handles

/-- Opening again keeps the configuration and the data. -/
@[simp] theorem reopened_frame (s : DbClient) (d : Database) :
    (s.reopened d).impl = s.impl ∧ (s.reopened d).cfg = s.cfg ∧
      (s.reopened d).rocks.disk = s.rocks.disk ∧
      (s.reopened d).rocks.nextDb = s.rocks.nextDb + 1 := by
  have h := cacheAll_rocks
    { s with
      rocks := { disk := s.rocks.disk, nextDb := s.rocks.nextDb + 1
                 nextHandle := s.rocks.nextHandle + d.names.length }
      db := some s.rocks.nextDb
      handles := RocksDB.freshHandles s.rocks.nextHandle s.rocks.nextDb d.names }
    (RocksDB.freshHandles s.rocks.nextHandle s.rocks.nextDb d.names)
  refine ⟨h.1, h.2.1, ?_, ?_⟩
  · rw [reopened, h.2.2.1]
  · rw [reopened, h.2.2.1]

/-- Opening again keeps the database. -/
@[simp] theorem reopened_database (s : DbClient) (d : Database) :
    (s.reopened d).database = s.database := by
  obtain ⟨hi, hc, hd, -⟩ := reopened_frame s d
  rw [database, database, openDir, openDir, hi, hc, hd]

/-- Every family is cached with its seed after opening again. -/
theorem reopened_lookup (s : DbClient) {d : Database} {n : String} (hn : n ∈ d.names) :
    ∃ h, h ∈ (s.reopened d).handles ∧ h.name = n ∧
      (s.reopened d).columnFamalies.lookup n = some ⟨h, s.seed n⟩ := by
  have hnames := RocksDB.map_name_freshHandles s.rocks.nextHandle s.rocks.nextDb d.names
  have hmem : n ∈ (RocksDB.freshHandles s.rocks.nextHandle s.rocks.nextDb d.names).map
      (·.name) := by rwa [hnames]
  obtain ⟨h, hh, rfl⟩ := List.mem_map.mp hmem
  refine ⟨h, ?_, rfl, ?_⟩
  · rw [reopened, (cacheAll_rocks _ _).2.2.2.2]
    exact hh
  · rw [reopened, lookup_cacheAll_of_mem _ (by rw [hnames]; exact d.names_nodup) hh]
    rfl

/-- Opening again serves the database, provided the cache holds no other folder. -/
theorem reopened_serving {s : DbClient} {d : Database} (hsame : s.cfg.dbName = s.openDir)
    (hd : s.database = some d) (hold : ∀ n ∈ s.columnFamalies, n ∈ d.names) :
    Serving (s.reopened d) s.rocks.nextDb d := by
  obtain ⟨hi, hc, hdisk, hnext⟩ := reopened_frame s d
  have hnames := RocksDB.map_name_freshHandles s.rocks.nextHandle s.rocks.nextDb d.names
  have hhandles : (s.reopened d).handles =
      RocksDB.freshHandles s.rocks.nextHandle s.rocks.nextDb d.names := by
    rw [reopened, (cacheAll_rocks _ _).2.2.2.2]
  have hkeep (n : String) (hn : n ∉ d.names) :
      (s.reopened d).columnFamalies.lookup n = s.columnFamalies.lookup n := by
    rw [reopened, lookup_cacheAll_of_notMem _ (by rwa [hnames])]
  have hout (n : String) (hn : n ∉ d.names) :
      (s.reopened d).columnFamalies.lookup n = none := by
    rw [hkeep n hn, AList.lookup_eq_none]
    exact fun hm ↦ hn (hold n hm)
  refine ⟨?_, ?_, ?_, ?_, ?_, ?_, ?_, ?_⟩
  · rw [openDir, hi, hc]
    exact hsame
  · rw [reopened, (cacheAll_rocks _ _).2.2.2.1]
  · rw [hnext]
    exact Nat.lt_succ_self _
  · rw [reopened_database, hd]
  · rw [hhandles, hnames]
  · rw [hhandles]
    exact fun h hh ↦ RocksDB.db_freshHandles hh
  · intro n
    rw [← AList.lookup_isSome]
    by_cases hn : n ∈ d.names
    · obtain ⟨h, -, -, hl⟩ := reopened_lookup s hn
      simp [hl, hn]
    · simp [hout n hn, hn]
  · intro n e he
    by_cases hn : n ∈ d.names
    · obtain ⟨h, hh, hname, hl⟩ := reopened_lookup s hn
      rw [hl] at he
      cases he
      exact ⟨hh, hname⟩
    · rw [hout n hn] at he
      cases he

/-! ### Opening, starting and creating -/

/-- The listing succeeds exactly when its call does and the listed database exists. -/
theorem run_getColumnFamalies_eq_ok {s t : DbClient} {io : Status} {names : List String} :
    (getColumnFamalies io).run s = .ok names t ↔
      io = .ok ∧ t = s ∧ ∃ d, s.rocks.disk s.cfg.dbName = some d ∧ names = d.names := by
  cases io with
  | failed text => simp [getColumnFamalies, RocksDB.listColumnFamilies, Status.isOk]
  | ok =>
    cases hd : s.rocks.disk s.cfg.dbName with
    | none => simp [getColumnFamalies, RocksDB.listColumnFamilies, Status.isOk, hd]
    | some d =>
      simp only [getColumnFamalies, RocksDB.listColumnFamilies, Status.isOk, EStateM.run_bind,
        EStateM.run_get, hd, Bool.true_eq_false, if_false, if_true, EStateM.run_pure,
        EStateM.Result.ok.injEq, true_and, Option.some.injEq, exists_eq_left']
      exact ⟨fun h ↦ ⟨h.2.symm, h.1.symm⟩, fun h ↦ ⟨h.2.symm, h.1.symm⟩⟩

/-- Opening a database with all of its families. -/
theorem run_openAndCache {s : DbClient} {d : Database} (hd : s.database = some d) :
    (openAndCache .ok d.names).run s = .ok () (s.reopened d) := by
  have hopen := RocksDB.openDB_names hd
  let s' : DbClient :=
    { s with
      rocks := { disk := s.rocks.disk, nextDb := s.rocks.nextDb + 1
                 nextHandle := s.rocks.nextHandle + d.names.length }
      db := some s.rocks.nextDb
      handles := RocksDB.freshHandles s.rocks.nextHandle s.rocks.nextDb d.names }
  have hloop : EStateM.run (s'.handles.forM cacheHandle) s' = .ok () (s.reopened d) := by
    apply run_forM_cacheHandle
    intro g hg
    refine ⟨congrArg some (RocksDB.db_freshHandles hg).symm, ?_⟩
    have hn : g.name ∈ d.names := by
      rw [← RocksDB.map_name_freshHandles s.rocks.nextHandle s.rocks.nextDb d.names]
      exact List.mem_map_of_mem hg
    obtain ⟨es, he⟩ := (d.mem_names g.name).mp hn
    refine ⟨es, ?_⟩
    have hd' : s'.database = some d := hd
    rw [family, hd']
    exact he
  simp only [openAndCache, EStateM.run_bind, EStateM.run_get, hopen, EStateM.run_set]
  rw [show EStateM.run (List.forM _ cacheHandle) _ = _ from hloop]
  simp [Status.isOk]

/-- A failed call to open the database is an exception. -/
theorem run_openAndCache_failed (s : DbClient) (text : String) (names : List String) :
    (openAndCache (.failed text) names).run s =
      .error (.exception "Failed to connect to DB") { s with db := none, handles := [] } := by
  simp [openAndCache, RocksDB.openDB, Status.isOk, List.forM_nil]

/-- The object a constructor works on once the trial open is over. -/
def tried (impl : Impl) (env : Env) (cfg : Config) (rocks : RocksDB) : DbClient :=
  { impl, cfg, db := none, handles := [], columnFamalies := ∅
    rocks := (rocks.openDB env.fakeOpen (cfg.openDir impl) [defaultName]).rocks }

/-- A constructor lists and opens after its trial open. -/
theorem start_eq (impl : Impl) (env : Env) (cfg : Config) (rocks : RocksDB) :
    start impl env cfg rocks =
      EStateM.run (getColumnFamalies env.list >>= openAndCache env.reopen)
        (tried impl env cfg rocks) := rfl

/-- A constructor that succeeds on one directory has opened what is in it. -/
theorem start_eq_ok {impl : Impl} {env : Env} {cfg : Config} {rocks : RocksDB} {s : DbClient}
    (hdir : cfg.dbName = cfg.openDir impl) (h : start impl env cfg rocks = .ok () s) :
    (tried impl env cfg rocks).database =
        some ((rocks.disk (cfg.openDir impl)).getD Database.initial) ∧
      s = (tried impl env cfg rocks).reopened
        ((rocks.disk (cfg.openDir impl)).getD Database.initial) := by
  rw [start_eq] at h
  obtain ⟨names, t, hlist, hopen⟩ := run_bind_eq_ok.mp h
  obtain ⟨-, rfl, d, hd, rfl⟩ := run_getColumnFamalies_eq_ok.mp hlist
  have hd₁ : (tried impl env cfg rocks).database = some d := by
    rw [← hd]
    exact congrArg (tried impl env cfg rocks).rocks.disk hdir.symm
  rw [RocksDB.disk_of_trialOpen hd₁]
  cases hr : env.reopen with
  | failed text =>
    rw [hr, run_openAndCache_failed] at hopen
    cases hopen
  | ok =>
    rw [hr, run_openAndCache hd₁] at hopen
    cases hopen
    exact ⟨hd₁, rfl⟩

/-- A constructor that succeeds on one directory serves what is in it. -/
theorem start_serving {impl : Impl} {env : Env} {cfg : Config} {rocks : RocksDB} {s : DbClient}
    (hdir : cfg.dbName = cfg.openDir impl) (h : start impl env cfg rocks = .ok () s) :
    ∃ i, Serving s i ((rocks.disk (cfg.openDir impl)).getD Database.initial) := by
  obtain ⟨hd, rfl⟩ := start_eq_ok hdir h
  exact ⟨_, reopened_serving hdir hd (fun n hn ↦ absurd hn (AList.notMem_empty n))⟩

private theorem start_of_tried {impl : Impl} {env : Env} {cfg : Config} {rocks : RocksDB}
    {d : Database} (hdir : cfg.dbName = cfg.openDir impl)
    (hd : (tried impl env cfg rocks).database = some d)
    (hlist : env.list = .ok) (hreopen : env.reopen = .ok) :
    start impl env cfg rocks = .ok () ((tried impl env cfg rocks).reopened d) := by
  have hl : (tried impl env cfg rocks).rocks.disk (tried impl env cfg rocks).cfg.dbName =
      some d := by
    rw [← hd]
    exact congrArg (tried impl env cfg rocks).rocks.disk hdir
  rw [start_eq, run_bind_of_ok (run_getColumnFamalies_eq_ok.mpr ⟨hlist, rfl, d, hl, rfl⟩),
    hreopen, run_openAndCache hd]

/-- A constructor succeeds on an existing database when its calls do. -/
theorem start_of_disk {impl : Impl} {env : Env} {cfg : Config} {rocks : RocksDB} {d : Database}
    (hdir : cfg.dbName = cfg.openDir impl) (hd : rocks.disk (cfg.openDir impl) = some d)
    (hlist : env.list = .ok) (hreopen : env.reopen = .ok) :
    start impl env cfg rocks = .ok () ((tried impl env cfg rocks).reopened d) :=
  start_of_tried hdir (RocksDB.trialOpen_disk _ hd) hlist hreopen

/-- A constructor succeeds on an empty disk when its calls do. -/
theorem start_of_empty (impl : Impl) (cfg : Config) (env : Env)
    (hdir : cfg.dbName = cfg.openDir impl) (hopen : env.fakeOpen = .ok)
    (hlist : env.list = .ok) (hreopen : env.reopen = .ok) :
    ∃ s, start impl env cfg RocksDB.empty = .ok () s := by
  refine ⟨_, start_of_tried (d := Database.initial) hdir ?_ hlist hreopen⟩
  rw [database, openDir]
  exact RocksDB.trialOpen_new rfl hopen

/-- On an empty disk a constructor only succeeds when it lists the directory it opens. -/
theorem same_dir_of_start_empty {impl : Impl} {env : Env} {cfg : Config} {s : DbClient}
    (h : start impl env cfg RocksDB.empty = .ok () s) : cfg.dbName = cfg.openDir impl := by
  rw [start_eq] at h
  obtain ⟨names, t, hlist, -⟩ := run_bind_eq_ok.mp h
  obtain ⟨-, -, d, hd, -⟩ := run_getColumnFamalies_eq_ok.mp hlist
  by_contra hne
  have hother := RocksDB.openDB_disk_of_ne RocksDB.empty env.fakeOpen [defaultName] hne
  have hd' : (RocksDB.empty.openDB env.fakeOpen (cfg.openDir impl) [defaultName]).rocks.disk
      cfg.dbName = some d := hd
  rw [hother] at hd'
  cases hd'

/-- The object once RocksDB has added an empty family, before the database is closed. -/
def added (s : DbClient) (d : Database) (name : String) : DbClient :=
  { s with
    rocks := { s.rocks.setDisk s.openDir (d.write name []) with
      nextHandle := s.rocks.nextHandle + 1 } }

/-- The object after `CreateColumnFamily` returned. -/
def created (s : DbClient) (d : Database) (name : String) : DbClient :=
  (s.added d name).reopened (d.write name [])

/-- The added family is part of the database. -/
@[simp] theorem added_database (s : DbClient) (d : Database) (name : String) :
    (s.added d name).database = some (d.write name []) := by
  simp [database, added, openDir, RocksDB.setDisk]

/-- The added family is listed. -/
theorem added_listed {s : DbClient} {i : Nat} {d : Database} (hs : Serving s i d)
    (name : String) :
    (s.added d name).rocks.disk (s.added d name).cfg.dbName = some (d.write name []) := by
  rw [← added_database s d name, database]
  exact congrArg (s.added d name).rocks.disk hs.same_dir

/-- What was cached before is still a family. -/
theorem added_known {s : DbClient} {i : Nat} {d : Database} (hs : Serving s i d)
    (name : String) : ∀ n ∈ (s.added d name).columnFamalies, n ∈ (d.write name []).names := by
  intro n hn
  obtain ⟨es, he⟩ := (d.mem_names n).mp ((hs.mem_cache n).mp hn)
  rw [Database.mem_names, Database.family_write]
  split
  · exact ⟨[], rfl⟩
  · exact ⟨es, he⟩

/-- Creating a folder serves the database with the new family. -/
theorem created_serving {s : DbClient} {i : Nat} {d : Database} (hs : Serving s i d)
    (name : String) : Serving (s.created d name) s.rocks.nextDb (d.write name []) :=
  reopened_serving (s := s.added d name) hs.same_dir (added_database s d name)
    (added_known hs name)

/-- Every call `CreateColumnFamily` makes succeeds. -/
structure Healthy (env : Env) : Prop where
  create : env.create = .ok
  list : env.list = .ok
  reopen : env.reopen = .ok

instance Healthy.decidable (env : Env) : Decidable (Healthy env) :=
  decidable_of_iff (env.create = .ok ∧ env.list = .ok ∧ env.reopen = .ok)
    ⟨fun h ↦ ⟨h.1, h.2.1, h.2.2⟩, fun h ↦ ⟨h.create, h.list, h.reopen⟩⟩

/-- RocksDB adds the family to the open database. -/
structure Adds (s : DbClient) (env : Env) (name : String) (i : Nat) (d : Database) : Prop where
  instance_eq : s.db = some i
  create : env.create = .ok
  database_eq : s.database = some d
  fresh : name ∉ d.names

/-- `CreateColumnFamily` once the family is added. -/
theorem run_createColumnFamily_added {s : DbClient} {env : Env} {name : String} {i : Nat}
    {d : Database} (h : s.Adds env name i d) :
    (createColumnFamily env name).run s =
      EStateM.run (getColumnFamalies env.list >>= fun cfDescriptors ↦
        openAndCache env.reopen cfDescriptors >>= fun _ ↦
          pure (some (⟨s.rocks.nextHandle, i, name⟩ : ColumnFamilyHandle))) (s.added d name) := by
  have hdisk : s.rocks.disk s.openDir = some d := h.database_eq
  have hrocks : s.rocks.createColumnFamily env.create s.openDir i name =
      (.ok, some ⟨s.rocks.nextHandle, i, name⟩, (s.added d name).rocks) := by
    simp [RocksDB.createColumnFamily, h.create, Status.isOk, hdisk, h.fresh, added]
  have hset : { s with rocks := (s.added d name).rocks, db := some i } = s.added d name := by
    rw [← h.instance_eq]
    rfl
  rw [createColumnFamily, run_bind_of_ok (EStateM.run_get _)]
  simp only [h.instance_eq, hrocks]
  rw [run_bind_of_ok (EStateM.run_set _ _), hset]
  rfl

/-- `CreateColumnFamily` reads the name of a null handle when the family is not added. -/
theorem run_createColumnFamily_crash {s : DbClient} {env : Env} {name : String}
    (h : ∀ i d, ¬ s.Adds env name i d) : (createColumnFamily env name).run s = .error .crash s := by
  rw [createColumnFamily, run_bind_of_ok (EStateM.run_get _)]
  cases hi : s.db with
  | none => rfl
  | some i =>
    obtain ⟨status, hrocks⟩ : ∃ status,
        s.rocks.createColumnFamily env.create s.openDir i name = (status, none, s.rocks) := by
      cases hc : env.create with
      | failed text => exact ⟨.failed text, by simp [RocksDB.createColumnFamily, Status.isOk]⟩
      | ok =>
        cases hd : s.rocks.disk s.openDir with
        | none =>
          exact ⟨.failed "IO error: No such file or directory",
            by simp [RocksDB.createColumnFamily, Status.isOk, hd]⟩
        | some d =>
          have hn : name ∈ d.names := by
            by_contra hn
            exact h i d ⟨hi, hc, hd, hn⟩
          exact ⟨.failed "Invalid argument: Column family already exists",
            by simp [RocksDB.createColumnFamily, Status.isOk, hd, hn]⟩
    have hset : { s with db := some i } = s := by rw [← hi]
    simp only [hrocks]
    rw [run_bind_of_ok (EStateM.run_set _ _), hset]
    simp only [Status.OK, if_true]
    rfl

/-- `CreateColumnFamily` fails when its first call does. -/
theorem run_createColumnFamily_failed {s : DbClient} {i : Nat} {d : Database}
    (hs : Serving s i d) {env : Env} {name : String} (h : env.create ≠ .ok ∨ name ∈ d.names) :
    (createColumnFamily env name).run s = .error .crash s := by
  apply run_createColumnFamily_crash
  intro j e hadds
  rcases h with h | h
  · exact h hadds.create
  · obtain rfl : d = e := Option.some.inj (hs.database_eq.symm.trans hadds.database_eq)
    exact hadds.fresh h

/-- `CreateColumnFamily` returns exactly when its calls succeed and the name is new. -/
theorem run_createColumnFamily_eq_ok {s t : DbClient} {i : Nat} {d : Database}
    (hs : Serving s i d) {env : Env} {name : String} {r : Option ColumnFamilyHandle} :
    (createColumnFamily env name).run s = .ok r t ↔
      Healthy env ∧ name ∉ d.names ∧ r = some ⟨s.rocks.nextHandle, i, name⟩ ∧
        t = s.created d name := by
  have hlist := added_listed hs name
  constructor
  · intro h
    by_cases hfail : env.create ≠ .ok ∨ name ∈ d.names
    · rw [run_createColumnFamily_failed hs hfail] at h
      cases h
    · obtain ⟨hc, hn⟩ := not_or.mp hfail
      have hc := not_not.mp hc
      rw [run_createColumnFamily_added ⟨hs.instance_eq, hc, hs.database_eq, hn⟩] at h
      obtain ⟨names, u, hl, h⟩ := run_bind_eq_ok.mp h
      obtain ⟨hlok, rfl, e, he, rfl⟩ := run_getColumnFamalies_eq_ok.mp hl
      rw [hlist] at he
      cases he
      obtain ⟨u, v, ho, h⟩ := run_bind_eq_ok.mp h
      cases hr : env.reopen with
      | failed text =>
        rw [hr, run_openAndCache_failed] at ho
        cases ho
      | ok =>
        rw [hr, run_openAndCache (added_database s d name)] at ho
        cases ho
        cases h
        exact ⟨⟨hc, hlok, hr⟩, hn, rfl, rfl⟩
  · rintro ⟨h, hn, rfl, rfl⟩
    rw [run_createColumnFamily_added ⟨hs.instance_eq, h.create, hs.database_eq, hn⟩,
      run_bind_of_ok (run_getColumnFamalies_eq_ok.mpr ⟨h.list, rfl, _, hlist, rfl⟩),
      h.reopen, run_bind_of_ok (run_openAndCache (added_database s d name))]
    rfl

end TimeMachine.Client.DbClient
