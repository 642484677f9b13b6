import TimeMachine.Client.Operations

/-!
# How creating a folder can fail

Creating a folder makes three calls to RocksDB. Here no client state is assumed: what
each call does to the database, the handles and the registry, whatever they are, and
when creating a folder is all or nothing. The test of the first call's status is on the
address of a function and always passes, a listing that fails leaves the new family in
the database although no handle for it is kept, and the database is closed before it is
known whether it opens again. So creating a folder is all or nothing only where it
succeeds.
-/

namespace TimeMachine.Client.DbClient
open TimeMachine.Base TimeMachine.Base.StateError TimeMachine.Store

/-- The families listed, or nothing if listing them fails. -/
def listing (s : DbClient) (io : Status) : Option (List String) :=
  if io.isOk then (s.rocks.disk s.cfg.dbName).map Database.names else none

/-- The listing is an exception where it fails, and changes nothing. -/
theorem run_getColumnFamalies (s : DbClient) (io : Status) :
    (getColumnFamalies io).run s =
      match s.listing io with
      | some names => .ok names s
      | none => .error (.exception "Unable to return ColumnFamaliesList") s := by
  cases hio : io with
  | failed text => simp [getColumnFamalies, RocksDB.listColumnFamilies, listing, Status.isOk]
  | ok =>
    cases hd : s.rocks.disk s.cfg.dbName with
    | none => simp [getColumnFamalies, RocksDB.listColumnFamilies, listing, Status.isOk, hd]
    | some d => simp [getColumnFamalies, RocksDB.listColumnFamilies, listing, Status.isOk, hd]

/-- `DB::Open` accepts the families: they are all there are. -/
structure Opens (s : DbClient) (io : Status) (names : List String) : Prop where
  io_ok : io = .ok
  default_mem : defaultName ∈ names
  all_mem : ∀ n ∈ (s.database.getD Database.initial).names, n ∈ names

/-- A database that opens again is in use with the families it had. -/
theorem run_openAndCache_of_opens {s : DbClient} {d : Database} (hd : s.database = some d)
    {io : Status} {names : List String} (hnd : names.Nodup) (h : s.Opens io names) :
    ∃ t, (openAndCache io names).run s = .ok () t ∧
      ∀ n es, d.family n = some es → t.records n = some es := by
  obtain ⟨rfl, hdefault, hall⟩ := h
  have hdisk : s.rocks.disk s.openDir = some d := hd
  rw [hd, Option.getD_some] at hall
  have hall' : ¬ ∃ n ∈ d.names, n ∉ names := by
    rintro ⟨n, hn, hn'⟩
    exact hn' (hall n hn)
  let handles := RocksDB.freshHandles s.rocks.nextHandle s.rocks.nextDb names
  let s' : DbClient :=
    { s with
      rocks := { disk := Function.update s.rocks.disk s.openDir (some (d.createMissing names))
                 nextDb := s.rocks.nextDb + 1
                 nextHandle := s.rocks.nextHandle + names.length }
      db := some s.rocks.nextDb
      handles := handles }
  have hopen : s.rocks.openDB .ok s.openDir names =
      ⟨.ok, handles, some s.rocks.nextDb, s'.rocks⟩ := by
    simp only [RocksDB.openDB, hdisk, Option.getD_some, Status.isOk, Bool.true_eq_false, if_false,
      not_not.mpr hdefault, hall']
    rfl
  have hnames : handles.map (·.name) = names := RocksDB.map_name_freshHandles _ _ _
  have hfamily (n : String) : s'.family n = (d.createMissing names).family n := by
    have hd' : s'.database = some (d.createMissing names) := Function.update_self _ _ _
    rw [family, hd', Option.bind_some]
  have hloop : EStateM.run (handles.forM cacheHandle) s' = .ok () (s'.cacheAll handles) := by
    apply run_forM_cacheHandle
    intro g hg
    refine ⟨congrArg some (RocksDB.db_freshHandles hg).symm, ?_⟩
    have hn : g.name ∈ names := by
      rw [← hnames]
      exact List.mem_map_of_mem hg
    rw [hfamily]
    exact (Database.mem_names _ _).mp (d.mem_createMissing hn)
  refine ⟨s'.cacheAll handles, ?_, fun n es hes ↦ ?_⟩
  · simp only [openAndCache, EStateM.run_bind, EStateM.run_get, hopen, EStateM.run_set]
    rw [show EStateM.run (List.forM _ cacheHandle) _ = _ from hloop]
    simp [Status.isOk]
  · have hn : n ∈ handles.map (·.name) := by
      rw [hnames]
      exact hall n ((d.mem_names n).mpr ⟨es, hes⟩)
    obtain ⟨g, hg, rfl⟩ := List.mem_map.mp hn
    obtain ⟨himpl, hcfg, hrocks, hdb, -⟩ := cacheAll_rocks s' handles
    have hsame : (s'.cacheAll handles).family g.name = s'.family g.name := by
      rw [family, database, openDir, himpl, hcfg, hrocks]
      rfl
    refine records_eq_some.mpr ⟨_, lookup_cacheAll_of_mem s' (by rwa [hnames]) hg, ?_, ?_⟩
    · rw [hdb]
      exact congrArg some (RocksDB.db_freshHandles hg).symm
    · rw [hsame, hfamily, d.family_createMissing names hes]

/-- A database that does not open again is lost together with all handles. -/
theorem run_openAndCache_of_not_opens {s : DbClient} {io : Status} {names : List String}
    (h : ¬ s.Opens io names) :
    (openAndCache io names).run s =
      .error (.exception "Failed to connect to DB") { s with db := none, handles := [] } := by
  cases io with
  | failed text => exact run_openAndCache_failed s text names
  | ok =>
    obtain ⟨status, hstatus, hopen⟩ : ∃ status, status.isOk = false ∧
        s.rocks.openDB .ok s.openDir names = ⟨status, [], none, s.rocks⟩ := by
      by_cases hdefault : defaultName ∈ names
      · have hmissing : ∃ n ∈ ((s.rocks.disk s.openDir).getD Database.initial).names,
            n ∉ names := by
          by_contra hnone
          refine h ⟨rfl, hdefault, fun n hn ↦ ?_⟩
          by_contra hn'
          exact hnone ⟨n, hn, hn'⟩
        refine ⟨.failed "Invalid argument: You have to open all column families.", rfl, ?_⟩
        simp only [RocksDB.openDB, Status.isOk, Bool.true_eq_false, if_false,
          not_not.mpr hdefault, hmissing, if_true]
      · refine ⟨.failed "Invalid argument: Default column family not specified", rfl, ?_⟩
        simp only [RocksDB.openDB, Status.isOk, Bool.true_eq_false, if_false, hdefault,
          not_false_eq_true, if_true]
    simp only [openAndCache, EStateM.run_bind, EStateM.run_get, hopen, EStateM.run_set]
    simp [hstatus, List.forM_nil]

/-- What is listed is listed once. -/
theorem nodup_of_listing {s : DbClient} {io : Status} {names : List String}
    (h : s.listing io = some names) : names.Nodup := by
  rw [listing] at h
  split at h
  · obtain ⟨d, -, rfl⟩ := Option.map_eq_some_iff.mp h
    exact d.names_nodup
  · cases h

/-! ### Creating a folder -/

section
variable {s : DbClient} {env : Env} {name : String} {i : Nat} {d : Database}

/-- A database with a family added is not the one it was. -/
theorem database_added_ne (h : s.Adds env name i d) : (s.added d name).database ≠ s.database := by
  intro hsame
  rw [added_database, h.database_eq, Option.some.injEq] at hsame
  refine h.fresh ((d.mem_names name).mpr ⟨[], ?_⟩)
  rw [← hsame, Database.family_write, if_pos rfl]

/-- The listing fails: the family stays on disk, but the client does not know of it. -/
theorem run_createColumnFamily_unlisted (h : s.Adds env name i d)
    (hlist : (s.added d name).listing env.list = none) :
    (createColumnFamily env name).run s =
      .error (.exception "Unable to return ColumnFamaliesList") (s.added d name) := by
  rw [run_createColumnFamily_added h, run_bind_of_error (by rw [run_getColumnFamalies, hlist])]

/-- The database does not open again: nothing is left open. -/
theorem run_createColumnFamily_lost (h : s.Adds env name i d) {names : List String}
    (hlist : (s.added d name).listing env.list = some names)
    (hopen : ¬ (s.added d name).Opens env.reopen names) :
    (createColumnFamily env name).run s =
      .error (.exception "Failed to connect to DB")
        { s.added d name with db := none, handles := [] } := by
  rw [run_createColumnFamily_added h, run_bind_of_ok (by rw [run_getColumnFamalies, hlist]),
    run_bind_of_error (run_openAndCache_of_not_opens hopen)]

/-- The database opens again: the new folder and all the others are in use. -/
theorem run_createColumnFamily_reopened (h : s.Adds env name i d) {names : List String}
    (hlist : (s.added d name).listing env.list = some names)
    (hopen : (s.added d name).Opens env.reopen names) :
    ∃ cf t, (createColumnFamily env name).run s = .ok (some cf) t ∧
      ∀ n es, (d.write name []).family n = some es → t.records n = some es := by
  obtain ⟨t, hrun, hrecords⟩ :=
    run_openAndCache_of_opens (added_database s d name) (nodup_of_listing hlist) hopen
  refine ⟨⟨s.rocks.nextHandle, i, name⟩, t, ?_, hrecords⟩
  rw [run_createColumnFamily_added h, run_bind_of_ok (by rw [run_getColumnFamalies, hlist]),
    run_bind_of_ok hrun]
  rfl

end

/-- RocksDB adds the family, lists the families then, and opens the database again with them. -/
def Creatable (s : DbClient) (env : Env) (name : String) : Prop :=
  ∃ i d names, s.Adds env name i d ∧ (s.added d name).listing env.list = some names ∧
    (s.added d name).Opens env.reopen names

/-- All or nothing: the folder is in use and empty, or there is an exception and the open instance,
its database, the handles and the registry are as they were. -/
def Atomic (s : DbClient) (name : String) :
    EStateM.Result Failure DbClient (Option ColumnFamilyHandle) → Prop
  | .ok _ t => t.records name = some []
  | .error (.exception _) t =>
    t.db = s.db ∧ t.database = s.database ∧ t.handles = s.handles ∧
      t.columnFamalies = s.columnFamalies
  | .error .crash _ => False

/-- In any state, creating a folder is all or nothing exactly if RocksDB adds the family, lists the
families then and opens the database again with them. -/
theorem createColumnFamily_atomic_iff (s : DbClient) (env : Env) (name : String) :
    Atomic s name ((createColumnFamily env name).run s) ↔ s.Creatable env name := by
  by_cases hadds : ∃ i d, s.Adds env name i d
  · obtain ⟨i, d, hadds⟩ := hadds
    have hsame (j : Nat) (e : Database) (h : s.Adds env name j e) : e = d :=
      Option.some.inj (h.database_eq.symm.trans hadds.database_eq)
    cases hlist : (s.added d name).listing env.list with
    | none =>
      rw [run_createColumnFamily_unlisted hadds hlist]
      refine iff_of_false ?_ ?_
      · rintro ⟨-, hdatabase, -⟩
        exact database_added_ne hadds hdatabase
      · rintro ⟨j, e, names, hadds', h, -⟩
        rw [hsame j e hadds', hlist] at h
        cases h
    | some names =>
      by_cases hopen : (s.added d name).Opens env.reopen names
      · obtain ⟨cf, t, hrun, hrecords⟩ := run_createColumnFamily_reopened hadds hlist hopen
        rw [hrun]
        refine iff_of_true (hrecords name [] ?_) ⟨i, d, names, hadds, hlist, hopen⟩
        rw [Database.family_write, if_pos rfl]
      · rw [run_createColumnFamily_lost hadds hlist hopen]
        refine iff_of_false ?_ ?_
        · rintro ⟨hdb, -⟩
          rw [hadds.instance_eq] at hdb
          cases hdb
        · rintro ⟨j, e, names', hadds', hlist', hopen'⟩
          rw [hsame j e hadds'] at hlist' hopen'
          rw [hlist] at hlist'
          cases hlist'
          exact hopen hopen'
  · have hnot : ∀ i d, ¬ s.Adds env name i d := fun i d h ↦ hadds ⟨i, d, h⟩
    rw [run_createColumnFamily_crash hnot]
    refine iff_of_false id ?_
    rintro ⟨i, d, names, h, -⟩
    exact hnot i d h

/-- On a new database, a refused call to create the family reads through a null pointer, a refused
call to list the families leaves a family no handle is kept of, and a refused call to open the
database again leaves the client without any folder. -/
theorem createColumnFamily_not_atomic :
    ∃ client, newLocalDBClient { now := 1, now_ne_zero := by decide } {} RocksDB.empty =
        .ok () client ∧
      ¬ Atomic client "f" ((createColumnFamily
        { now := 2, now_ne_zero := by decide, create := .failed "IO error" } "f").run client) ∧
      ¬ Atomic client "f" ((createColumnFamily
        { now := 2, now_ne_zero := by decide, list := .failed "IO error" } "f").run client) ∧
      ¬ Atomic client "f" ((createColumnFamily
        { now := 2, now_ne_zero := by decide, reopen := .failed "IO error" } "f").run client) := by
  obtain ⟨client, hstart⟩ := start_of_empty .localDBClient {}
    { now := 1, now_ne_zero := by decide } rfl rfl rfl rfl
  obtain ⟨i, hserv⟩ : ∃ i, Serving client i Database.initial := start_serving rfl hstart
  have hnew : "f" ∉ Database.initial.names := by decide
  have hadds (env : Env) (hcreate : env.create = .ok) : client.Adds env "f" i Database.initial :=
    ⟨hserv.instance_eq, hcreate, hserv.database_eq, hnew⟩
  refine ⟨client, hstart, ?_, ?_, ?_⟩
  · rw [run_createColumnFamily_failed hserv (Or.inl (by simp))]
    exact id
  · rw [run_createColumnFamily_unlisted (hadds _ rfl) rfl]
    rintro ⟨-, hdatabase, -⟩
    exact database_added_ne (hadds { now := 2, now_ne_zero := by decide } rfl) hdatabase
  · have hlist : (client.added Database.initial "f").listing .ok =
        some (Database.initial.write "f" []).names := by
      rw [listing, added_listed hserv]
      rfl
    rw [run_createColumnFamily_lost (hadds _ rfl) hlist (fun h ↦ by cases h.io_ok)]
    rintro ⟨hdb, -⟩
    rw [hserv.instance_eq] at hdb
    cases hdb

/-! ### Looking a folder up or creating it -/

/-- Creating the folder fails, in one way or another. -/
theorem run_createColumnFamily_of_not_creatable {s : DbClient} {env : Env} {name : String}
    (h : ¬ s.Creatable env name) :
    ∃ failure t, (createColumnFamily env name).run s = .error failure t := by
  by_cases hadds : ∃ i d, s.Adds env name i d
  · obtain ⟨i, d, hadds⟩ := hadds
    cases hlist : (s.added d name).listing env.list with
    | none => exact ⟨_, _, run_createColumnFamily_unlisted hadds hlist⟩
    | some names =>
      have hopen : ¬ (s.added d name).Opens env.reopen names := fun hopen ↦
        h ⟨i, d, names, hadds, hlist, hopen⟩
      exact ⟨_, _, run_createColumnFamily_lost hadds hlist hopen⟩
  · exact ⟨_, _, run_createColumnFamily_crash fun i d hadd ↦ hadds ⟨i, d, hadd⟩⟩

/-- A folder is in use, or is not registered and can be created. -/
def Obtainable (s : DbClient) (env : Env) (name : String) : Prop :=
  (s.records name).isSome ∨ s.columnFamalies.lookup name = none ∧ s.Creatable env name

/-- Looking up a registered folder. -/
theorem run_getOrCreate_of_lookup {s : DbClient} {name : String} {e : ColumnFamilyData}
    (he : s.columnFamalies.lookup name = some e) (env : Env) :
    (getOrCreateColumnFamily env name).run s = .ok (some e.handle) s := by
  rw [getOrCreateColumnFamily, run_bind_of_ok (run_getColumnFamily s name), he]
  rfl

/-- Looking up or creating a folder that can be obtained. -/
theorem run_getOrCreate_of_obtainable {s : DbClient} {env : Env} {name : String}
    (h : s.Obtainable env name) :
    ∃ e es t, (getOrCreateColumnFamily env name).run s = .ok (some e.handle) t ∧
      t.columnFamalies.lookup name = some e ∧ t.records name = some es := by
  rcases h with h | ⟨hnone, i, d, names, hadds, hlist, hopen⟩
  · obtain ⟨es, hes⟩ := Option.isSome_iff_exists.mp h
    obtain ⟨e, he, -⟩ := records_eq_some.mp hes
    exact ⟨e, es, s, run_getOrCreate_of_lookup he env, he, hes⟩
  · obtain ⟨cf, t, hrun, hrecords⟩ := run_createColumnFamily_reopened hadds hlist hopen
    have hes : t.records name = some [] :=
      hrecords name [] (by rw [Database.family_write, if_pos rfl])
    obtain ⟨e, he, -⟩ := records_eq_some.mp hes
    refine ⟨e, [], t, ?_, he, hes⟩
    rw [getOrCreateColumnFamily, run_bind_of_ok (run_getColumnFamily s name), hnone,
      Option.map_none, Option.isSome_none, if_neg (by simp), run_bind_of_ok hrun,
      run_getColumnFamily, he, Option.map_some]

/-- A folder that cannot be obtained is registered with a handle that must not be used, or there
is a failure. -/
theorem run_getOrCreate_of_not_obtainable {s : DbClient} {env : Env} {name : String}
    (h : ¬ s.Obtainable env name) :
    (∃ e, s.columnFamalies.lookup name = some e ∧ s.records name = none) ∨
      ∃ failure t, (getOrCreateColumnFamily env name).run s = .error failure t := by
  obtain ⟨hrecords, hcreate⟩ := not_or.mp h
  cases he : s.columnFamalies.lookup name with
  | some e => exact Or.inl ⟨e, rfl, by simpa using hrecords⟩
  | none =>
    obtain ⟨failure, t, hrun⟩ :=
      run_createColumnFamily_of_not_creatable fun hc ↦ hcreate ⟨he, hc⟩
    refine Or.inr ⟨failure, t, ?_⟩
    rw [getOrCreateColumnFamily, run_bind_of_ok (run_getColumnFamily s name), he,
      Option.map_none, Option.isSome_none, if_neg (by simp), run_bind_of_error hrun]

end TimeMachine.Client.DbClient
