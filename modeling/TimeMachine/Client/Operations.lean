import TimeMachine.Client.Folders

/-!
# What the client operations do to the folders

One specification for each operation of a client that serves its database, over the
view of its folders. Looking a folder up, creating it, generating an identifier,
reading and writing through a handle of the open instance, and starting again all
leave the client serving; which instance is open afterwards is part of each statement,
because a handle is good only for the instance that handed it out.
-/

namespace TimeMachine.Client.DbClient
open TimeMachine.Base TimeMachine.Base.StateError TimeMachine.Store

/-- The lookup reads the cache. -/
@[simp] theorem run_getColumnFamily (s : DbClient) (name : String) :
    (getColumnFamily name).run s =
      .ok ((s.columnFamalies.lookup name).map (·.handle)) s := by
  simp [getColumnFamily]

/-- The lookup finds a handle of the open instance exactly for the folders that exist. -/
theorem lookup_handle {s : DbClient} {i : Nat} {d : Database} (hs : Serving s i d)
    {name : String} (h : (s.view name).isSome) :
    ∃ e, s.columnFamalies.lookup name = some e ∧ e.handle.name = name ∧ e.handle.db = i := by
  obtain ⟨e, he⟩ := Option.isSome_iff_exists.mp ((view_isSome_iff_lookup hs).mp h)
  obtain ⟨hmem, hname⟩ := hs.cached name e he
  exact ⟨e, he, hname, hs.handles_db _ hmem⟩

/-- A folder that does not exist has no handle. -/
theorem lookup_eq_none {s : DbClient} {i : Nat} {d : Database} (hs : Serving s i d)
    {name : String} (h : s.view name = none) : s.columnFamalies.lookup name = none := by
  have hn : (s.view name).isSome ↔ (s.columnFamalies.lookup name).isSome :=
    view_isSome_iff_lookup hs
  rw [h] at hn
  simpa using hn

/-- Creating a folder that does not exist opens the database again. -/
theorem run_createColumnFamily_of_none {s : DbClient} (hs : Serves s) {env : Env}
    (henv : Healthy env) {name : String} (h : s.view name = none) :
    ∃ cf t, (createColumnFamily env name).run s = .ok cf t ∧ Serves t ∧
      t.view = s.view.create name := by
  obtain ⟨i, d, hs⟩ := hs
  have hn : name ∉ d.names := by
    rw [← view_isSome_iff hs, h]
    simp
  exact ⟨_, _, (run_createColumnFamily_eq_ok hs).mpr ⟨henv, hn, rfl, rfl⟩,
    ⟨_, _, created_serving hs name⟩, view_created hs name⟩

/-- Creating a folder that exists reads the name of a null handle. -/
theorem run_createColumnFamily_of_isSome {s : DbClient} (hs : Serves s) (env : Env)
    {name : String} (h : (s.view name).isSome) :
    (createColumnFamily env name).run s = .error .crash s := by
  obtain ⟨i, d, hs⟩ := hs
  exact run_createColumnFamily_failed hs (Or.inr ((view_isSome_iff hs).mp h))

/-- Looking up or creating an existing folder changes nothing. -/
theorem run_getOrCreate_of_isSome {s : DbClient} {i : Nat} {d : Database} (hs : Serving s i d)
    (env : Env) {name : String} (h : (s.view name).isSome) :
    ∃ cf, (getOrCreateColumnFamily env name).run s = .ok (some cf) s ∧
      cf.name = name ∧ cf.db = i := by
  obtain ⟨e, he, hname, hdb⟩ := lookup_handle hs h
  refine ⟨e.handle, ?_, hname, hdb⟩
  rw [getOrCreateColumnFamily, run_bind_of_ok (run_getColumnFamily s name), he]
  rfl

/-- Looking up or creating a folder that does not exist creates it. -/
theorem run_getOrCreate_of_none {s : DbClient} {i : Nat} {d : Database} (hs : Serving s i d)
    {env : Env} (henv : Healthy env) {name : String} (h : s.view name = none) :
    ∃ cf, (getOrCreateColumnFamily env name).run s = .ok (some cf) (s.created d name) ∧
      cf.name = name ∧ cf.db = s.rocks.nextDb := by
  have hn : name ∉ d.names := by
    rw [← view_isSome_iff hs, h]
    simp
  have hcreated := created_serving hs name
  have hsome : ((s.created d name).view name).isSome := by
    rw [view_created hs, Folders.create_apply, if_pos rfl]
    rfl
  obtain ⟨e, he, hname, hdb⟩ := lookup_handle hcreated hsome
  refine ⟨e.handle, ?_, hname, hdb⟩
  rw [getOrCreateColumnFamily, run_bind_of_ok (run_getColumnFamily s name), lookup_eq_none hs h]
  have hrun := (run_createColumnFamily_eq_ok hs).mpr ⟨henv, hn, rfl, rfl⟩
  rw [Option.map_none, Option.isSome_none, if_neg (by simp), run_bind_of_ok hrun,
    run_getColumnFamily, he]
  rfl

/-- What the server looks at after making sure of a folder: the client still serves, the
folder is there, the handle is one of the open instance, and the instance changed exactly
if the folder was created. -/
structure Obtained (s : DbClient) (name : String) (cf : ColumnFamilyHandle) (t : DbClient) :
    Prop where
  serves : Serves t
  view : t.view = s.view.touch name
  name_eq : cf.name = name
  live : t.db = some cf.db
  frame : t.impl = s.impl ∧ t.cfg = s.cfg
  next : s.rocks.nextDb ≤ t.rocks.nextDb
  same : (s.view name).isSome → t = s
  fresh : s.view name = none → cf.db = s.rocks.nextDb

/-- Looking up or creating a folder. -/
theorem run_getOrCreate {s : DbClient} (hs : Serves s) {env : Env} (henv : Healthy env)
    (name : String) :
    ∃ cf t, (getOrCreateColumnFamily env name).run s = .ok (some cf) t ∧ Obtained s name cf t := by
  obtain ⟨i, d, hs⟩ := hs
  cases hv : s.view name with
  | some f =>
    have hsome : (s.view name).isSome := Option.isSome_of_eq_some hv
    obtain ⟨cf, hrun, hname, hdb⟩ := run_getOrCreate_of_isSome hs env hsome
    refine ⟨cf, s, hrun, ⟨i, d, hs⟩, (Folders.touch_of_isSome hsome).symm, hname, ?_, ⟨rfl, rfl⟩,
      Nat.le_refl _, fun _ ↦ rfl, ?_⟩
    · rw [hs.instance_eq, hdb]
    · rw [hv]
      exact fun h ↦ absurd h (by simp)
  | none =>
    obtain ⟨cf, hrun, hname, hdb⟩ := run_getOrCreate_of_none hs henv hv
    have hcreated := created_serving hs name
    obtain ⟨himpl, hcfg, -, hnext⟩ := reopened_frame (s.added d name) (d.write name [])
    refine ⟨cf, s.created d name, hrun, ⟨_, _, hcreated⟩, ?_, hname, ?_, ⟨himpl, hcfg⟩, ?_, ?_,
      fun _ ↦ hdb⟩
    · rw [view_created hs, Folders.touch_of_none hv]
    · rw [hcreated.instance_eq, hdb]
    · rw [created, hnext]
      exact Nat.le_succ _
    · rw [hv]
      exact fun h ↦ absurd h (by simp)

/-! ### Identifiers -/

/-- Caching other data for a folder with the same handle keeps the client serving. -/
theorem serving_cache {s : DbClient} {i : Nat} {d : Database} (hs : Serving s i d)
    {name : String} {e : ColumnFamilyData} (he : s.columnFamalies.lookup name = some e)
    (u : UInt64) : Serving (s.cache name { e with lastUnique := u }) i d := by
  have hmem : name ∈ s.columnFamalies := AList.lookup_isSome.mp (Option.isSome_of_eq_some he)
  refine ⟨hs.same_dir, hs.instance_eq, hs.instance_lt, hs.database_eq, hs.handles_names,
    hs.handles_db, ?_, ?_⟩
  · intro n
    rw [cache, AList.mem_insert, ← hs.mem_cache]
    constructor
    · rintro (rfl | h)
      · exact hmem
      · exact h
    · exact Or.inr
  · intro n e' he'
    by_cases hn : n = name
    · subst hn
      rw [cache, AList.lookup_insert] at he'
      cases he'
      exact hs.cached n e he
    · rw [cache, AList.lookup_insert_ne hn] at he'
      exact hs.cached n e' he'

/-- Caching another counter for a folder changes that folder's counter. -/
theorem view_cache {s : DbClient} {i : Nat} {d : Database} (hs : Serving s i d)
    {name : String} {e : ColumnFamilyData} (he : s.columnFamalies.lookup name = some e)
    (u : UInt64) :
    (s.cache name { e with lastUnique := u }).view =
      Function.update s.view name ((s.view name).map (fun f ↦ { f with lastUnique := u })) := by
  have hs' := serving_cache hs he u
  funext n
  apply Option.ext
  intro f
  rw [view_eq_some hs']
  by_cases hn : n = name
  · subst hn
    rw [Function.update_self, Option.map_eq_some_iff, cache, AList.lookup_insert]
    constructor
    · rintro ⟨hf, e', he', hu⟩
      cases he'
      refine ⟨⟨f.records, e.lastUnique⟩, (view_eq_some hs).mpr ⟨hf, e, he, rfl⟩, ?_⟩
      rcases f with ⟨records, lastUnique⟩
      cases hu
      rfl
    · rintro ⟨g, hg, rfl⟩
      exact ⟨((view_eq_some hs).mp hg).1, _, rfl, rfl⟩
  · rw [Function.update_of_ne hn, cache, AList.lookup_insert_ne hn, view_eq_some hs]

/-- Generating an identifier makes sure of the folder, and takes and advances its counter. -/
theorem run_generateId {s : DbClient} (hs : Serves s) {env : Env} (henv : Healthy env)
    (name : String) (ts : UInt64) :
    ∃ cf r f t, Obtained s name cf r ∧ s.view.touch name name = some f ∧
      (generateId env name ts).run s = .ok ⟨effectiveTs env ts, f.lastUnique⟩ t ∧
      Serves t ∧ t.view = (s.view.touch name).issue name ∧ t.db = r.db ∧ t.rocks = r.rocks ∧
      t.impl = r.impl ∧ t.cfg = r.cfg := by
  obtain ⟨cf, r, hrun, hobt⟩ := run_getOrCreate hs henv name
  obtain ⟨i, d, hr⟩ := hobt.serves
  obtain ⟨f, hf⟩ := Option.isSome_iff_exists.mp (Folders.touch_isSome s.view name)
  have hrf : r.view name = some f := by rw [hobt.view, hf]
  obtain ⟨-, e, he, hu⟩ := (view_eq_some hr).mp hrf
  refine ⟨cf, r, f, r.cache name { e with lastUnique := e.lastUnique + 1 }, hobt, hf, ?_,
    ⟨i, d, serving_cache hr he _⟩, ?_, rfl, rfl, rfl, rfl⟩
  · have hfetch : (fetchAdd name).run r =
        .ok f.lastUnique (r.cache name { e with lastUnique := e.lastUnique + 1 }) := by
      rw [fetchAdd, run_bind_of_ok (EStateM.run_get r)]
      simp only [he]
      rw [run_bind_of_ok (EStateM.run_set _ _), EStateM.run_pure, hu]
    rw [generateId, run_bind_of_ok hrun, run_bind_of_ok hfetch, EStateM.run_pure]
  · rw [view_cache hr he, hobt.view, Folders.issue, hf, Option.map_some, Option.map_some, hu]

/-! ### Reading and writing -/

/-- A handle of the open instance reaches the folder it is named after. -/
theorem run_deref_of_view {s : DbClient} (hs : Serves s) {cf : ColumnFamilyHandle} {f : Folder}
    (hdb : s.db = some cf.db) (hf : s.view cf.name = some f) :
    (deref (some cf)).run s = .ok (cf, f.records) s := by
  obtain ⟨i, d, hs⟩ := hs
  apply run_deref hdb
  rw [family, hs.database_eq]
  exact ((view_eq_some hs).mp hf).1

/-- A handle of an instance that is not the open one must not be used. -/
theorem run_deref_of_closed {s : DbClient} {cf : ColumnFamilyHandle} (h : s.db ≠ some cf.db) :
    (deref (some cf)).run s = .error .crash s := by
  rw [deref, run_bind_of_ok (EStateM.run_get s)]
  simp only [h, if_false]
  rfl

/-- The records of a folder in use: one registered with a handle of the open database. -/
def records (s : DbClient) (name : String) : Option ColumnFamily :=
  match s.columnFamalies.lookup name with
  | none => none
  | some e => if s.db = some e.handle.db then s.family e.handle.name else none

/-- What it means for a folder to be in use. -/
theorem records_eq_some {s : DbClient} {name : String} {es : ColumnFamily} :
    s.records name = some es ↔
      ∃ e, s.columnFamalies.lookup name = some e ∧ s.db = some e.handle.db ∧
        s.family e.handle.name = some es := by
  rw [records]
  cases s.columnFamalies.lookup name with
  | none => simp
  | some e =>
    by_cases hdb : s.db = some e.handle.db
    · simp [hdb]
    · simp [hdb]

/-- The handle of a folder in use reaches its records. -/
theorem run_deref_of_records {s : DbClient} {name : String} {e : ColumnFamilyData}
    (he : s.columnFamalies.lookup name = some e) {es : ColumnFamily}
    (h : s.records name = some es) : (deref (some e.handle)).run s = .ok (e.handle, es) s := by
  obtain ⟨e', he', hdb, hfamily⟩ := records_eq_some.mp h
  rw [he] at he'
  cases he'
  exact run_deref hdb hfamily

/-- A folder in use is found, with a handle that reaches its records. -/
theorem run_of_records {s : DbClient} {name : String} {es : ColumnFamily}
    (h : s.records name = some es) :
    ∃ cf, (getColumnFamily name).run s = .ok (some cf) s ∧
      (deref (some cf)).run s = .ok (cf, es) s := by
  obtain ⟨e, he, -⟩ := records_eq_some.mp h
  refine ⟨e.handle, ?_, run_deref_of_records he h⟩
  rw [run_getColumnFamily, he, Option.map_some]

/-- The range of a folder whose handle reaches its records. -/
theorem run_getUniqueRange {s : DbClient} {cf : ColumnFamilyHandle} {es : ColumnFamily}
    (hd : (deref (some cf)).run s = .ok (cf, es) s) :
    (getUniqueRange (some cf)).run s = .ok (uniqueRange es) s := by
  rw [getUniqueRange, run_bind_of_ok hd]
  rfl

/-- Any other registered folder has a handle that must not be used. -/
theorem run_deref_of_no_records {s : DbClient} {name : String} {e : ColumnFamilyData}
    (he : s.columnFamalies.lookup name = some e) (h : s.records name = none) :
    (deref (some e.handle)).run s = .error .crash s := by
  simp only [records, he] at h
  split at h
  · next hdb =>
    rw [deref, run_bind_of_ok (EStateM.run_get s)]
    simp only [hdb, if_true, h]
    rfl
  · next hdb => exact run_deref_of_closed hdb

/-- The folders of a client that serves are in use. -/
theorem records_of_view {s : DbClient} (hs : Serves s) {name : String} {f : Folder}
    (hf : s.view name = some f) : s.records name = some f.records := by
  obtain ⟨i, d, hserv⟩ := hs
  obtain ⟨e, he, hname, hdb⟩ := lookup_handle hserv (Option.isSome_of_eq_some hf)
  refine records_eq_some.mpr ⟨e, he, ?_, ?_⟩
  · rw [hserv.instance_eq, hdb]
  · rw [hname, family_of_view hf]

/-- Writing to an existing family keeps the client serving. -/
theorem serving_writeFamily {s : DbClient} {i : Nat} {d : Database} (hs : Serving s i d)
    {name : String} (hn : name ∈ d.names) (es : ColumnFamily) :
    Serving (s.writeFamily name es) i (d.write name es) := by
  have hw : s.writeFamily name es =
      { s with rocks := s.rocks.setDisk s.openDir (d.write name es) } := by
    rw [writeFamily, hs.database_eq]
  have hnames (n : String) : n ∈ (d.write name es).names ↔ n ∈ d.names := by
    rw [Database.mem_names, Database.family_write, Database.mem_names]
    by_cases h : n = name
    · subst h
      simpa using (d.mem_names n).mp hn
    · rw [if_neg h]
  have hperm : (d.write name es).names.Perm d.names :=
    (List.perm_ext_iff_of_nodup (Database.names_nodup _) d.names_nodup).mpr hnames
  rw [hw]
  refine ⟨hs.same_dir, hs.instance_eq, hs.instance_lt, Function.update_self _ _ _,
    hs.handles_names.trans hperm.symm, hs.handles_db, ?_, hs.cached⟩
  intro n
  rw [hnames]
  exact hs.mem_cache n

/-- Writing to a family, on the folders. -/
theorem view_writeFamily {s : DbClient} {i : Nat} {d : Database} (hs : Serving s i d)
    {name : String} (hn : name ∈ d.names) (es : ColumnFamily) :
    (s.writeFamily name es).view =
      Function.update s.view name ((s.view name).map (fun f ↦ { f with records := es })) := by
  have hs' := serving_writeFamily hs hn es
  have hcache : (s.writeFamily name es).columnFamalies = s.columnFamalies := by
    rw [writeFamily, hs.database_eq]
  funext n
  apply Option.ext
  intro f
  rw [view_eq_some hs', hcache, Database.family_write]
  by_cases h : n = name
  · subst h
    rw [if_pos rfl, Function.update_self, Option.map_eq_some_iff]
    constructor
    · rintro ⟨hf, e, he, hu⟩
      obtain ⟨es', hes'⟩ := (d.mem_names n).mp hn
      refine ⟨⟨es', e.lastUnique⟩, (view_eq_some hs).mpr ⟨hes', e, he, rfl⟩, ?_⟩
      rcases f with ⟨records, lastUnique⟩
      cases hu
      cases hf
      rfl
    · rintro ⟨g, hg, rfl⟩
      exact ⟨rfl, ((view_eq_some hs).mp hg).2⟩
  · rw [if_neg h, Function.update_of_ne h, view_eq_some hs]

/-- A write through a handle of the open instance stores the record if RocksDB accepts it. -/
theorem run_put {s : DbClient} (hs : Serves s) {cf : ColumnFamilyHandle}
    (hdb : s.db = some cf.db) (hf : (s.view cf.name).isSome) (io : Status) (wopt : WriteOptions)
    (key val : Bytes) :
    ∃ t, (put io wopt (some cf) key val).run s = .ok io t ∧ Serves t ∧
      t.view = (if io.isOk then s.view.store cf.name key val else s.view) ∧
      t.db = s.db ∧ t.rocks.nextDb = s.rocks.nextDb ∧ t.impl = s.impl ∧ t.cfg = s.cfg := by
  obtain ⟨f, hf⟩ := Option.isSome_iff_exists.mp hf
  rw [put, run_bind_of_ok (run_deref_of_view hs hdb hf)]
  by_cases hio : io.isOk = true
  · obtain ⟨i, d, hs⟩ := hs
    have hn : cf.name ∈ d.names := by rw [← view_isSome_iff hs, hf]; rfl
    have hw : s.writeFamily cf.name
          (OrderedStore.put IDComparator.compare key val f.records) =
        { s with rocks := s.rocks.setDisk s.openDir (d.write cf.name
          (OrderedStore.put IDComparator.compare key val f.records)) } := by
      rw [writeFamily, hs.database_eq]
    refine ⟨s.writeFamily cf.name (OrderedStore.put IDComparator.compare key val f.records), ?_,
      ⟨i, _, serving_writeFamily hs hn _⟩, ?_, ?_⟩
    · simp [hio]
    · rw [view_writeFamily hs hn, if_pos hio, Folders.store, hf]
      rfl
    · rw [hw]
      exact ⟨rfl, rfl, rfl, rfl⟩
  · refine ⟨s, ?_, hs, ?_, rfl, rfl, rfl, rfl⟩
    · simp [hio]
    · rw [if_neg hio]

/-- A read through a handle of the open instance reports what the folder holds. -/
theorem run_get {s : DbClient} (hs : Serves s) {cf : ColumnFamilyHandle} {f : Folder}
    (hdb : s.db = some cf.db) (hf : s.view cf.name = some f) (key : Slice) :
    (get (some cf) key).run s =
      .ok (match OrderedStore.get IDComparator.compare key f.records with
        | some val => (.ok, val)
        | none => (.failed "NotFound: ", [])) s := by
  rw [get, run_bind_of_ok (run_deref_of_view hs hdb hf)]
  cases hg : OrderedStore.get IDComparator.compare key f.records with
  | none => simp [hg]
  | some val => simp [hg]

/-! ### Starting -/

/-- The folders a constructor leaves are seeded from the families of its directory. -/
theorem view_start {impl : Impl} {env : Env} {cfg : Config} {rocks : RocksDB} {s : DbClient}
    (hdir : cfg.dbName = cfg.openDir impl) (h : start impl env cfg rocks = .ok () s)
    (name : String) :
    s.view name =
      (((rocks.disk (cfg.openDir impl)).getD Database.initial).family name).map
        (fun es ↦ ⟨es, (uniqueRange es).till⟩) := by
  obtain ⟨hd, rfl⟩ := start_eq_ok hdir h
  exact view_reopened hdir hd (fun n hn ↦ absurd hn (AList.notMem_empty n)) name

/-- On an empty disk a constructor leaves empty folders with their counters at zero. -/
theorem view_start_empty {impl : Impl} {env : Env} {cfg : Config} {s : DbClient}
    (h : start impl env cfg RocksDB.empty = .ok () s) {name : String} {f : Folder}
    (hf : s.view name = some f) : f = ⟨[], 0⟩ := by
  rw [view_start (same_dir_of_start_empty h) h] at hf
  obtain ⟨es, hes, rfl⟩ := Option.map_eq_some_iff.mp hf
  rw [Database.family_initial hes]
  rfl

/-- The default folder of a new database is in use and empty. -/
theorem records_start_empty {impl : Impl} {env : Env} {cfg : Config} {s : DbClient}
    (h : start impl env cfg RocksDB.empty = .ok () s) : s.records defaultName = some [] := by
  obtain ⟨i, hserv⟩ := start_serving (same_dir_of_start_empty h) h
  obtain ⟨f, hf⟩ := Option.isSome_iff_exists.mp
    ((view_isSome_iff hserv).mpr (Database.default_mem_names _))
  rw [records_of_view ⟨i, _, hserv⟩ hf, view_start_empty h hf]

/-- The configuration a constructor leaves in the object. -/
theorem frame_start {impl : Impl} {env : Env} {cfg : Config} {rocks : RocksDB} {s : DbClient}
    (hdir : cfg.dbName = cfg.openDir impl) (h : start impl env cfg rocks = .ok () s) :
    s.impl = impl ∧ s.cfg = cfg := by
  obtain ⟨-, rfl⟩ := start_eq_ok hdir h
  obtain ⟨himpl, hcfg, -⟩ := reopened_frame (tried impl env cfg rocks)
    ((rocks.disk (cfg.openDir impl)).getD Database.initial)
  exact ⟨himpl, hcfg⟩

/-- Starting again on the data of a client that serves: every counter is set again. -/
theorem run_restart {s : DbClient} (hs : Serves s) {env : Env} (henv : Healthy env) :
    ∃ t, start s.impl env s.cfg s.rocks = .ok () t ∧ Serves t ∧ t.view = s.view.reopen ∧
      t.impl = s.impl ∧ t.cfg = s.cfg := by
  obtain ⟨i, d, hs⟩ := hs
  have hdisk : s.rocks.disk (s.cfg.openDir s.impl) = some d := hs.database_eq
  have hrun := start_of_disk hs.same_dir hdisk henv.list henv.reopen
  obtain ⟨i', hserv⟩ := start_serving hs.same_dir hrun
  refine ⟨_, hrun, ⟨i', _, hserv⟩, ?_, frame_start hs.same_dir hrun⟩
  funext name
  rw [view_start hs.same_dir hrun, hdisk, Option.getD_some, reopen_view hs]

end TimeMachine.Client.DbClient
