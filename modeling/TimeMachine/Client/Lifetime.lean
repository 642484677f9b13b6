import TimeMachine.Client.Operations

/-!
# The registry over a client's lifetime

From a successful start on, whatever folders are asked for and however often the
client is started again, the cache, the handles and the database name the same
folders. Only calls that succeed count: a failed creation can leave a client behind
that serves nothing.
-/

namespace TimeMachine.Client
open TimeMachine.Base TimeMachine.Base.StateError TimeMachine.Store

/-- What happens to a client: a folder is asked for, or the server starts again. -/
inductive LifetimeOp where
  | getOrCreate (env : Env) (name : String)
  | restart (env : Env)

/-- The environment of the operation. -/
def LifetimeOp.env : LifetimeOp → Env
  | .getOrCreate env _ => env
  | .restart env => env

namespace DbClient

/-- The client after the operation, if it succeeds. -/
def lifetimeStep (s : DbClient) : LifetimeOp → Option DbClient
  | .getOrCreate env name =>
    match (getOrCreateColumnFamily env name).run s with
    | .ok _ t => some t
    | .error _ _ => none
  | .restart env =>
    match newLocalDBClient env s.cfg s.rocks with
    | .ok () t => some t
    | .error _ _ => none

/-- Cache, handles and database name the same folders. -/
structure RegistryInvariant (s : DbClient) (d : Database) : Prop where
  database_eq : s.database = some d
  keys : ∀ name, name ∈ s.columnFamalies ↔ name ∈ d.names
  entries : ∀ name data, s.columnFamalies.lookup name = some data →
    data.handle ∈ s.handles ∧ data.handle.name = name
  handles_nodup : (s.handles.map (·.name)).Nodup
  lookup : ∀ name, (∃ cf, (getColumnFamily name).run s = .ok (some cf) s) ↔ name ∈ d.names

/-- A client that serves a database keeps its registry. -/
theorem Serving.registry {s : DbClient} {i : Nat} {d : Database} (hs : Serving s i d) :
    RegistryInvariant s d := by
  refine ⟨hs.database_eq, hs.mem_cache, hs.cached, ?_, ?_⟩
  · exact hs.handles_names.nodup_iff.mpr d.names_nodup
  · intro name
    rw [← hs.mem_cache, ← AList.lookup_isSome]
    simp only [run_getColumnFamily, EStateM.Result.ok.injEq, and_true]
    cases s.columnFamalies.lookup name with
    | none => simp
    | some data => simp

/-- A folder that was looked up or created leaves a client that serves. -/
theorem serves_of_getOrCreate {s t : DbClient} (hs : Serves s) {env : Env} {name : String}
    {cf : Option ColumnFamilyHandle}
    (h : (getOrCreateColumnFamily env name).run s = .ok cf t) :
    Serves t ∧ t.impl = s.impl ∧ t.cfg = s.cfg := by
  obtain ⟨i, d, hs⟩ := hs
  by_cases hv : (s.view name).isSome
  · obtain ⟨cf', hrun, -⟩ := run_getOrCreate_of_isSome hs env hv
    rw [hrun] at h
    cases h
    exact ⟨⟨i, d, hs⟩, rfl, rfl⟩
  · have hv : s.view name = none := by simpa using hv
    rw [getOrCreateColumnFamily, run_bind_of_ok (run_getColumnFamily s name),
      lookup_eq_none hs hv, Option.map_none, Option.isSome_none, if_neg (by simp)] at h
    obtain ⟨r, u, hcreate, hlookup⟩ := run_bind_eq_ok.mp h
    obtain ⟨-, -, -, rfl⟩ := (run_createColumnFamily_eq_ok hs).mp hcreate
    rw [run_getColumnFamily] at hlookup
    cases hlookup
    obtain ⟨himpl, hcfg, -⟩ := reopened_frame (s.added d name) (d.write name [])
    exact ⟨⟨_, _, created_serving hs name⟩, himpl, hcfg⟩

/-- A successful operation leaves a local client that serves. -/
theorem serves_lifetimeStep {s t : DbClient} {op : LifetimeOp} (h : s.lifetimeStep op = some t)
    (hs : Serves s ∧ s.impl = .localDBClient) : Serves t ∧ t.impl = .localDBClient := by
  obtain ⟨hs, himpl⟩ := hs
  cases op with
  | getOrCreate env name =>
    simp only [lifetimeStep] at h
    split at h
    · next hrun =>
      cases h
      obtain ⟨ht, himpl', -⟩ := serves_of_getOrCreate hs hrun
      exact ⟨ht, himpl'.trans himpl⟩
    · cases h
  | restart env =>
    simp only [lifetimeStep, newLocalDBClient] at h
    split at h
    · next hrun =>
      cases h
      obtain ⟨i, d, hs⟩ := hs
      have hdir : s.cfg.dbName = s.cfg.openDir .localDBClient := by
        rw [← himpl]
        exact hs.same_dir
      obtain ⟨j, ht⟩ := start_serving hdir hrun
      exact ⟨⟨j, _, ht⟩, (frame_start hdir hrun).1⟩
    · cases h

/-- On a client that serves, an operation succeeds when RocksDB does. -/
theorem lifetimeStep_of_healthy {s : DbClient} (hs : Serves s ∧ s.impl = .localDBClient)
    (op : LifetimeOp) (henv : Healthy op.env) : ∃ t, s.lifetimeStep op = some t := by
  cases op with
  | getOrCreate env name =>
    have henv : Healthy env := henv
    obtain ⟨cf, t, hrun, -⟩ := run_getOrCreate hs.1 henv name
    exact ⟨t, by simp [lifetimeStep, hrun]⟩
  | restart env =>
    have henv : Healthy env := henv
    obtain ⟨t, hrun, -⟩ := run_restart hs.1 henv
    rw [hs.2] at hrun
    exact ⟨t, by simp [lifetimeStep, newLocalDBClient, hrun]⟩

/-- After a successful start on one directory, and after every sequence of successful
operations, cache, handles and database name the same folders. -/
theorem registry_invariant {cfg : Config} (hdir : cfg.dbName = cfg.sourceLocalDir) {env : Env}
    {rocks : RocksDB} {s t : DbClient} (hstart : newLocalDBClient env cfg rocks = .ok () s)
    {ops : List LifetimeOp} (hrun : run lifetimeStep s ops = some t) :
    ∃ d, RegistryInvariant t d := by
  rw [newLocalDBClient] at hstart
  obtain ⟨i, hs⟩ := start_serving hdir hstart
  have himpl := (frame_start hdir hstart).1
  obtain ⟨⟨j, d, ht⟩, -⟩ := run_invariant
    (I := fun s ↦ Serves s ∧ s.impl = .localDBClient)
    (fun _ _ _ h ↦ serves_lifetimeStep h) hrun ⟨⟨i, _, hs⟩, himpl⟩
  exact ⟨d, ht.registry⟩

/-- The invariant in the default configuration, after a folder was created and the server
started again. -/
theorem registry_invariant_default :
    ∃ s t, newLocalDBClient { now := 1, now_ne_zero := by decide } {} RocksDB.empty = .ok () s ∧
      run lifetimeStep s [.getOrCreate { now := 2, now_ne_zero := by decide } "f",
        .restart { now := 3, now_ne_zero := by decide }] = some t ∧
      ∃ d, RegistryInvariant t d := by
  obtain ⟨s, hs⟩ := start_of_empty .localDBClient {}
    { now := 1, now_ne_zero := by decide } rfl rfl rfl rfl
  obtain ⟨i, hserv⟩ := start_serving rfl hs
  have h₀ : Serves s ∧ s.impl = .localDBClient := ⟨⟨i, _, hserv⟩, (frame_start rfl hs).1⟩
  obtain ⟨r, hr⟩ := lifetimeStep_of_healthy h₀
    (.getOrCreate { now := 2, now_ne_zero := by decide } "f") ⟨rfl, rfl, rfl⟩
  obtain ⟨t, ht⟩ := lifetimeStep_of_healthy (serves_lifetimeStep hr h₀)
    (.restart { now := 3, now_ne_zero := by decide }) ⟨rfl, rfl, rfl⟩
  have hrun : run lifetimeStep s [.getOrCreate { now := 2, now_ne_zero := by decide } "f",
      .restart { now := 3, now_ne_zero := by decide }] = some t := by
    rw [run, hr, Option.bind_some, run, ht, Option.bind_some, run]
  exact ⟨s, t, hs, hrun, registry_invariant rfl hs hrun⟩

end DbClient
end TimeMachine.Client
