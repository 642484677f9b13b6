import TimeMachine.Server.ReadSources

/-!
# Recovery

Whatever RocksDB answered before, however the server went down and whatever was lost
then, one start that can list and open the database makes the service an archive again,
of the records that are left; and these were all sent by writes that RocksDB reported as
done. A process that is killed loses writes, those without a log first of all: what it
leaves may be any choice of them.
-/

namespace TimeMachine.Server
open TimeMachine.Base TimeMachine.Base.StateError TimeMachine.Store TimeMachine.Client DbClient

/-- The records of the database in a directory, as an archive. -/
def archiveOf (pb : Protobuf) (r : RocksDB) (dir : String) : Archive := fun name ↦
  (entriesIn r dir name).map (allRecords pb)

section
variable {pb : Protobuf} {W : Writers} {r : RocksDB} (hstore : StoreInvariant pb r)
  (hW : CarriesIDs pb W) (hsourced : Sourced W r)

include hW hsourced

/-- The entry of a stored record is the one stored. -/
theorem entry_entryRecord {dir name : String} {es : ColumnFamily}
    (hes : entriesIn r dir name = some es) {e : Slice × Bytes} (he : e ∈ es) :
    Archive.entry pb (entryRecord pb e) = e := by
  obtain ⟨data, id, -, rfl⟩ := hW name e (hsourced dir name es hes e he)
  rw [entryRecord, Archive.entry, Prod.map, deserializeID_serializeID, pb.parse_serialize]

include hstore

/-- An archive of what is stored holds that. -/
theorem contents_archiveOf (dir : String) :
    (archiveOf pb r dir).contents pb = entriesIn r dir := by
  funext name
  rw [Archive.contents, archiveOf, Option.map_map]
  cases hes : entriesIn r dir name with
  | none => rfl
  | some es =>
    obtain ⟨d, hd, hfamily⟩ := Option.bind_eq_some_iff.mp hes
    have hkept := (hstore dir d name es hd hfamily).kept
    have hentries : (allRecords pb es).map (Archive.entry pb) = es := by
      rw [allRecords, List.map_map]
      exact (List.map_congr_left fun e he ↦ entry_entryRecord hW hsourced hes he).trans
        (List.map_id es)
    rw [Option.map_some, Function.comp_apply, hentries, hkept.replay_eq IDComparator.dated_total]

/-- A start that can list and open a database leaves a service that is the archive of its
records. -/
theorem archived_after_start (lib : Libraries) (hlib : lib.pb = pb) {p : Process} (hp : p.rocks = r)
    {impl : Impl} {env : Env} {cfg : Config} (hdir : cfg.dbName = cfg.openDir impl)
    (hlist : env.list = .ok) (hreopen : env.reopen = .ok)
    (hdisk : (r.disk (cfg.openDir impl)).isSome) {events : List ServiceEvent}
    (he : ∀ e ∈ events, e.Durable impl cfg) :
    ∃ client b, p.afterAll lib (.start impl env cfg :: events) = .running client ∧
      Archive.Run lib (archiveOf pb r (cfg.openDir impl))
        (p.log lib (.start impl env cfg :: events)) b ∧
      client.view.contents = b.contents pb := by
  subst hlib
  obtain ⟨d, hd⟩ := Option.isSome_iff_exists.mp hdisk
  have hstart := start_of_disk hdir hd hlist hreopen
  obtain ⟨i, hserv⟩ := start_serving hdir hstart
  obtain ⟨himpl, hcfg⟩ := frame_start hdir hstart
  have hview := view_start hdir hstart
  generalize (tried impl env cfg r).reopened d = first at hstart hserv himpl hcfg hview
  have hfirst : first.view.contents = (archiveOf lib.pb r (cfg.openDir impl)).contents lib.pb := by
    rw [contents_archiveOf hstore hW hsourced]
    funext name
    rw [Folders.contents, hview name, hd, Option.getD_some, Option.map_map, entriesIn, hd,
      Option.bind_some]
    exact Option.map_id'
  have hserve : p.serve lib (.start impl env cfg) = (.running first, .none) := by
    simp only [Process.serve, hp, hstart]
  obtain ⟨client, b, hall, -, hrun, hb⟩ :=
    archived_run lib ⟨i, _, hserv⟩ hfirst (by rwa [himpl, hcfg])
  refine ⟨client, b, ?_, ?_, hb⟩
  · rw [Process.afterAll, List.foldl_cons, hserve]
    exact hall
  · rw [Process.log, hserve]
    exact .cons (.start impl env cfg) hrun

end

/-! ### Runs with losses -/

/-- What a process that is killed may leave on disk: of the writes that RocksDB reported as done in
a run any choice, one under each key. -/
structure LeftOver (pb : Protobuf) (events : List ServiceEvent) (r : RocksDB) : Prop where
  sourced : Sourced (fun name x ↦ ∃ e ∈ events, e.Sends pb name x) r
  sorted : EveryFolder (OrderedStore.Kept IDComparator.compare IDComparator.Dated) r

/-- A run from an empty disk whose process may be killed at any moment. -/
inductive KilledRun (lib : Libraries) : List ServiceEvent → Process → Prop where
  | begin : KilledRun lib [] (.down RocksDB.empty)
  | event {events : List ServiceEvent} {p : Process} (h : KilledRun lib events p)
      (e : ServiceEvent) : KilledRun lib (events ++ [e]) (p.serve lib e).1
  | killed {events : List ServiceEvent} {p : Process} {r : RocksDB} (h : KilledRun lib events p)
      (hleft : LeftOver lib.pb events r) : KilledRun lib events (.down r)

section
variable {lib : Libraries} {before : List ServiceEvent} {p : Process} {r : RocksDB}

/-- A run goes on. -/
theorem KilledRun.afterAll (h : KilledRun lib before p) (events : List ServiceEvent) :
    KilledRun lib (before ++ events) (p.afterAll lib events) := by
  induction events generalizing before p with
  | nil => rwa [List.append_nil]
  | cons e rest ih =>
    have hrest := ih (h.event e)
    rwa [List.append_assoc, List.singleton_append] at hrest

/-- What is left over is stored as the server writes it. -/
theorem LeftOver.storeInvariant (h : LeftOver lib.pb before r) : StoreInvariant lib.pb r := by
  intro dir d name es hd hes
  refine ⟨h.sorted dir d name es hd hes, fun e he ↦ ?_⟩
  have hentries : entriesIn r dir name = some es := by rw [entriesIn, hd, Option.bind_some, hes]
  exact ((sends_carriesIDs lib.pb before).carried (h.sourced dir name es hentries e he)).1

/-- What such a run has stored was sent by its events, as the server writes it. -/
theorem KilledRun.tracked (h : KilledRun lib before p) :
    (∃ r, TrackedProcess (fun name x ↦ ∃ e ∈ before, e.Sends lib.pb name x) r p) ∧
      StoreInvariant lib.pb p.rocks := by
  induction h with
  | begin => exact ⟨⟨RocksDB.empty, sourced_empty, keysKept_refl _⟩, storeInvariant_empty⟩
  | @event events p h e ih =>
    obtain ⟨⟨r, htracked⟩, hstore⟩ := ih
    have hmore : TrackedProcess (fun name x ↦ ∃ e' ∈ events ++ [e], e'.Sends lib.pb name x) r p :=
      htracked.mono fun name x ⟨e', he', hx⟩ ↦ ⟨e', List.mem_append_left _ he', hx⟩
    have hserve := tracked_serve lib (fun name x ⟨e', _, hx⟩ ↦ e'.dated_of_sends hx) hmore
      fun name x hx ↦ ⟨e, List.mem_append_right _ List.mem_cons_self, hx⟩
    exact ⟨hserve.1, storeInvariant_serve lib hstore e⟩
  | @killed events p r h hleft ih =>
    exact ⟨⟨r, hleft.sourced, keysKept_refl r⟩, hleft.storeInvariant⟩

end

/-- After any run from an empty disk, whatever RocksDB answered, however often the server crashed or
was killed and whichever writes were lost then, a start that can list and open the database leaves
a service that is the archive of the records stored there, in every run of durable events from then
on; and each of these records was sent by a write of the earlier run that RocksDB reported as
done. -/
theorem recovered_archived {lib : Libraries} {before : List ServiceEvent} {p : Process}
    (hbefore : KilledRun lib before p) {impl : Impl} {env : Env} {cfg : Config}
    (hdir : cfg.dbName = cfg.openDir impl) (hlist : env.list = .ok) (hreopen : env.reopen = .ok)
    (hdisk : (p.rocks.disk (cfg.openDir impl)).isSome) {events : List ServiceEvent}
    (he : ∀ e ∈ events, e.Durable impl cfg) :
    let a := archiveOf lib.pb p.rocks (cfg.openDir impl)
    (∃ client b, p.afterAll lib (.start impl env cfg :: events) = .running client ∧
      Archive.Run lib a (p.log lib (.start impl env cfg :: events)) b ∧
      client.view.contents = b.contents lib.pb) ∧
    a.contents lib.pb = entriesIn p.rocks (cfg.openDir impl) ∧
    ∀ name log, a name = some log → ∀ x ∈ log, ∃ e ∈ before,
      e.Sends lib.pb name (Archive.entry lib.pb x) := by
  intro a
  obtain ⟨⟨r, htracked⟩, hstore⟩ := hbefore.tracked
  have hsourced := htracked.sourced
  have hW := sends_carriesIDs lib.pb before
  refine ⟨archived_after_start hstore hW hsourced lib rfl rfl hdir hlist hreopen hdisk he,
    contents_archiveOf hstore hW hsourced _, fun name log hlog x hx ↦ ?_⟩
  obtain ⟨es, hes, rfl⟩ := Option.map_eq_some_iff.mp hlog
  obtain ⟨e, he, rfl⟩ := List.mem_map.mp hx
  rw [entry_entryRecord hW hsourced hes he]
  exact hsourced _ name es hes e he

/-- A creation that loses the open database on the way, a crash, a loss of all records, and then a
start. -/
theorem recovered_archived_crash :
    let lib := Libraries.wire
    let env : Env := { now := 1, now_ne_zero := by decide }
    let before : List ServiceEvent :=
      [.start .localDBClient env {}, .call (.save env { folder := "f", data := [7] }),
        .call (.save { env with reopen := .failed "IO error" } { folder := "g", data := [8] }),
        .call (.get { folder := "f", timestamp := 1 })]
    let p := (Process.down RocksDB.empty).afterAll lib before
    let r := RocksDB.empty.setDisk "default" Database.initial
    let events : List ServiceEvent := [.call (.save env { folder := "f", data := [9] })]
    p.isRunning = false ∧ KilledRun lib before p ∧ KilledRun lib before (.down r) ∧
      ∀ q ∈ [p, .down r], ∃ client b,
        q.afterAll lib (.start .localDBClient env {} :: events) = .running client ∧
        Archive.Run lib (archiveOf lib.pb q.rocks "default")
          (q.log lib (.start .localDBClient env {} :: events)) b ∧
        client.view.contents = b.contents lib.pb := by
  intro lib env before p r events
  have hcrashed : KilledRun lib before p := KilledRun.begin.afterAll before
  have hempty (dir name : String) (es : ColumnFamily) (h : entriesIn r dir name = some es) :
      es = [] := by
    have hdisk : r.disk = Function.update (fun _ ↦ none) "default" (some Database.initial) := rfl
    rw [entriesIn, hdisk, Function.update_apply] at h
    split at h
    · have hname : name ∈ Database.initial.names := (Database.mem_names _ _).mpr ⟨es, h⟩
      rw [List.mem_singleton.mp hname] at h
      exact (Option.some.inj h).symm
    · cases h
  have hkilled : KilledRun lib before (.down r) := by
    refine hcrashed.killed ⟨fun dir name es hes e he ↦ ?_, fun dir d name es hd hes ↦ ?_⟩
    · rw [hempty dir name es hes] at he
      cases he
    · rw [hempty dir name es (Option.bind_eq_some_iff.mpr ⟨d, hd, hes⟩)]
      exact OrderedStore.kept_nil
  refine ⟨by decide +kernel, hcrashed, hkilled, List.forall_mem_cons.mpr
    ⟨?_, List.forall_mem_singleton.mpr ?_⟩⟩
  · exact (@recovered_archived lib before p hcrashed .localDBClient env {} rfl rfl rfl
      (by decide +kernel) events (by decide)).1
  · exact (@recovered_archived lib before (.down r) hkilled .localDBClient env {} rfl rfl rfl
      (by decide +kernel) events (by decide)).1

end TimeMachine.Server
