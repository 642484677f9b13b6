import TimeMachine.Server.ServiceRuns
import TimeMachine.Base.Replay

/-!
# The archive

What the service is for, without database, cache, counters and handles: an archive
keeps for each folder the records written to it, oldest first, and a folder holds the
last write under each identifier. The identifier of a write has the requested timestamp,
or the clock's; the number in it is the archive's choice. Starting again does nothing.
Every run of the service on a RocksDB that does what it is asked, except that it may
refuse a write, and keeps every write over restarts, logged or not, is a run of the
archive with the same answers, if no subsample has batches without buffers.
-/

namespace TimeMachine.Server
open TimeMachine.Base TimeMachine.Base.StateError TimeMachine.Store TimeMachine.Client DbClient

/-- For each folder that exists the records written to it, oldest first. -/
abbrev Archive := String → Option (List (ID × Data))

namespace Archive

/-- A new archive has an empty default folder. -/
def initial : Archive := Function.update (fun _ ↦ none) defaultName (some [])

/-- Write records to a folder, which exists from then on. -/
def append (a : Archive) (name : String) (records : List (ID × Data)) : Archive :=
  Function.update a name (some ((a name).getD [] ++ records))

/-- The entry of a record. -/
def entry (pb : Protobuf) : ID × Data → Slice × Bytes :=
  Prod.map serializeID pb.serializeAsString

/-- What the folders hold: the last write under each identifier, in the order of the keys. -/
def contents (pb : Protobuf) (a : Archive) : Contents := fun name ↦
  (a name).map fun log ↦ OrderedStore.replay IDComparator.compare (log.map (entry pb))

/-- How an archive answers an event of the service. -/
inductive Step (lib : Libraries) (a : Archive) : ServiceEvent → Response → Archive → Prop where
  | start (impl : Impl) (env : Env) (cfg : Config) : Step lib a (.start impl env cfg) .none a
  | read {c : Call} {answer : Answer} (h : Tells lib (a.contents lib.pb) answer c) :
    Step lib a (.call c) (.answer answer) a
  | saved {env : Env} {request : SaveRequest} {id : ID} (hput : env.put = .ok)
      (hts : id.timestamp = effectiveTs env request.timestamp) :
    Step lib a (.call (.save env request)) (.answer (.saved .OK id))
      (a.append request.folder [(id, request.message id)])
  | refused {env : Env} {request : SaveRequest} {text : String} (hput : env.put = .failed text) :
    Step lib a (.call (.save env request))
      (.answer (.saved { code := .INTERNAL, message := "Something wrong :( " ++ text } {}))
      (a.append request.folder [])
  | posted {env : Env} {rand : Nat → Rand} {request : HTTPServerRequest} {body : Bytes}
      {h : SaveHandler} {id : ID}
      (hhandler : HandlerFactory.createRequestHandler request = some (.save h))
      (hts : id.timestamp = effectiveTs env h.timestamp) :
    Step lib a (.call (.http env rand request body)) (.answer (.http (postedReply id) []))
      (a.append h.name (if env.put.isOk then [(id, { id := some id, data := body })] else []))

/-- A run of an archive. -/
inductive Run (lib : Libraries) : Archive → List (ServiceEvent × Response) → Archive → Prop where
  | nil (a : Archive) : Run lib a [] a
  | cons {a b c : Archive} {e : ServiceEvent} {r : Response} {rest : List (ServiceEvent × Response)}
      (hstep : Step lib a e r b) (hrest : Run lib b rest c) : Run lib a ((e, r) :: rest) c

variable {a : Archive}

/-- Only the folder written to changes. -/
theorem append_apply (a : Archive) (name other : String) (records : List (ID × Data)) :
    a.append name records other =
      if other = name then some ((a name).getD [] ++ records) else a other := by
  rw [append, Function.update_apply]

/-- What the folders hold after a write. -/
theorem contents_append (pb : Protobuf) (a : Archive) (name : String) (records : List (ID × Data)) :
    (a.append name records).contents pb =
      Function.update (a.contents pb) name (some ((records.map (entry pb)).foldl
        (fun es e ↦ OrderedStore.put IDComparator.compare e.1 e.2 es)
        ((a.contents pb name).getD []))) := by
  funext other
  rw [contents, append_apply, Function.update_apply]
  by_cases h : other = name
  · rw [if_pos h, if_pos h, Option.map_some, List.map_append, OrderedStore.replay,
      List.foldl_append, contents]
    cases a name with
    | none => rfl
    | some log => rfl
  · rw [if_neg h, if_neg h]
    rfl

/-! ### The records are dated -/

/-- Every record has a timestamp and carries its identifier. -/
def DatedLog (log : List (ID × Data)) : Prop :=
  ∀ r ∈ log, r.1.timestamp ≠ 0 ∧ r.2.id = some r.1

/-- All records of the archive are dated. -/
def Dated (a : Archive) : Prop := ∀ name log, a name = some log → DatedLog log

/-- A new archive has no records. -/
theorem dated_initial : Dated initial := by
  intro name log h r hr
  rw [initial, Function.update_apply] at h
  split at h
  · cases h
    cases hr
  · cases h

/-- Appending dated records. -/
theorem dated_append (ha : a.Dated) (name : String) {records : List (ID × Data)}
    (hr : DatedLog records) : (a.append name records).Dated := by
  intro other log h r hmem
  rw [append_apply] at h
  split at h
  · cases h
    rcases List.mem_append.mp hmem with hold | hnew
    · cases hlog : a name with
      | none =>
        rw [hlog] at hold
        cases hold
      | some old =>
        rw [hlog] at hold
        exact ha name old hlog r hold
    · exact hr r hnew
  · exact ha other log h r hmem

/-- The timestamp of a write is never zero. -/
theorem effectiveTs_ne_zero (env : Env) (ts : UInt64) : effectiveTs env ts ≠ 0 := by
  unfold effectiveTs
  split
  · exact env.now_ne_zero
  · next h => exact h

/-- A step keeps the records dated. -/
theorem dated_step {lib : Libraries} {e : ServiceEvent} {r : Response} {b : Archive}
    (h : Step lib a e r b) (ha : a.Dated) : b.Dated := by
  cases h with
  | start impl env cfg => exact ha
  | read h => exact ha
  | saved hput hts =>
    refine dated_append ha _ fun r hr ↦ ?_
    rw [List.mem_singleton.mp hr]
    exact ⟨by rw [hts]; exact effectiveTs_ne_zero _ _, rfl⟩
  | refused hput => exact dated_append ha _ (by simp [DatedLog])
  | posted hhandler hts =>
    refine dated_append ha _ fun r hr ↦ ?_
    split at hr
    · rw [List.mem_singleton.mp hr]
      exact ⟨by rw [hts]; exact effectiveTs_ne_zero _ _, rfl⟩
    · cases hr

/-- A run keeps the records dated. -/
theorem dated_run {lib : Libraries} {l : List (ServiceEvent × Response)} {b : Archive}
    (h : Run lib a l b) (ha : a.Dated) : b.Dated := by
  induction h with
  | nil a => exact ha
  | cons hstep _ ih => exact ih (dated_step hstep ha)

end Archive

/-! ### The service is an archive -/

/-- What a save leaves of the records: its folder exists, and holds the record if it was
written. -/
theorem contents_savedFolders (pb : Protobuf) (env : Env) (request : SaveRequest) (f : Folder)
    (F : Folders) {C : Contents} (hF : F.contents = Function.update C request.folder
      (some ((C request.folder).getD []))) :
    (savedFolders pb env request f F).contents =
      Function.update C request.folder (some (if env.put.isOk then
        OrderedStore.put IDComparator.compare (serializeID (request.nextID env f))
          (pb.serializeAsString (request.message (request.nextID env f)))
          ((C request.folder).getD [])
        else (C request.folder).getD [])) := by
  simp only [savedFolders]
  split
  · rw [Folders.contents_store, Folders.contents_issue, hF, Function.update_idem,
      Function.update_self, Option.map_some]
  · rw [Folders.contents_issue, hF]

variable (lib : Libraries) {s : DbClient} {a : Archive}

private theorem archived_save (hs : Serves s) (ha : s.view.contents = a.contents lib.pb) {env : Env}
    (henv : Healthy env) (request : SaveRequest) :
    ∃ t b r, (Process.running s).serve lib (.call (.save env request)) = (.running t, r) ∧
      Continues s t ∧ Archive.Step lib a (.call (.save env request)) r b ∧
      t.view.contents = b.contents lib.pb := by
  obtain ⟨f, t, -, hrun, ht, hview⟩ := run_save hs henv lib.pb request
  have hserve : (Process.running s).serve lib (.call (.save env request)) =
      (.running t, .answer (.saved (savedReply env.put (request.nextID env f)).1
        (savedReply env.put (request.nextID env f)).2)) := by
    simp only [Process.serve, Process.ask, Call.serve, run_bind_of_ok hrun]
    rfl
  have hcontents := contents_savedFolders lib.pb env request f _
    (Folders.contents_touch s.view request.folder)
  rw [← hview, ha] at hcontents
  rw [hserve]
  cases hput : env.put with
  | ok =>
    rw [hput] at hcontents
    refine ⟨t, _, _, rfl, ht, Archive.Step.saved hput rfl, ?_⟩
    rw [hcontents, Archive.contents_append]
    rfl
  | failed text =>
    rw [hput] at hcontents
    refine ⟨t, _, _, rfl, ht, Archive.Step.refused hput, ?_⟩
    rw [hcontents, Archive.contents_append]
    rfl

private theorem archived_put (hs : Serves s) (ha : s.view.contents = a.contents lib.pb) {env : Env}
    (henv : Healthy env) {rand : Nat → Rand} {request : HTTPServerRequest} (body : Bytes)
    (hroute : HandlerFactory.route request = .put) :
    ∃ t b r, (Process.running s).serve lib (.call (.http env rand request body)) =
        (.running t, r) ∧ Continues s t ∧
      Archive.Step lib a (.call (.http env rand request body)) r b ∧
      t.view.contents = b.contents lib.pb := by
  have hhandler := HandlerFactory.createRequestHandler_of_put hroute
  obtain ⟨f, t, -, hrun, ht, hview⟩ := run_handleRequest hs henv lib.pb
    (createSaveHandler (request.path.get 0) request.queryParameters) body
  generalize createSaveHandler (request.path.get 0) request.queryParameters = h
    at hhandler hrun hview
  have hserve : (Process.running s).serve lib (.call (.http env rand request body)) =
      (.running t,
        .answer (.http (postedReply ⟨effectiveTs env h.timestamp, f.lastUnique⟩) [])) := by
    simp only [Process.serve, Process.ask, Call.serve, hhandler, Handler.handleRequest,
      run_bind_of_ok hrun]
    rfl
  refine ⟨t, _, _, hserve, ht, Archive.Step.posted hhandler rfl, ?_⟩
  have hcontents := contents_savedFolders lib.pb env
    { folder := h.name, data := body, timestamp := h.timestamp } f _
    (Folders.contents_touch s.view h.name)
  rw [hview, hcontents, ha, Archive.contents_append]
  split
  · rfl
  · rfl

/-- A durable event of a server with the contents of an archive is a step of the archive. -/
theorem archived_step (hs : Serves s) (ha : s.view.contents = a.contents lib.pb) {e : ServiceEvent}
    (he : e.Durable s.impl s.cfg) :
    ∃ t b r, (Process.running s).serve lib e = (.running t, r) ∧ Continues s t ∧
      Archive.Step lib a e r b ∧ t.view.contents = b.contents lib.pb := by
  cases e with
  | start impl env cfg =>
    obtain ⟨rfl, rfl, henv⟩ := he.event _ rfl
    obtain ⟨t, hrun, ht, hview, himpl, hcfg⟩ := run_restart hs henv
    refine ⟨t, a, .none, ?_, ⟨ht, himpl, hcfg⟩, .start .., ?_⟩
    · simp only [Process.serve, Process.rocks, hrun]
    · rw [hview, Folders.contents_reopen, ha]
  | call c =>
    by_cases hw : c.Writes
    · cases c with
      | save env request => exact archived_save lib hs ha (he.event _ rfl) request
      | get request => exact hw.elim
      | getRange context request => exact hw.elim
      | getSubsample rand request => exact hw.elim
      | http env rand request body =>
        have hput : HandlerFactory.route request = .put := hw
        have hevent : (ServiceEvent.call (.http env rand request body)).event =
            some (.post env (request.path.get 0) request.queryParameters body) := by
          simp only [ServiceEvent.event, Call.event, hput]
        exact archived_put lib hs ha (he.event _ hevent) body hput
    · obtain ⟨answer, hrun, htells⟩ := run_serve_of_not_writes hs lib hw he.buffered
      rw [ha] at htells
      refine ⟨s, a, .answer answer, ?_, ⟨hs, rfl, rfl⟩, .read htells, ha⟩
      simp only [Process.serve, Process.ask, hrun]

/-- A run of durable events of a server with the contents of an archive is a run of the
archive. -/
theorem archived_run (hs : Serves s) (ha : s.view.contents = a.contents lib.pb)
    {events : List ServiceEvent} (he : ∀ e ∈ events, e.Durable s.impl s.cfg) :
    ∃ t b, (Process.running s).afterAll lib events = .running t ∧ Continues s t ∧
      Archive.Run lib a ((Process.running s).log lib events) b ∧
      t.view.contents = b.contents lib.pb := by
  induction events generalizing s a with
  | nil => exact ⟨s, a, rfl, ⟨hs, rfl, rfl⟩, .nil a, ha⟩
  | cons e rest ih =>
    obtain ⟨r, b, response, hserve, hr, hstep, hb⟩ :=
      archived_step lib hs ha (he e List.mem_cons_self)
    obtain ⟨t, c, hall, ht, hrun, hc⟩ := ih hr.serves hb fun e' he' ↦ by
      rw [hr.impl, hr.cfg]
      exact he e' (List.mem_cons_of_mem e he')
    refine ⟨t, c, ?_, ⟨ht.serves, ht.impl.trans hr.impl, ht.cfg.trans hr.cfg⟩, ?_, hc⟩
    · rw [Process.afterAll, List.foldl_cons, hserve]
      exact hall
    · rw [Process.log, hserve]
      exact .cons hstep hrun

/-- A constructor on an empty disk leaves the contents of a new archive. -/
theorem contents_start_empty (pb : Protobuf) {impl : Impl} {env : Env} {cfg : Config}
    (h : DbClient.start impl env cfg RocksDB.empty = .ok () s) :
    s.view.contents = Archive.initial.contents pb := by
  funext name
  rw [Folders.contents, view_start (same_dir_of_start_empty h) h, Archive.contents,
    Archive.initial, Function.update_apply]
  change (Option.map _ (Database.initial.family name)).map Folder.records = _
  by_cases hn : name = defaultName
  · subst hn
    rfl
  · have hnone : Database.initial.family name = none := by
      apply Option.eq_none_iff_forall_ne_some.mpr
      intro es hes
      have hmem : name ∈ Database.initial.names := (Database.mem_names _ _).mpr ⟨es, hes⟩
      exact hn (List.mem_singleton.mp hmem)
    rw [hnone, if_neg hn]
    rfl

/-- A constructor call that succeeds on an empty disk. -/
structure FreshStart (impl : Impl) (env : Env) (cfg : Config) : Prop where
  same_dir : cfg.dbName = cfg.openDir impl
  fakeOpen : env.fakeOpen = .ok
  list : env.list = .ok
  reopen : env.reopen = .ok

/-- Such a call leaves a client that serves a new archive. -/
theorem FreshStart.run {impl : Impl} {env : Env} {cfg : Config} (h : FreshStart impl env cfg) :
    ∃ first, (Process.down RocksDB.empty).serve lib (.start impl env cfg) =
        (.running first, .none) ∧ Serves first ∧ first.impl = impl ∧ first.cfg = cfg ∧
      first.view.contents = Archive.initial.contents lib.pb := by
  obtain ⟨first, hstart⟩ := start_of_empty impl cfg env h.same_dir h.fakeOpen h.list h.reopen
  obtain ⟨i, hserv⟩ := start_serving h.same_dir hstart
  obtain ⟨himpl, hcfg⟩ := frame_start h.same_dir hstart
  refine ⟨first, ?_, ⟨i, _, hserv⟩, himpl, hcfg, contents_start_empty lib.pb hstart⟩
  simp only [Process.serve, Process.rocks, hstart]

/-- In every run of durable events from an empty disk every call is answered, and without the calls
that only read, other than through `Get`, it is a run of the process with the same replies: hiding
them changes neither the other answers nor what is left. -/
theorem service_refines_process {impl : Impl} {env : Env} {cfg : Config}
    (h : FreshStart impl env cfg) {events : List ServiceEvent}
    (he : ∀ e ∈ events, e.Durable impl cfg) :
    ∃ client, (Process.down RocksDB.empty).afterAll lib (.start impl env cfg :: events) =
        .running client ∧
      (Process.down RocksDB.empty).after lib.pb
        (.start impl env cfg :: events.filterMap ServiceEvent.event) = .running client ∧
      ((Process.down RocksDB.empty).log lib (.start impl env cfg :: events)).filterMap replied =
        (Process.down RocksDB.empty).trace lib.pb
          (.start impl env cfg :: events.filterMap ServiceEvent.event) ∧
      ∀ x ∈ (Process.down RocksDB.empty).log lib (.start impl env cfg :: events), Answered x := by
  obtain ⟨first, hserve, hserves, himpl, hcfg, -⟩ := h.run lib
  obtain ⟨client, hall, -, hafter, htrace, hanswered⟩ := serve_refines lib hserves
    (by rwa [himpl, hcfg] : ∀ e ∈ events, e.Durable first.impl first.cfg)
  obtain ⟨hstep, hreply⟩ := serve_eq_step lib (Process.down RocksDB.empty)
    (rfl : (ServiceEvent.start impl env cfg).event = some (.start impl env cfg))
  rw [hserve] at hstep hreply
  refine ⟨client, ?_, ?_, ?_, ?_⟩
  · rw [Process.afterAll, List.foldl_cons, hserve]
    exact hall
  · rw [Process.after, List.foldl_cons, ← hstep]
    exact hafter
  · rw [Process.log, Process.trace, hserve, ← hstep, ← hreply, ← htrace]
    rfl
  · rw [Process.log, hserve]
    exact List.forall_mem_cons.mpr ⟨rfl, hanswered⟩

/-- A save, two reads and a restart. -/
theorem service_refines_process_saved :
    let lib := Libraries.wire
    let env : Env := { now := 1, now_ne_zero := by decide }
    let events : List ServiceEvent :=
      [.call (.save env { folder := "f", data := [7] }),
        .call (.getRange ⟨fun _ ↦ false⟩ { folder := "f" }),
        .call (.get { folder := "f", timestamp := 1 }), .start .localDBClient env {}]
    ∃ client, (Process.down RocksDB.empty).afterAll lib (.start .localDBClient env {} :: events) =
        .running client ∧
      (Process.down RocksDB.empty).after lib.pb
        (.start .localDBClient env {} :: events.filterMap ServiceEvent.event) = .running client ∧
      ((Process.down RocksDB.empty).log lib
          (.start .localDBClient env {} :: events)).filterMap replied =
        (Process.down RocksDB.empty).trace lib.pb
          (.start .localDBClient env {} :: events.filterMap ServiceEvent.event) ∧
      ∀ x ∈ (Process.down RocksDB.empty).log lib (.start .localDBClient env {} :: events),
        Answered x :=
  service_refines_process _ ⟨rfl, rfl, rfl, rfl⟩ (by decide)

/-- A run of durable events after a start on an empty disk. -/
theorem FreshStart.archived {impl : Impl} {env : Env} {cfg : Config} (h : FreshStart impl env cfg)
    {events : List ServiceEvent} (he : ∀ e ∈ events, e.Durable impl cfg) :
    ∃ client b, (Process.down RocksDB.empty).afterAll lib (.start impl env cfg :: events) =
        .running client ∧ Serves client ∧ client.impl = impl ∧ client.cfg = cfg ∧
      Archive.Run lib Archive.initial
        ((Process.down RocksDB.empty).log lib (.start impl env cfg :: events)) b ∧
      client.view.contents = b.contents lib.pb := by
  obtain ⟨first, hserve, hserves, himpl, hcfg, hcontents⟩ := h.run lib
  obtain ⟨client, b, hall, hcont, hrun, hb⟩ := archived_run lib hserves hcontents
    (by rwa [himpl, hcfg])
  refine ⟨client, b, ?_, hcont.serves, hcont.impl.trans himpl, hcont.cfg.trans hcfg, ?_, hb⟩
  · rw [Process.afterAll, List.foldl_cons, hserve]
    exact hall
  · rw [Process.log, hserve]
    exact .cons (.start impl env cfg) hrun

/-- Every run of durable events from an empty disk is a run of a new archive with the same
answers, and leaves the folders with what the archive then holds. -/
theorem service_archived {impl : Impl} {env : Env} {cfg : Config} (h : FreshStart impl env cfg)
    {events : List ServiceEvent} (he : ∀ e ∈ events, e.Durable impl cfg) :
    ∃ client b, (Process.down RocksDB.empty).afterAll lib (.start impl env cfg :: events) =
        .running client ∧
      Archive.Run lib Archive.initial
        ((Process.down RocksDB.empty).log lib (.start impl env cfg :: events)) b ∧
      client.view.contents = b.contents lib.pb := by
  obtain ⟨client, b, hall, -, -, -, hrun, hb⟩ := h.archived lib he
  exact ⟨client, b, hall, hrun, hb⟩

/-- A save that is written, one that is refused, and a read in between. -/
theorem service_archived_saved :
    let lib := Libraries.wire
    let env : Env := { now := 1, now_ne_zero := by decide }
    let events : List ServiceEvent :=
      [.call (.save env { folder := "f", data := [7] }),
        .call (.getRange ⟨fun _ ↦ false⟩ { folder := "f" }),
        .call (.save { env with put := .failed "IO error" } { folder := "g", data := [8] })]
    ∃ client b, (Process.down RocksDB.empty).afterAll lib
        (.start .localDBClient env {} :: events) = .running client ∧
      Archive.Run lib Archive.initial
        ((Process.down RocksDB.empty).log lib (.start .localDBClient env {} :: events)) b ∧
      client.view.contents = b.contents lib.pb :=
  service_archived _ ⟨rfl, rfl, rfl, rfl⟩ (by decide)

end TimeMachine.Server
