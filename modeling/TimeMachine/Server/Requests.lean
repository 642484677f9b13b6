import TimeMachine.Server.Process
import TimeMachine.Client.Operations

/-!
# What the requests do to the folders

The gRPC `Save` and `Get` on a client that serves its database, with a RocksDB that
does what it is asked except that it may refuse to write: the answer, and the folders
afterwards. No event takes such a server down.
-/

namespace TimeMachine.Server
open TimeMachine.Base TimeMachine.Base.StateError TimeMachine.Store TimeMachine.Client
open TimeMachine.Client.DbClient

/-- The identifier a save into the folder generates. -/
def SaveRequest.nextID (request : SaveRequest) (env : Env) (f : Folder) : ID :=
  { timestamp := effectiveTs env request.timestamp, unique := f.lastUnique }

/-- A generated identifier has a timestamp. -/
theorem SaveRequest.nextID_ne_zero (request : SaveRequest) (env : Env) (f : Folder) :
    (request.nextID env f).timestamp ≠ 0 := by
  simp only [nextID, effectiveTs]
  split
  · exact env.now_ne_zero
  · next h => exact h

/-- The answer to a save under the identifier. -/
def savedReply (status : Status) (id : ID) : GrpcStatus × ID :=
  if status.isOk = false then
    ({ code := .INTERNAL, message := "Something wrong :( " ++ status.toString }, {})
  else (.OK, id)

/-- What a save leaves of the folders, when it found folder `f` under its name. -/
def savedFolders (pb : Protobuf) (env : Env) (request : SaveRequest) (f : Folder) (F : Folders) :
    Folders :=
  let id := request.nextID env f
  if env.put.isOk then
    (F.issue request.folder).store request.folder (serializeID id)
      (pb.serializeAsString (request.message id))
  else F.issue request.folder

/-- A save that is written. -/
theorem savedFolders_of_ok {env : Env} (h : env.put = .ok) (pb : Protobuf)
    (request : SaveRequest) (f : Folder) (F : Folders) :
    savedFolders pb env request f F =
      (F.issue request.folder).store request.folder (serializeID (request.nextID env f))
        (pb.serializeAsString (request.message (request.nextID env f))) := by
  simp [savedFolders, h, Status.isOk]

/-- A save that RocksDB refuses takes a number all the same. -/
theorem savedFolders_of_failed {env : Env} {text : String} (h : env.put = .failed text)
    (pb : Protobuf) (request : SaveRequest) (f : Folder) (F : Folders) :
    savedFolders pb env request f F = F.issue request.folder := by
  simp [savedFolders, h, Status.isOk]

/-- A client that keeps serving under the same configuration. -/
structure Continues (s t : DbClient) : Prop where
  serves : Serves t
  impl : t.impl = s.impl
  cfg : t.cfg = s.cfg

private theorem run_saveAction {s : DbClient} (hs : Serves s) {env : Env} (henv : Healthy env)
    (pb : Protobuf) {request : SaveRequest} {f : Folder} (hf : s.view request.folder = some f)
    {cf : ColumnFamilyHandle} (hname : cf.name = request.folder) (hlive : s.db = some cf.db) :
    ∃ t, (GRPCServer.saveAction pb env request (some cf)).run s =
        .ok (savedReply env.put (request.nextID env f)) t ∧
      Continues s t ∧ t.view = savedFolders pb env request f s.view := by
  have hsome : (s.view request.folder).isSome := Option.isSome_of_eq_some hf
  obtain ⟨cf', r, g, u, hobt, hg, hgen, hu, huview, hudb, -, huimpl, hucfg⟩ :=
    run_generateId hs henv request.folder request.timestamp
  obtain rfl : r = s := hobt.same hsome
  rw [Folders.touch_of_isSome hsome] at hg huview
  obtain rfl : g = f := Option.some.inj (hg.symm.trans hf)
  have hput : (u.view cf.name).isSome := by
    rw [huview, hname, Folders.issue_self hg]
    rfl
  obtain ⟨t, hrun, ht, htview, -, -, htimpl, htcfg⟩ := run_put hu (by rw [hudb, hlive]) hput env.put
    request.wopt (serializeID (request.nextID env g))
    (pb.serializeAsString (request.message (request.nextID env g)))
  refine ⟨t, ?_, ⟨ht, htimpl.trans huimpl, htcfg.trans hucfg⟩, ?_⟩
  · rw [GRPCServer.saveAction, run_bind_of_ok hgen]
    have hid : (⟨effectiveTs env request.timestamp, g.lastUnique⟩ : ID) =
        request.nextID env g := rfl
    rw [hid, run_bind_of_ok hrun, savedReply]
    split
    · rfl
    · rfl
  · rw [htview, huview, hname, savedFolders]

/-- A save makes sure of its folder, generates the next identifier and writes. -/
theorem run_save {s : DbClient} (hs : Serves s) {env : Env} (henv : Healthy env) (pb : Protobuf)
    (request : SaveRequest) :
    ∃ f t, s.view.touch request.folder request.folder = some f ∧
      (GRPCServer.save pb env request).run s =
        .ok (savedReply env.put (request.nextID env f)) t ∧
      Continues s t ∧
      t.view = savedFolders pb env request f (s.view.touch request.folder) := by
  obtain ⟨cf, r, hrun, hobt⟩ := run_getOrCreate hs henv request.folder
  obtain ⟨f, hf⟩ := Option.isSome_iff_exists.mp (Folders.touch_isSome s.view request.folder)
  obtain ⟨t, hact, ht, htview⟩ := run_saveAction hobt.serves henv pb
    (by rw [hobt.view, hf]) hobt.name_eq hobt.live
  refine ⟨f, t, hf, ?_, ⟨ht.serves, ht.impl.trans hobt.frame.1, ht.cfg.trans hobt.frame.2⟩, ?_⟩
  · rw [GRPCServer.save, GRPCServer.perform, run_tryCatch, run_bind_of_ok hrun, hact]
  · rw [htview, hobt.view]

/-- A read of a folder that exists reports the message under the key, if there is one. -/
theorem run_getRequest {s : DbClient} (hs : Serves s) (pb : Protobuf) (request : GetRequest)
    {f : Folder} (hf : s.view request.folder = some f) :
    (GRPCServer.get pb request).run s =
      .ok (match OrderedStore.get IDComparator.compare
            (serializeID { timestamp := request.timestamp, unique := request.unique })
            f.records with
        | some val => (.OK, pb.parseFromString val)
        | none => ({ code := .INTERNAL, message := "Something wrong :( NotFound: " }, {})) s := by
  obtain ⟨i, d, hserv⟩ := hs
  have hsome : (s.view request.folder).isSome := Option.isSome_of_eq_some hf
  obtain ⟨e, he, hname, hdb⟩ := lookup_handle hserv hsome
  have hlive : s.db = some e.handle.db := by rw [hserv.instance_eq, hdb]
  rw [← hname] at hf
  have hget := run_get ⟨i, d, hserv⟩ hlive hf
    (serializeID { timestamp := request.timestamp, unique := request.unique })
  rw [GRPCServer.get, GRPCServer.performIfExists, run_tryCatch,
    run_bind_of_ok (run_getColumnFamily s request.folder), he]
  simp only [Option.map_some]
  rw [GRPCServer.getAction, run_bind_of_ok hget]
  cases hv : OrderedStore.get IDComparator.compare
      (serializeID { timestamp := request.timestamp, unique := request.unique }) f.records with
  | none => rfl
  | some val => rfl

/-- A read of a folder that does not exist. -/
theorem run_getRequest_of_none {s : DbClient} (hs : Serves s) (pb : Protobuf)
    {request : GetRequest} (hf : s.view request.folder = none) :
    (GRPCServer.get pb request).run s =
      .ok ({ code := .NOT_FOUND
             message := "Column family with name " ++ request.folder ++ " doesn't exists" }, {})
        s := by
  obtain ⟨i, d, hserv⟩ := hs
  rw [GRPCServer.get, GRPCServer.performIfExists, run_tryCatch,
    run_bind_of_ok (run_getColumnFamily s request.folder), lookup_eq_none hserv hf]
  rfl

/-- The answer to a put under the identifier. -/
def postedReply (id : ID) : HTTPServerResponse :=
  ((({} : HTTPServerResponse).send).write (SaveHandler.jsonID id)).setStatus 200

/-- An HTTP put answers with its identifier, whatever became of the write, and does to the folders
what a save does. -/
theorem run_handleRequest {s : DbClient} (hs : Serves s) {env : Env} (henv : Healthy env)
    (pb : Protobuf) (h : SaveHandler) (body : Bytes) :
    ∃ f t, s.view.touch h.name h.name = some f ∧
      (SaveHandler.handleRequest pb env h body).run s =
        .ok (postedReply ⟨effectiveTs env h.timestamp, f.lastUnique⟩) t ∧ Continues s t ∧
      t.view = savedFolders pb env { folder := h.name, data := body, timestamp := h.timestamp } f
        (s.view.touch h.name) := by
  obtain ⟨cf, r, f, t, hobt, hf, hgen, ht, htview, -, -, htimpl, htcfg⟩ :=
    run_generateId hs henv h.name h.timestamp
  have hsome : (t.view h.name).isSome := by
    rw [htview, Folders.issue_self hf]
    rfl
  obtain ⟨cf', t', hget, hobt'⟩ := run_getOrCreate ht henv h.name
  obtain rfl : t' = t := hobt'.same hsome
  obtain ⟨u, hput, hu, huview, -, -, huimpl, hucfg⟩ := run_put ht hobt'.live
    (by rw [hobt'.name_eq]; exact hsome) env.put h.wopt
    (serializeID ⟨effectiveTs env h.timestamp, f.lastUnique⟩)
    (pb.serializeAsString
      { id := some ⟨effectiveTs env h.timestamp, f.lastUnique⟩, data := body })
  refine ⟨f, u, hf, ?_, ⟨hu, ?_, ?_⟩, ?_⟩
  · rw [SaveHandler.handleRequest, run_tryCatch, run_bind_of_ok hgen, run_bind_of_ok hget,
      run_bind_of_ok hput]
    -- a refused write sets the status that is set already
    simp only [EStateM.run_pure, postedReply, HTTPServerResponse.setStatus, ite_self]
  · exact huimpl.trans (htimpl.trans hobt.frame.1)
  · exact hucfg.trans (htcfg.trans hobt.frame.2)
  · rw [huview, htview, hobt'.name_eq]
    rfl

/-! ### Events -/

/-- RocksDB does what the event asks of it, except that it may refuse a write; a start is a
restart under the same configuration. -/
def Durable (impl : Impl) (cfg : Config) : Event → Prop
  | .start impl' env cfg' => impl' = impl ∧ cfg' = cfg ∧ Healthy env
  | .save env _ => Healthy env
  | .post env _ _ _ => Healthy env
  | .create env _ => Healthy env
  | .get _ => True

instance Durable.decidable (impl : Impl) (cfg : Config) : ∀ e, Decidable (Durable impl cfg e)
  | .start impl' env cfg' => inferInstanceAs (Decidable (impl' = impl ∧ cfg' = cfg ∧ Healthy env))
  | .save env _ | .post env _ _ _ | .create env _ => inferInstanceAs (Decidable (Healthy env))
  | .get _ => isTrue trivial

/-- Such an event leaves a server that runs a client that serves. -/
theorem continues_step {s : DbClient} (hs : Serves s) (pb : Protobuf) {e : Event}
    (he : Durable s.impl s.cfg e) :
    ∃ t, ((Process.running s).step pb e).1 = .running t ∧ Continues s t := by
  cases e with
  | start impl env cfg =>
    obtain ⟨rfl, rfl, henv⟩ := he
    obtain ⟨t, hrun, ht, -, himpl, hcfg⟩ := run_restart hs henv
    exact ⟨t, by simp only [Process.step, Process.rocks, hrun], ht, himpl, hcfg⟩
  | save env request =>
    obtain ⟨f, t, -, hrun, ht, -⟩ := run_save hs he pb request
    exact ⟨t, by simp only [Process.step, Process.call, hrun], ht⟩
  | post env name query body =>
    obtain ⟨f, t, -, hrun, ht, -⟩ := run_handleRequest hs he pb (createSaveHandler name query) body
    exact ⟨t, by simp only [Process.step, Process.call, hrun], ht⟩
  | create env name =>
    obtain ⟨cf, t, hrun, ht⟩ := run_getOrCreate hs he name
    exact ⟨t, by simp only [Process.step, Process.call, hrun], ht.serves, ht.frame.1, ht.frame.2⟩
  | get request =>
    have hsame : ∃ r, (GRPCServer.get pb request).run s = .ok r s := by
      cases hv : s.view request.folder with
      | none => exact ⟨_, run_getRequest_of_none hs pb hv⟩
      | some f => exact ⟨_, run_getRequest hs pb _ hv⟩
    obtain ⟨r, hrun⟩ := hsame
    exact ⟨s, by simp only [Process.step, Process.call, hrun], hs, rfl, rfl⟩

/-- A run of such events from a client that serves. -/
theorem continues_after {s : DbClient} (hs : Serves s) (pb : Protobuf) {events : List Event}
    (he : ∀ e ∈ events, Durable s.impl s.cfg e) :
    ∃ t, (Process.running s).after pb events = .running t ∧ Continues s t := by
  induction events generalizing s with
  | nil => exact ⟨s, rfl, hs, rfl, rfl⟩
  | cons e rest ih =>
    obtain ⟨r, hstep, hr⟩ := continues_step hs pb (he e List.mem_cons_self)
    obtain ⟨t, hafter, ht⟩ := ih hr.serves (fun e' he' ↦ by
      rw [hr.impl, hr.cfg]
      exact he e' (List.mem_cons_of_mem e he'))
    refine ⟨t, ?_, ht.serves, ht.impl.trans hr.impl, ht.cfg.trans hr.cfg⟩
    rw [Process.after, List.foldl_cons, hstep]
    exact hafter

/-- A server started on an empty disk runs on through such events. -/
theorem exists_running (pb : Protobuf) {impl : Impl} (env : Env) {cfg : Config}
    (hdir : cfg.dbName = cfg.openDir impl) (hopen : env.fakeOpen = .ok) (hlist : env.list = .ok)
    (hreopen : env.reopen = .ok) {events : List Event} (h : ∀ e ∈ events, Durable impl cfg e) :
    ∃ first client, start impl env cfg RocksDB.empty = .ok () first ∧ Serves client ∧
      (Process.running first).after pb events = .running client ∧
      (Process.down RocksDB.empty).after pb (.start impl env cfg :: events) = .running client := by
  obtain ⟨first, hstart⟩ := start_of_empty impl cfg env hdir hopen hlist hreopen
  obtain ⟨i, hserv⟩ := start_serving hdir hstart
  obtain ⟨himpl, hcfg⟩ := frame_start hdir hstart
  obtain ⟨client, hafter, hcont⟩ := continues_after ⟨i, _, hserv⟩ pb (by rwa [himpl, hcfg])
  have hfirst : ((Process.down RocksDB.empty).step pb (.start impl env cfg)).1 =
      .running first := by
    simp only [Process.step, Process.rocks, hstart]
  refine ⟨first, client, hstart, hcont.serves, hafter, ?_⟩
  rw [Process.after, List.foldl_cons, hfirst]
  exact hafter

end TimeMachine.Server
