import TimeMachine.Server.Reads
import TimeMachine.Server.Requests
import TimeMachine.Client.Contents

/-!
# What the reads answer

A server that serves its database answers every call that does not write, unless it is a
subsample whose batches have no buffers. The answer depends on nothing but the records
of the folders: not on the counters, the handles, the open instance or the history. A
read of one folder depends on that folder alone.
-/

namespace TimeMachine.Server
open TimeMachine.Base TimeMachine.Base.StateError TimeMachine.Store TimeMachine.Client DbClient

/-! ### Answers from the records -/

/-- What a gRPC method answers that reads a folder. -/
def GRPCServer.fromFolder {ρ : Type} (response : ρ) (name : String)
    (answer : ColumnFamily → GrpcStatus × ρ) : Option ColumnFamily → GrpcStatus × ρ
  | none =>
    ({ code := .NOT_FOUND
       message := "Column family with name " ++ name ++ " doesn't exists" }, response)
  | some es => answer es

/-- What an HTTP handler answers that reads a folder. The header is sent before the status is
set. -/
def httpFromFolder (stream : ColumnFamily → Bytes) : Option ColumnFamily →
    HTTPServerResponse × Bytes
  | none => (({} : HTTPServerResponse).send.setStatus 404, [])
  | some es => (({} : HTTPServerResponse).send.setStatus 200, stream es)

/-- The message under a key, or the status of a lookup that finds none. -/
def lookupAnswer (pb : Protobuf) (key : Slice) (es : ColumnFamily) : GrpcStatus × Data :=
  match OrderedStore.get IDComparator.compare key es with
  | some val => (.OK, pb.parseFromString val)
  | none => ({ code := .INTERNAL, message := "Something wrong :( NotFound: " }, {})

/-- The stream of an HTTP range read. -/
def rangeStream (pb : Protobuf) (h : GetRangeHandler) (es : ColumnFamily) : Bytes :=
  frames (scan pb h.request frameSize es)

/-- The stream of an HTTP subsample. -/
def subsampleStream (lib : Libraries) (rand : Nat → Rand) (h : SubsamplingHandler)
    (es : ColumnFamily) : Bytes :=
  frames ((h.messages lib.pb lib.rnd rand es).map fun data ↦ (data.id.getD {}, data))

/-- The response with the names of the folders. -/
def statusResponse (quote : String → String) (names : List String) : HTTPServerResponse :=
  (({} : HTTPServerResponse).send.write (StatusHandler.jsonArray quote names)).setStatus 200

/-- The list names every folder once. -/
structure Lists (C : Contents) (names : List String) : Prop where
  nodup : names.Nodup
  mem_iff : ∀ name, name ∈ names ↔ (C name).isSome

/-- What a handler that does not write answers, from the records of the folders. Only the order
in which the status lists the folders is open. -/
def Handler.Tells (lib : Libraries) (rand : Nat → Rand) (C : Contents) (a : Answer) :
    Handler → Prop
  | .info => a = .http InfoHandler.handleRequest []
  | .health => a = .http HealthHandler.handleRequest []
  | .notFound => a = .http NotFoundHandler.handleRequest []
  | .status => ∃ names, Lists C names ∧ a = .http (statusResponse lib.quote names) []
  | .save _ => False
  | .getRange h =>
    let r := httpFromFolder (rangeStream lib.pb h) (C h.name)
    a = .http r.1 r.2
  | .subsampling h =>
    let r := httpFromFolder (subsampleStream lib rand h) (C h.name)
    a = .http r.1 r.2

/-- What a call that does not write is answered, from the records of the folders. -/
def Tells (lib : Libraries) (C : Contents) (a : Answer) : Call → Prop
  | .save .. => False
  | .get request =>
    let r := GRPCServer.fromFolder {} request.folder (lookupAnswer lib.pb
      (serializeID { timestamp := request.timestamp, unique := request.unique })) (C request.folder)
    a = .got r.1 r.2
  | .getRange context request =>
    let r := GRPCServer.fromFolder [] request.folder (fun es ↦
      (.OK, (scan lib.pb request (GRPCServer.rangeCallback lib.pb context) es).map Prod.snd))
      (C request.folder)
    a = .written r.1 r.2
  | .getSubsample rand request =>
    let r := GRPCServer.fromFolder [] request.folder (fun es ↦
      (.OK, request.messages lib.pb lib.rnd rand es)) (C request.folder)
    a = .written r.1 r.2
  | .http _ rand request _ =>
    match HandlerFactory.createRequestHandler request with
    | none => a = .closed
    | some handler => handler.Tells lib rand C a

/-- The handler keeps no batch without a buffer. -/
def Handler.Buffered : Handler → Prop
  | .subsampling h => Server.Buffered h.amount h.batchSize
  | .info | .status | .save _ | .getRange _ | .health | .notFound => True

instance Handler.Buffered.decidable : ∀ h : Handler, Decidable h.Buffered
  | .subsampling h => inferInstanceAs (Decidable (Server.Buffered h.amount h.batchSize))
  | .info | .status | .save _ | .getRange _ | .health | .notFound => isTrue trivial

/-- The call is not a subsample of batches without a buffer. -/
def Call.Buffered : Call → Prop
  | .getSubsample _ request => Server.Buffered request.amount request.batchSize
  | .http _ _ request _ =>
    ∀ handler ∈ HandlerFactory.createRequestHandler request, handler.Buffered
  | .save .. | .get _ | .getRange .. => True

instance Call.Buffered.decidable : ∀ c : Call, Decidable c.Buffered
  | .getSubsample _ request =>
    inferInstanceAs (Decidable (Server.Buffered request.amount request.batchSize))
  | .http _ _ request _ => inferInstanceAs
      (Decidable (∀ handler ∈ HandlerFactory.createRequestHandler request, handler.Buffered))
  | .save .. | .get _ | .getRange .. => isTrue trivial

/-! ### One call -/

variable {s : DbClient}

/-- A folder without a view is not found. -/
theorem run_getColumnFamily_of_none (hs : Serves s) {name : String} (h : s.view name = none) :
    (getColumnFamily name).run s = .ok none s := by
  obtain ⟨i, d, hserv⟩ := hs
  rw [run_getColumnFamily, lookup_eq_none hserv h]
  rfl

/-- A gRPC range read. -/
theorem run_getRange_eq (hs : Serves s) (pb : Protobuf) (context : GRPCServer.ServerContext)
    (request : RangeRequest) :
    (GRPCServer.getRange pb context request).run s =
      .ok (GRPCServer.fromFolder [] request.folder (fun es ↦
        (.OK, (scan pb request (GRPCServer.rangeCallback pb context) es).map Prod.snd))
        (s.view.contents request.folder)) s := by
  unfold Folders.contents
  cases hv : s.view request.folder with
  | none => exact run_performIfExists_of_none (run_getColumnFamily_of_none hs hv) _ _
  | some f =>
    obtain ⟨-, -, -, hrun⟩ := run_getRange pb context (records_of_view hs hv)
    exact hrun

/-- A gRPC subsample. -/
theorem run_getSubsample_eq (hs : Serves s) (pb : Protobuf) (rnd : ℚ → ℚ) (rand : Nat → Rand)
    {request : SubsampleRequest} (hb : Buffered request.amount request.batchSize) :
    (GRPCServer.getSubsample pb rnd rand request).run s =
      .ok (GRPCServer.fromFolder [] request.folder (fun es ↦
        (.OK, request.messages pb rnd rand es)) (s.view.contents request.folder)) s := by
  unfold Folders.contents
  cases hv : s.view request.folder with
  | none => exact run_performIfExists_of_none (run_getColumnFamily_of_none hs hv) _ _
  | some f => exact run_getSubsample pb rnd rand (records_of_view hs hv) hb

/-- A gRPC lookup. -/
theorem run_getRequest_eq (hs : Serves s) (pb : Protobuf) (request : GetRequest) :
    (GRPCServer.get pb request).run s =
      .ok (GRPCServer.fromFolder {} request.folder (lookupAnswer pb
        (serializeID { timestamp := request.timestamp, unique := request.unique }))
        (s.view.contents request.folder)) s := by
  unfold Folders.contents
  cases hv : s.view request.folder with
  | none => exact run_getRequest_of_none hs pb hv
  | some f => exact run_getRequest hs pb request hv

/-- An HTTP range read. -/
theorem run_getRangeHandler_eq (hs : Serves s) (pb : Protobuf) (h : GetRangeHandler) :
    (h.handleRequest pb).run s =
      .ok (httpFromFolder (rangeStream pb h) (s.view.contents h.name)) s := by
  unfold Folders.contents GetRangeHandler.handleRequest
  cases hv : s.view h.name with
  | none =>
    rw [run_bind_of_ok (run_getColumnFamily_of_none hs hv)]
    rfl
  | some f =>
    obtain ⟨cf, hcf, hd⟩ := run_of_records (records_of_view hs hv)
    have hiter : (iter pb (some cf) h.request frameSize).run s =
        .ok (scan pb h.request frameSize f.records) s := by
      rw [iter, run_bind_of_ok hd]
      rfl
    rw [run_bind_of_ok hcf]
    simp only [run_bind_of_ok hiter]
    rfl

/-- An HTTP subsample. -/
theorem run_subsamplingHandler_eq (hs : Serves s) (lib : Libraries) (rand : Nat → Rand)
    {h : SubsamplingHandler} (hb : Buffered h.amount h.batchSize) :
    (h.handleRequest lib.pb lib.rnd rand).run s =
      .ok (httpFromFolder (subsampleStream lib rand h) (s.view.contents h.name)) s := by
  unfold Folders.contents
  cases hv : s.view h.name with
  | none =>
    rw [SubsamplingHandler.handleRequest, run_bind_of_ok (run_getColumnFamily_of_none hs hv)]
    rfl
  | some f => exact run_subsamplingHandler lib.pb lib.rnd rand (records_of_view hs hv) hb

/-- The status lists the folders. -/
theorem run_statusHandler (hs : Serves s) (quote : String → String) :
    ∃ names, Lists s.view.contents names ∧
      (StatusHandler.handleRequest quote).run s = .ok (statusResponse quote names) s := by
  obtain ⟨i, d, hserv⟩ := hs
  have hnames (l : List ColumnFamilyHandle) (hl : ∀ h ∈ l, h.db = i) :
      (l.mapM StatusHandler.getName).run s = .ok (l.map (·.name)) s := by
    induction l with
    | nil =>
      rw [List.mapM_nil]
      rfl
    | cons h rest ih =>
      have hname : (StatusHandler.getName h).run s = .ok h.name s := by
        rw [StatusHandler.getName, run_bind_of_ok (EStateM.run_get s), hserv.instance_eq,
          hl h List.mem_cons_self, if_pos rfl]
        rfl
      rw [List.mapM_cons, run_bind_of_ok hname,
        run_bind_of_ok (ih fun h' hh' ↦ hl h' (List.mem_cons_of_mem h hh'))]
      rfl
  refine ⟨s.handles.map (·.name), ⟨?_, ?_⟩, ?_⟩
  · exact hserv.handles_names.nodup_iff.mpr d.names_nodup
  · intro name
    rw [hserv.handles_names.mem_iff, Folders.isSome_contents, view_isSome_iff hserv]
  · rw [StatusHandler.handleRequest, run_bind_of_ok (EStateM.run_get s),
      run_bind_of_ok (hnames s.handles hserv.handles_db)]
    rfl

/-- A handler other than the put's answers from the records of the folders, and changes
nothing. -/
theorem run_handler_of_ne_save (hs : Serves s) (lib : Libraries) (env : Env) (rand : Nat → Rand)
    (body : Bytes) {handler : Handler} (h : ∀ save, handler ≠ .save save) (hb : handler.Buffered) :
    ∃ a, (handler.handleRequest lib env rand body).run s = .ok a s ∧
      handler.Tells lib rand s.view.contents a := by
  cases handler with
  | info => exact ⟨_, rfl, rfl⟩
  | health => exact ⟨_, rfl, rfl⟩
  | notFound => exact ⟨_, rfl, rfl⟩
  | save save => exact absurd rfl (h save)
  | status =>
    obtain ⟨names, hlists, hrun⟩ := run_statusHandler hs lib.quote
    refine ⟨_, ?_, names, hlists, rfl⟩
    rw [Handler.handleRequest, run_bind_of_ok hrun]
    rfl
  | getRange handler =>
    refine ⟨_, ?_, rfl⟩
    rw [Handler.handleRequest, run_bind_of_ok (run_getRangeHandler_eq hs lib.pb handler)]
    rfl
  | subsampling handler =>
    refine ⟨_, ?_, rfl⟩
    rw [Handler.handleRequest, run_bind_of_ok (run_subsamplingHandler_eq hs lib rand hb)]
    rfl

/-- A call that does not write, and keeps no batch without a buffer, is answered from the records
of the folders, and changes nothing. -/
theorem run_serve_of_not_writes (hs : Serves s) (lib : Libraries) {c : Call} (h : ¬ c.Writes)
    (hb : c.Buffered) :
    ∃ a, (c.serve lib).run s = .ok a s ∧ Tells lib s.view.contents a c := by
  cases c with
  | save env request => exact absurd trivial h
  | get request =>
    refine ⟨_, ?_, rfl⟩
    rw [Call.serve, run_bind_of_ok (run_getRequest_eq hs lib.pb request)]
    rfl
  | getRange context request =>
    refine ⟨_, ?_, rfl⟩
    rw [Call.serve, run_bind_of_ok (run_getRange_eq hs lib.pb context request)]
    rfl
  | getSubsample rand request =>
    refine ⟨_, ?_, rfl⟩
    rw [Call.serve, run_bind_of_ok (run_getSubsample_eq hs lib.pb lib.rnd rand hb)]
    rfl
  | http env rand request body =>
    simp only [Call.serve, Tells]
    cases hh : HandlerFactory.createRequestHandler request with
    | none => exact ⟨_, rfl, rfl⟩
    | some handler =>
      exact run_handler_of_ne_save hs lib env rand body
        (HandlerFactory.createRequestHandler_ne_save h hh) (hb handler hh)

end TimeMachine.Server
