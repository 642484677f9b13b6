import TimeMachine.Server.Service
import TimeMachine.Server.Cancellation

/-!
# Reads

All calls but `Save` and the put leave the client exactly as it was, in every state and
also when they fail. So a run of the service does what the run of its writes does.
-/

namespace TimeMachine.Server
open TimeMachine.Base TimeMachine.Base.StateError TimeMachine.Store TimeMachine.Client DbClient

/-! ### What only reads -/

/-- Using a handle. -/
theorem readOnly_deref (cf : Option ColumnFamilyHandle) : ReadOnly (deref cf) := by
  refine readOnly_bind readOnly_get (fun s ↦ ?_)
  cases cf with
  | none => exact readOnly_throw _
  | some handle =>
    simp only
    split
    · cases s.family handle.name with
      | none => exact readOnly_throw _
      | some es => exact readOnly_pure _
    · exact readOnly_throw _

/-- Looking a folder up. -/
theorem readOnly_getColumnFamily (name : String) : ReadOnly (getColumnFamily name) :=
  readOnly_bind readOnly_get (fun _ ↦ readOnly_pure _)

/-- A scan. -/
theorem readOnly_iter (pb : Protobuf) (cf : Option ColumnFamilyHandle) (request : RangeRequest)
    (fn : Callback) : ReadOnly (iter pb cf request fn) :=
  readOnly_bind (readOnly_deref cf) (fun _ ↦ readOnly_pure _)

/-- A batch lookup. -/
theorem readOnly_getBatch (cf : Option ColumnFamilyHandle) (keys : List Slice) :
    ReadOnly (getBatch cf keys) :=
  readOnly_bind (readOnly_deref cf) (fun _ ↦ readOnly_pure _)

/-- The range of a folder. -/
theorem readOnly_getUniqueRange (cf : Option ColumnFamilyHandle) :
    ReadOnly (getUniqueRange cf) :=
  readOnly_bind (readOnly_deref cf) (fun _ ↦ readOnly_pure _)

/-- The range of a period. -/
theorem readOnly_getUniqueRangeForTS (cf : Option ColumnFamilyHandle) (fromTs tillTs : UInt64) :
    ReadOnly (getUniqueRangeForTS cf fromTs tillTs) :=
  readOnly_bind (readOnly_deref cf) (fun _ ↦ readOnly_pure _)

/-- The action of `Get`. -/
theorem GRPCServer.readOnly_getAction (pb : Protobuf) (request : GetRequest)
    (cf : ColumnFamilyHandle) : ReadOnly (GRPCServer.getAction pb request cf) := by
  refine readOnly_bind (readOnly_bind (readOnly_deref _) (fun p ↦ ?_)) (fun r ↦ ?_)
  · simp only
    split
    · exact readOnly_pure _
    · exact readOnly_pure _
  · simp only
    split
    · exact readOnly_pure _
    · exact readOnly_pure _

/-- The range of a gRPC subsample. -/
theorem GRPCServer.readOnly_sampledRange (request : SubsampleRequest) (cf : ColumnFamilyHandle) :
    ReadOnly (GRPCServer.sampledRange request cf) := by
  unfold GRPCServer.sampledRange
  split
  · exact readOnly_getUniqueRangeForTS _ _ _
  · exact readOnly_getUniqueRange _

/-- The range of an HTTP subsample. -/
theorem SubsamplingHandler.readOnly_sampledRange (h : SubsamplingHandler)
    (cf : ColumnFamilyHandle) : ReadOnly (h.sampledRange cf) := by
  unfold SubsamplingHandler.sampledRange
  split
  · exact readOnly_getUniqueRange _
  · exact readOnly_getUniqueRangeForTS _ _ _

/-- The batches of a subsample. -/
theorem readOnly_batchLoop (pb : Protobuf) (cf : ColumnFamilyHandle) (draw : Rand → UInt64)
    (rand : Nat → Rand) (amount batchSize : UInt32) :
    ReadOnly (batchLoop pb cf draw rand amount batchSize) := by
  have hbatches (step : Nat) (is : List Int) (drawn : Nat) :
      ReadOnly (batches pb cf draw rand step is drawn) := by
    induction is generalizing drawn with
    | nil => exact readOnly_pure []
    | cons i rest ih =>
      rw [batches]
      split
      · exact readOnly_bind (readOnly_getBatch (some cf) _) (fun _ ↦
          readOnly_bind (ih _) (fun _ ↦ readOnly_pure _))
      · exact readOnly_throw _
  unfold batchLoop
  simp only
  split
  · exact readOnly_throw _
  · exact hbatches _ _ 0

/-- A gRPC read of a folder. -/
theorem readOnly_performIfExists {ρ : Type} (response : ρ) (baseName : String)
    {fn : ColumnFamilyHandle → ClientM (GrpcStatus × ρ)} (hfn : ∀ cf, ReadOnly (fn cf)) :
    ReadOnly (GRPCServer.performIfExists response baseName fn) := by
  apply readOnly_tryCatch
  · refine readOnly_bind (readOnly_getColumnFamily baseName) (fun found ↦ ?_)
    cases found with
    | none => exact readOnly_pure _
    | some cf => exact hfn cf
  · intro failure
    cases failure with
    | exception what => exact readOnly_pure _
    | crash => exact readOnly_throw _

/-- The list of the folders. -/
theorem StatusHandler.readOnly_handleRequest (quote : String → String) :
    ReadOnly (StatusHandler.handleRequest quote) := by
  have hname (handle : ColumnFamilyHandle) : ReadOnly (StatusHandler.getName handle) := by
    refine readOnly_bind readOnly_get (fun s ↦ ?_)
    split
    · exact readOnly_pure _
    · exact readOnly_throw _
  exact readOnly_bind readOnly_get (fun s ↦
    readOnly_bind (readOnly_mapM hname _) (fun _ ↦ readOnly_pure _))

/-- The calls that may write: `Save`, and a request for the put route. -/
def Call.Writes : Call → Prop
  | .save .. => True
  | .http _ _ request _ => HandlerFactory.route request = .put
  | .get _ | .getRange .. | .getSubsample .. => False

instance Call.Writes.decidable : ∀ c : Call, Decidable c.Writes
  | .save .. => isTrue trivial
  | .http _ _ request _ => inferInstanceAs (Decidable (HandlerFactory.route request = .put))
  | .get _ | .getRange .. | .getSubsample .. => isFalse id

/-- The handlers but the put's. -/
theorem readOnly_handleRequest (lib : Libraries) (env : Env) (rand : Nat → Rand) (body : Bytes)
    {handler : Handler} (h : ∀ save, handler ≠ .save save) :
    ReadOnly (handler.handleRequest lib env rand body) := by
  cases handler with
  | info => exact readOnly_pure _
  | health => exact readOnly_pure _
  | notFound => exact readOnly_pure _
  | save save => exact absurd rfl (h save)
  | status =>
    exact readOnly_bind (StatusHandler.readOnly_handleRequest lib.quote) (fun _ ↦ readOnly_pure _)
  | getRange handler =>
    refine readOnly_bind (readOnly_bind (readOnly_getColumnFamily _) (fun found ↦ ?_))
      (fun _ ↦ readOnly_pure _)
    cases found with
    | none => exact readOnly_pure _
    | some cf => exact readOnly_bind (readOnly_iter _ _ _ _) (fun _ ↦ readOnly_pure _)
  | subsampling handler =>
    refine readOnly_bind (readOnly_bind (readOnly_getColumnFamily _) (fun found ↦ ?_))
      (fun _ ↦ readOnly_pure _)
    cases found with
    | none => exact readOnly_pure _
    | some cf =>
      exact readOnly_bind (readOnly_bind (handler.readOnly_sampledRange cf)
        (fun _ ↦ readOnly_batchLoop _ _ _ _ _ _)) (fun _ ↦ readOnly_pure _)

/-- The factory makes a put handler for the put route only. -/
theorem HandlerFactory.createRequestHandler_ne_save {request : HTTPServerRequest}
    (h : route request ≠ .put) {handler : Handler}
    (hh : createRequestHandler request = some handler) (save : SaveHandler) :
    handler ≠ .save save := by
  rintro rfl
  unfold createRequestHandler at hh
  split at hh
  · cases hh
  · cases hh
  · next hput => exact h hput
  · simp at hh
  · simp at hh
  · cases hh
  · cases hh

/-- So a request that gets a put handler was for the put route. -/
theorem HandlerFactory.route_of_save {request : HTTPServerRequest} {save : SaveHandler}
    (h : createRequestHandler request = some (.save save)) : route request = .put := by
  by_contra hne
  exact createRequestHandler_ne_save hne h save rfl

/-- A request for the put route is taken to the put handler. -/
theorem HandlerFactory.createRequestHandler_of_put {request : HTTPServerRequest}
    (h : route request = .put) : createRequestHandler request =
      some (.save (createSaveHandler (request.path.get 0) request.queryParameters)) := by
  unfold createRequestHandler
  rw [h]

/-- The calls that do not write. -/
theorem readOnly_serve (lib : Libraries) {c : Call} (h : ¬ c.Writes) :
    ReadOnly (c.serve lib) := by
  cases c with
  | save env request => exact absurd trivial h
  | get request =>
    exact readOnly_bind
      (readOnly_performIfExists _ _ (GRPCServer.readOnly_getAction lib.pb request))
      (fun _ ↦ readOnly_pure _)
  | getRange context request =>
    exact readOnly_bind (readOnly_performIfExists _ _ (fun cf ↦
      readOnly_bind (readOnly_iter _ _ _ _) (fun _ ↦ readOnly_pure _))) (fun _ ↦ readOnly_pure _)
  | getSubsample rand request =>
    exact readOnly_bind (readOnly_performIfExists _ _ (fun cf ↦
      readOnly_bind (readOnly_bind (GRPCServer.readOnly_sampledRange request cf)
        (fun _ ↦ readOnly_batchLoop _ _ _ _ _ _)) (fun _ ↦ readOnly_pure _)))
      (fun _ ↦ readOnly_pure _)
  | http env rand request body =>
    unfold Call.serve
    simp only
    split
    · next handler hh =>
      exact readOnly_handleRequest lib env rand body
        (HandlerFactory.createRequestHandler_ne_save h hh)
    · exact readOnly_pure _

/-- Whatever the state of the server, a call that does not write leaves it exactly as it was, or
takes it down with its data as they were. -/
theorem ask_of_not_writes (lib : Libraries) (p : Process) {c : Call} (h : ¬ c.Writes) :
    (p.ask lib c).1 = p ∨ p.ask lib c = (.down p.rocks, .failed .crash) := by
  cases p with
  | down rocks => exact Or.inl rfl
  | running client =>
    have hread := readOnly_serve lib h client client rfl
    unfold Process.ask
    simp only
    split
    · next hrun =>
      rw [hrun] at hread
      exact Or.inl (congrArg Process.running hread.1)
    · next hrun =>
      rw [hrun] at hread
      exact Or.inl (congrArg Process.running hread)
    · next hrun =>
      rw [hrun] at hread
      subst hread
      exact Or.inr rfl

/-- A range read of a server that has just been started. -/
theorem ask_of_not_writes_started :
    let lib := Libraries.wire
    let c : Call := .getRange ⟨fun _ ↦ false⟩ { folder := "f" }
    ∃ client, start .localDBClient { now := 1, now_ne_zero := by decide } {} RocksDB.empty =
        .ok () client ∧
      (((Process.running client).ask lib c).1 = .running client ∨
        (Process.running client).ask lib c = (.down client.rocks, .failed .crash)) := by
  intro lib c
  obtain ⟨client, hstart⟩ := start_of_empty .localDBClient {}
    { now := 1, now_ne_zero := by decide } rfl rfl rfl rfl
  exact ⟨client, hstart, ask_of_not_writes lib (.running client) id⟩

end TimeMachine.Server
