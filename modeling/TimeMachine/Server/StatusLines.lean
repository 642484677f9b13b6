import TimeMachine.Server.Cancellation
import TimeMachine.Client.Atomicity

/-!
# Status lines

The HTTP handlers against the gRPC calls for the same request, on the same state and
with the same outcomes of the calls to RocksDB. Each handler sends its header before
anything can go wrong, so the client always reads 200; the two front ends report the
same outcome exactly where the gRPC call succeeds. For a save that is where the write is
accepted and the folder is in use or can be created, for a range read where the folder
is in use, for a subsample where moreover its batches have buffers. No client state is
assumed.
-/

namespace TimeMachine.Server
open TimeMachine.Base TimeMachine.Base.StateError TimeMachine.Store TimeMachine.Client DbClient

/-! ### What the clients see -/

/-- The status line of a handled request. A failure comes after the header was sent. -/
def received {ρ : Type} (response : ρ → HTTPServerResponse) :
    EStateM.Result Failure DbClient ρ → Option Nat
  | .ok r _ => (response r).statusLine
  | .error _ _ => ({} : HTTPServerResponse).send.statusLine

/-- A status line of success. -/
def Success (statusLine : Option Nat) : Prop := ∃ status ∈ statusLine, 200 ≤ status ∧ status < 300

/-- The gRPC call returns `OK`. -/
def ReturnsOK {ρ : Type} (result : EStateM.Result Failure DbClient (GrpcStatus × ρ)) : Prop :=
  ∃ status response t, result = .ok (status, response) t ∧ status.code = .OK

/-- The gRPC request a put stands for. -/
def SaveHandler.saveRequest (h : SaveHandler) (body : Bytes) : SaveRequest :=
  { folder := h.name, useWAL := !h.wopt.disableWAL, data := body, timestamp := h.timestamp }

/-- The gRPC request a range read stands for. -/
def GetRangeHandler.rangeRequest (h : GetRangeHandler) : RangeRequest :=
  { h.request with folder := h.name }

/-- The gRPC request a subsample stands for. -/
def SubsamplingHandler.subsampleRequest (h : SubsamplingHandler) : SubsampleRequest :=
  { amount := h.amount, folder := h.name, batchSize := h.batchSize
    periodRequest := if h.from' = 0 ∧ h.till = 0 then none else some (h.from', h.till) }

variable (pb : Protobuf)

/-- A put that is answered with success would be `OK` over gRPC, and if it is answered with an
identifier, the record is stored under it. -/
def PutAgrees (env : Env) (s : DbClient) (h : SaveHandler) (body : Bytes) : Prop :=
  (Success (received id ((SaveHandler.handleRequest pb env h body).run s)) →
    ReturnsOK ((GRPCServer.save pb env (h.saveRequest body)).run s)) ∧
  ∀ response t, (SaveHandler.handleRequest pb env h body).run s = .ok response t →
    response.statusLine = some 200 → (∃ i, response.body = SaveHandler.jsonID i) →
    ∃ i es, response.body = SaveHandler.jsonID i ∧ t.records h.name = some es ∧
      (serializeID i, pb.serializeAsString { id := some i, data := body }) ∈ es

/-- A range read that is answered with success would be `OK` over gRPC, and a folder that does
not exist is answered with 404. -/
def RangeAgrees (context : GRPCServer.ServerContext) (s : DbClient) (h : GetRangeHandler) : Prop :=
  (Success (received Prod.fst ((GetRangeHandler.handleRequest pb h).run s)) →
    ReturnsOK ((GRPCServer.getRange pb context h.rangeRequest).run s)) ∧
  (s.columnFamalies.lookup h.name = none →
    received Prod.fst ((GetRangeHandler.handleRequest pb h).run s) = some 404)

/-- The same for a subsample. -/
def SubsampleAgrees (rnd : ℚ → ℚ) (rand : Nat → Rand) (s : DbClient) (h : SubsamplingHandler) :
    Prop :=
  (Success (received Prod.fst ((SubsamplingHandler.handleRequest pb rnd rand h).run s)) →
    ReturnsOK ((GRPCServer.getSubsample pb rnd rand h.subsampleRequest).run s)) ∧
  (s.columnFamalies.lookup h.name = none →
    received Prod.fst ((SubsamplingHandler.handleRequest pb rnd rand h).run s) = some 404)

/-! ### The header -/

private theorem yields_trivial {α : Type} (x : ClientM α) :
    Yields (fun _ ↦ True) x (fun _ ↦ True) := by
  intro s _
  split <;> trivial

private theorem received_of_yields {ρ : Type} {response : ρ → HTTPServerResponse} {x : ClientM ρ}
    (h : Yields (fun _ ↦ True) x (fun r ↦ (response r).statusLine = some 200)) (s : DbClient) :
    received response (x.run s) = some 200 := by
  have hs := h s trivial
  cases hx : x.run s with
  | ok r t =>
    rw [hx] at hs
    exact hs.2
  | error failure t => rfl

private theorem success_ok : Success (some 200) := ⟨200, rfl, by decide⟩

/-- A put is received with 200. -/
theorem received_put (env : Env) (s : DbClient) (h : SaveHandler) (body : Bytes) :
    received id ((SaveHandler.handleRequest pb env h body).run s) = some 200 := by
  apply received_of_yields
  apply yields_tryCatch
  · refine yields_bind (yields_trivial _) (fun i _ ↦ yields_bind (yields_trivial _) (fun cf _ ↦
      yields_bind (yields_trivial _) (fun status _ ↦ yields_pure ?_)))
    split
    · rfl
    · rfl
  · intro failure
    cases failure with
    | exception what => exact yields_pure rfl
    | crash => exact yields_throw _

/-- A range read is received with 200. -/
theorem received_getRange (s : DbClient) (h : GetRangeHandler) :
    received Prod.fst ((GetRangeHandler.handleRequest pb h).run s) = some 200 := by
  refine received_of_yields (yields_bind (yields_trivial _) (fun found _ ↦ ?_)) s
  cases found with
  | none => exact yields_pure rfl
  | some cf => exact yields_bind (yields_trivial _) (fun records _ ↦ yields_pure rfl)

/-- A subsample is received with 200. -/
theorem received_subsampling (rnd : ℚ → ℚ) (rand : Nat → Rand) (s : DbClient)
    (h : SubsamplingHandler) :
    received Prod.fst ((SubsamplingHandler.handleRequest pb rnd rand h).run s) = some 200 := by
  refine received_of_yields (yields_bind (yields_trivial _) (fun found _ ↦ ?_)) s
  cases found with
  | none => exact yields_pure rfl
  | some cf => exact yields_bind (yields_trivial _) (fun written _ ↦ yields_pure rfl)

/-! ### Reads -/

private theorem not_returnsOK_performIfExists {ρ : Type} {s : DbClient} {name : String}
    (hrecords : s.records name = none) (response : ρ)
    {fn : ColumnFamilyHandle → ClientM (GrpcStatus × ρ)}
    (hcrash : ∀ cf, (deref (some cf)).run s = .error .crash s → (fn cf).run s = .error .crash s) :
    ¬ ReturnsOK ((GRPCServer.performIfExists response name fn).run s) := by
  rintro ⟨status, r, t, hrun, hcode⟩
  cases he : s.columnFamalies.lookup name with
  | none =>
    have hcf : (getColumnFamily name).run s = .ok none s := by
      rw [run_getColumnFamily, he, Option.map_none]
    rw [run_performIfExists_of_none hcf] at hrun
    cases hrun
    cases hcode
  | some e =>
    have hcf : (getColumnFamily name).run s = .ok (some e.handle) s := by
      rw [run_getColumnFamily, he, Option.map_some]
    rw [run_performIfExists_of_crash hcf response
      (hcrash e.handle (run_deref_of_no_records he hrecords))] at hrun
    cases hrun

/-- `GetRange` returns `OK` exactly on a folder in use. -/
theorem returnsOK_getRange_iff (context : GRPCServer.ServerContext) (s : DbClient)
    (request : RangeRequest) :
    ReturnsOK ((GRPCServer.getRange pb context request).run s) ↔
      (s.records request.folder).isSome := by
  cases hrecords : s.records request.folder with
  | some es =>
    obtain ⟨-, -, -, hrun⟩ := run_getRange pb context hrecords
    rw [hrun]
    exact iff_of_true ⟨_, _, s, rfl, rfl⟩ rfl
  | none =>
    refine iff_of_false (not_returnsOK_performIfExists hrecords _ (fun cf hd ↦ ?_)) (by simp)
    rw [iter, bind_assoc, run_bind_of_error hd]

/-- `GetSubsample` returns `OK` exactly on a folder in use, if the batches have buffers. -/
theorem returnsOK_getSubsample_iff (rnd : ℚ → ℚ) (rand : Nat → Rand) (s : DbClient)
    (request : SubsampleRequest) :
    ReturnsOK ((GRPCServer.getSubsample pb rnd rand request).run s) ↔
      (s.records request.folder).isSome ∧ Buffered request.amount request.batchSize := by
  cases hrecords : s.records request.folder with
  | some es =>
    by_cases hb : Buffered request.amount request.batchSize
    · rw [run_getSubsample pb rnd rand hrecords hb]
      exact iff_of_true ⟨_, _, s, rfl, rfl⟩ ⟨rfl, hb⟩
    · rw [run_getSubsample_of_not_buffered pb rnd rand hrecords hb]
      refine iff_of_false ?_ (fun hboth ↦ hb hboth.2)
      rintro ⟨status, r, t, hrun, -⟩
      cases hrun
  | none =>
    refine iff_of_false (not_returnsOK_performIfExists hrecords _ (fun cf hd ↦ ?_)) (by simp)
    have hrange : (GRPCServer.sampledRange request cf).run s = .error .crash s := by
      rw [GRPCServer.sampledRange]
      cases request.periodRequest with
      | none => simp only [getUniqueRange, run_bind_of_error hd]
      | some period => simp only [getUniqueRangeForTS, run_bind_of_error hd]
    rw [GRPCServer.sample, bind_assoc, run_bind_of_error hrange]

private theorem read_agrees_iff {s : DbClient} {name : String} {line : Option Nat} {ok : Prop}
    (hline : line = some 200) (hok : ok → (s.records name).isSome) :
    ((Success line → ok) ∧ (s.columnFamalies.lookup name = none → line = some 404)) ↔ ok := by
  rw [hline]
  constructor
  · rintro ⟨hagree, -⟩
    exact hagree success_ok
  · intro h
    refine ⟨fun _ ↦ h, fun hnone ↦ ?_⟩
    obtain ⟨es, hes⟩ := Option.isSome_iff_exists.mp (hok h)
    obtain ⟨e, he, -⟩ := records_eq_some.mp hes
    rw [hnone] at he
    cases he

/-- A range read agrees on folders in use. -/
theorem rangeAgrees_iff (context : GRPCServer.ServerContext) (s : DbClient) (h : GetRangeHandler) :
    RangeAgrees pb context s h ↔ (s.records h.name).isSome := by
  have hok := returnsOK_getRange_iff pb context s h.rangeRequest
  exact (read_agrees_iff (received_getRange pb s h) hok.mp).trans hok

/-- A subsample agrees on folders in use, if its batches have buffers. -/
theorem subsampleAgrees_iff (rnd : ℚ → ℚ) (rand : Nat → Rand) (s : DbClient)
    (h : SubsamplingHandler) :
    SubsampleAgrees pb rnd rand s h ↔
      (s.records h.name).isSome ∧ Buffered h.amount h.batchSize := by
  have hok := returnsOK_getSubsample_iff pb rnd rand s h.subsampleRequest
  exact (read_agrees_iff (received_subsampling pb rnd rand s h) (fun h ↦ (hok.mp h).1)).trans hok

/-! ### Saves -/

section
variable {s t : DbClient} {name : String} {e : ColumnFamilyData}

private theorem run_generateId_of_getOrCreate {env : Env} {cf : Option ColumnFamilyHandle}
    (hrun : (getOrCreateColumnFamily env name).run s = .ok cf t)
    (he : t.columnFamalies.lookup name = some e) (ts : UInt64) :
    (generateId env name ts).run s = .ok ⟨effectiveTs env ts, e.lastUnique⟩
      (t.cache name { e with lastUnique := e.lastUnique + 1 }) := by
  have hfetch : (fetchAdd name).run t =
      .ok e.lastUnique (t.cache name { e with lastUnique := e.lastUnique + 1 }) := by
    rw [fetchAdd, run_bind_of_ok (EStateM.run_get t)]
    simp only [he]
    rfl
  rw [generateId, run_bind_of_ok hrun, run_bind_of_ok hfetch, EStateM.run_pure]

private theorem records_cache (he : s.columnFamalies.lookup name = some e) (u : UInt64) :
    (s.cache name { e with lastUnique := u }).records name = s.records name := by
  simp only [records, cache, AList.lookup_insert, he]
  rfl

private theorem run_put_of_records (he : s.columnFamalies.lookup name = some e)
    {es : ColumnFamily} (hes : s.records name = some es) (io : Status) (wopt : WriteOptions)
    (key val : Bytes) :
    ∃ t, (put io wopt (some e.handle) key val).run s = .ok io t ∧
      (io = .ok → ∃ es', t.records name = some es' ∧ (key, val) ∈ es') := by
  rw [put, run_bind_of_ok (run_deref_of_records he hes)]
  cases io with
  | failed text => exact ⟨s, rfl, fun h ↦ by cases h⟩
  | ok =>
    let es' := OrderedStore.put IDComparator.compare key val es
    refine ⟨s.writeFamily e.handle.name es', rfl, fun _ ↦
      ⟨es', ?_, OrderedStore.mem_put_self _ _ _⟩⟩
    obtain ⟨e', he', hdb, hfamily⟩ := records_eq_some.mp hes
    rw [he] at he'
    cases he'
    obtain ⟨d, hd, -⟩ := Option.bind_eq_some_iff.mp hfamily
    have hw : s.writeFamily e.handle.name es' =
        { s with rocks := s.rocks.setDisk s.openDir (d.write e.handle.name es') } := by
      rw [writeFamily, hd]
    have hdisk : (s.writeFamily e.handle.name es').database =
        some (d.write e.handle.name es') := by
      rw [hw]
      exact Function.update_self _ _ _
    refine records_eq_some.mpr ⟨e, ?_, ?_, ?_⟩
    · rw [hw, he]
    · rw [hw, hdb]
    · rw [family, hdisk, Option.bind_some, Database.family_write, if_pos rfl]

end

private theorem run_save_of_obtainable {s : DbClient} {env : Env} {request : SaveRequest}
    (h : s.Obtainable env request.folder) :
    ∃ i t, (GRPCServer.save pb env request).run s = .ok (savedReply env.put i) t := by
  obtain ⟨e, es, r, hrun, he, hes⟩ := run_getOrCreate_of_obtainable h
  have hgen := run_generateId_of_getOrCreate (run_getOrCreate_of_lookup he env) he request.timestamp
  have hes' := (records_cache he (e.lastUnique + 1)).trans hes
  obtain ⟨t, hput, -⟩ := run_put_of_records (AList.lookup_insert _) hes' env.put request.wopt
    (serializeID ⟨effectiveTs env request.timestamp, e.lastUnique⟩)
    (pb.serializeAsString (request.message ⟨effectiveTs env request.timestamp, e.lastUnique⟩))
  refine ⟨⟨effectiveTs env request.timestamp, e.lastUnique⟩, t, ?_⟩
  have hact : (GRPCServer.saveAction pb env request (some e.handle)).run r =
      .ok (savedReply env.put ⟨effectiveTs env request.timestamp, e.lastUnique⟩) t := by
    rw [GRPCServer.saveAction, run_bind_of_ok hgen, run_bind_of_ok hput, savedReply]
    split
    · rfl
    · rfl
  rw [GRPCServer.save, GRPCServer.perform, run_tryCatch, run_bind_of_ok hrun, hact]

private theorem not_returnsOK_save {s : DbClient} {env : Env} {request : SaveRequest}
    (h : ¬ s.Obtainable env request.folder) :
    ¬ ReturnsOK ((GRPCServer.save pb env request).run s) := by
  rintro ⟨status, i, t, hrun, hcode⟩
  rw [GRPCServer.save, GRPCServer.perform, run_tryCatch] at hrun
  rcases run_getOrCreate_of_not_obtainable h with ⟨e, he, hnone⟩ | ⟨failure, r, hfail⟩
  · have hfound := run_getOrCreate_of_lookup he env
    have hgen := run_generateId_of_getOrCreate hfound he request.timestamp
    have hcrash := run_deref_of_no_records (AList.lookup_insert _)
      ((records_cache he (e.lastUnique + 1)).trans hnone)
    have hact : (GRPCServer.saveAction pb env request (some e.handle)).run s =
        .error .crash (s.cache request.folder { e with lastUnique := e.lastUnique + 1 }) := by
      rw [GRPCServer.saveAction, run_bind_of_ok hgen, put, bind_assoc, run_bind_of_error hcrash]
    rw [run_bind_of_ok hfound, hact] at hrun
    cases hrun
  · rw [run_bind_of_error hfail] at hrun
    cases failure with
    | exception what =>
      cases hrun
      cases hcode
    | crash => cases hrun

/-- `Save` returns `OK` exactly if the write is accepted and the folder can be obtained. -/
theorem returnsOK_save_iff (env : Env) (s : DbClient) (request : SaveRequest) :
    ReturnsOK ((GRPCServer.save pb env request).run s) ↔
      env.put = .ok ∧ s.Obtainable env request.folder := by
  by_cases h : s.Obtainable env request.folder
  · obtain ⟨i, t, hrun⟩ := run_save_of_obtainable pb h
    rw [hrun]
    cases hput : env.put with
    | ok => exact iff_of_true ⟨_, i, t, rfl, rfl⟩ ⟨rfl, h⟩
    | failed text =>
      refine iff_of_false ?_ (by simp)
      rintro ⟨status, i, t, hreply, hcode⟩
      cases hreply
      cases hcode
  · exact iff_of_false (not_returnsOK_save pb h) (fun hboth ↦ h hboth.2)

private theorem run_put_of_obtainable {s : DbClient} {env : Env} {h : SaveHandler} (body : Bytes)
    (hobt : s.Obtainable env h.name) :
    ∃ i t, (SaveHandler.handleRequest pb env h body).run s = .ok (postedReply i) t ∧
      (env.put = .ok → ∃ es, t.records h.name = some es ∧
        (serializeID i, pb.serializeAsString { id := some i, data := body }) ∈ es) := by
  obtain ⟨e, es, r, hrun, he, hes⟩ := run_getOrCreate_of_obtainable hobt
  have hgen := run_generateId_of_getOrCreate hrun he h.timestamp
  have hlookup : (r.cache h.name { e with lastUnique := e.lastUnique + 1 }).columnFamalies.lookup
      h.name = some { e with lastUnique := e.lastUnique + 1 } := AList.lookup_insert _
  have hes' := (records_cache he (e.lastUnique + 1)).trans hes
  obtain ⟨t, hput, hstored⟩ := run_put_of_records hlookup hes' env.put h.wopt
    (serializeID ⟨effectiveTs env h.timestamp, e.lastUnique⟩)
    (pb.serializeAsString
      { id := some ⟨effectiveTs env h.timestamp, e.lastUnique⟩, data := body })
  refine ⟨⟨effectiveTs env h.timestamp, e.lastUnique⟩, t, ?_, hstored⟩
  rw [SaveHandler.handleRequest, run_tryCatch, run_bind_of_ok hgen,
    run_bind_of_ok (run_getOrCreate_of_lookup hlookup env), run_bind_of_ok hput]
  -- a refused write sets the status that is set already
  simp only [EStateM.run_pure, postedReply, HTTPServerResponse.setStatus, ite_self]

/-- A put agrees where the write is accepted and the folder can be obtained. -/
theorem putAgrees_iff (env : Env) (s : DbClient) (h : SaveHandler) (body : Bytes) :
    PutAgrees pb env s h body ↔ env.put = .ok ∧ s.Obtainable env h.name := by
  rw [PutAgrees, received_put, returnsOK_save_iff]
  constructor
  · rintro ⟨hagree, -⟩
    exact hagree success_ok
  · rintro ⟨hput, hobt⟩
    refine ⟨fun _ ↦ ⟨hput, hobt⟩, fun response t hrun _ _ ↦ ?_⟩
    obtain ⟨i, r, hrun', hstored⟩ := run_put_of_obtainable pb body hobt
    rw [hrun'] at hrun
    cases hrun
    obtain ⟨es, hes, hmem⟩ := hstored hput
    exact ⟨i, es, String.empty_append, hes, hmem⟩

/-! ### Agreement -/

/-- In any state the HTTP front end reports what the gRPC front end does exactly in these cases: a
put whose write is accepted, into a folder in use or one that can be created; a range read of a
folder in use; a subsample of a folder in use whose batches have buffers. -/
theorem http_agrees_iff (env : Env) (context : GRPCServer.ServerContext) (rnd : ℚ → ℚ)
    (rand : Nat → Rand) (s : DbClient) (post : SaveHandler) (body : Bytes)
    (range : GetRangeHandler) (subsample : SubsamplingHandler) :
    (PutAgrees pb env s post body ↔ env.put = .ok ∧ s.Obtainable env post.name) ∧
    (RangeAgrees pb context s range ↔ (s.records range.name).isSome) ∧
    (SubsampleAgrees pb rnd rand s subsample ↔
      (s.records subsample.name).isSome ∧ Buffered subsample.amount subsample.batchSize) :=
  ⟨putAgrees_iff pb env s post body, rangeAgrees_iff pb context s range,
    subsampleAgrees_iff pb rnd rand s subsample⟩

/-- On a new database, reads of a folder that does not exist are answered 200 and not 404, and so
is a put whose write is refused; of a subsample of one batch of 2^27 the client has read 200 when
the server goes down. -/
theorem http_disagrees :
    ∃ client, start .localDBClient { now := 1, now_ne_zero := by decide } {} RocksDB.empty =
        .ok () client ∧
      ¬ RangeAgrees Wire.wire ⟨fun _ ↦ false⟩ client { name := "g" } ∧
      ¬ SubsampleAgrees Wire.wire id (fun _ ↦ 0) client { name := "g", amount := 1 } ∧
      ¬ SubsampleAgrees Wire.wire id (fun _ ↦ 0) client
        { name := defaultName, amount := UInt32.ofNat (2 ^ 27)
          batchSize := UInt32.ofNat (2 ^ 27) } ∧
      ¬ PutAgrees Wire.wire
        { now := 2, now_ne_zero := by decide, put := .failed "IO error: No space left on device" }
        client { name := defaultName } [7] := by
  obtain ⟨client, hstart⟩ := start_of_empty .localDBClient {}
    { now := 1, now_ne_zero := by decide } rfl rfl rfl rfl
  obtain ⟨i, hserv⟩ := start_serving rfl hstart
  have hnone : client.columnFamalies.lookup "g" = none := by
    rw [AList.lookup_eq_none, hserv.mem_cache]
    decide
  refine ⟨client, hstart, ?_, ?_, ?_, ?_⟩
  · rintro ⟨-, hmissing⟩
    have hline := hmissing hnone
    rw [received_getRange] at hline
    cases hline
  · rintro ⟨-, hmissing⟩
    have hline := hmissing hnone
    rw [received_subsampling] at hline
    cases hline
  · rw [subsampleAgrees_iff]
    rintro ⟨-, hb⟩
    exact absurd hb (by decide)
  · rw [putAgrees_iff]
    rintro ⟨hput, -⟩
    cases hput

end TimeMachine.Server
