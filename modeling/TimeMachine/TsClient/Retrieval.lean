import TimeMachine.TsClient.Decoding
import TimeMachine.Server.Retrieval

/-!
# From the archive to the browser

The body of `GET /<name>/get` travels through the factory, the handler, the scan and the
frames, and `decodeTsRecord` takes it apart. What comes out is what the archive holds in
the range, with timestamps and numbers rounded to the 53 bits of a JavaScript number; a
record that was put over HTTP is among it, under the rounded identifier the put answered.
Identifiers up to 2^53 are exact.
-/

namespace TimeMachine.TsClient
open TimeMachine.Base TimeMachine.Base.StateError TimeMachine.Store TimeMachine.Client
open TimeMachine.Server ByteBuffer Index

/-- What the browser sees of a record: its timestamp and its number as JavaScript numbers, which
are rounded to 53 bits, and its payload. -/
def seen (r : ID × Data) : Int × Int × Bytes :=
  (toNumber r.1.timestamp.toInt64, toNumber r.1.unique.toInt64, r.2.data)

/-- The timestamp and the number are JavaScript numbers. -/
def Exact (id : ID) : Prop := id.timestamp.toNat ≤ 2 ^ 53 ∧ id.unique.toNat ≤ 2 ^ 53

/-- A record as it is. -/
def unrounded (r : ID × Data) : Int × Int × Bytes :=
  (r.1.timestamp.toNat, r.1.unique.toNat, r.2.data)

/-- Of a record under such an identifier the browser loses nothing. -/
theorem seen_of_exact {r : ID × Data} (h : Exact r.1) : seen r = unrounded r := by
  rw [seen, unrounded, toNumber_of_le h.1, toNumber_of_le h.2]

/-- The frames of records are decoded to what the browser sees of them. -/
theorem flatten_frames {records : List (ID × Data)} (h : ∀ r ∈ records, r.2.data.length < 2 ^ 31) :
    (decodeTsRecord (frames records)).map flatten = .ok (records.map seen) := by
  rw [decodeTsRecord_frames h, Except.map, flatten, List.flatMap_map]
  exact congrArg Except.ok (List.flatMap_pure_eq_map seen records)

/-! ### Sizes -/

/-- The payload a call carries. -/
def payload : Call → Bytes
  | .save _ request => request.data
  | .http _ _ _ body => body
  | .get _ | .getRange .. | .getSubsample .. => []

/-- The payload of the event has a length that fits an `int`. -/
def Fits : ServiceEvent → Prop
  | .start .. => True
  | .call c => (payload c).length < 2 ^ 31

instance : DecidablePred Fits
  | .start .. => isTrue trivial
  | .call c => inferInstanceAs (Decidable ((payload c).length < 2 ^ 31))

/-- All payloads of a folder have a length that fits an `int`. -/
def FitsAll (log : Option (List (ID × Data))) : Prop :=
  ∀ l ∈ log, ∀ r ∈ l, r.2.data.length < 2 ^ 31

variable {lib : Libraries} {a b : Archive}

private theorem fitsAll_append (ha : ∀ name, FitsAll (a name)) (folder : String)
    {records : List (ID × Data)} (hr : ∀ r ∈ records, r.2.data.length < 2 ^ 31) (name : String) :
    FitsAll (a.append folder records name) := by
  intro l hl r hmem
  rw [Archive.append_apply] at hl
  split at hl
  · cases hl
    rcases List.mem_append.mp hmem with hold | hnew
    · cases hlog : a folder with
      | none =>
        rw [hlog] at hold
        cases hold
      | some old =>
        rw [hlog] at hold
        exact ha folder old hlog r hold
    · exact hr r hnew
  · exact ha name l hl r hmem

/-- A step with a payload that fits. -/
theorem fitsAll_step {e : ServiceEvent} {r : Response} (h : Archive.Step lib a e r b)
    (he : Fits e) (ha : ∀ name, FitsAll (a name)) : ∀ name, FitsAll (b name) := by
  cases h with
  | start impl env cfg => exact ha
  | read htells => exact ha
  | saved hput hts =>
    refine fitsAll_append ha _ fun r hr ↦ ?_
    rw [List.mem_singleton.mp hr]
    exact he
  | refused hput => exact fitsAll_append ha _ (by simp)
  | posted hhandler hts =>
    refine fitsAll_append ha _ fun r hr ↦ ?_
    split at hr
    · rw [List.mem_singleton.mp hr]
      exact he
    · cases hr

/-- A run of events with payloads that fit. -/
theorem fitsAll_run {l : List (ServiceEvent × Response)} (h : Archive.Run lib a l b)
    (hl : ∀ x ∈ l, Fits x.1) (ha : ∀ name, FitsAll (a name)) : ∀ name, FitsAll (b name) := by
  induction h with
  | nil a => exact ha
  | cons hstep _ ih =>
    exact ih (fun x hx ↦ hl x (List.mem_cons_of_mem _ hx))
      (fitsAll_step hstep (hl _ List.mem_cons_self) ha)

/-- A new archive has no payloads. -/
theorem fitsAll_initial (name : String) : FitsAll (Archive.initial name) := by
  intro l hl r hr
  rw [Archive.initial, Function.update_apply] at hl
  split at hl
  · cases hl
    cases hr
  · cases hl

/-! ### What the browser gets -/

/-- A forward range read over HTTP of a folder of an archive: the body is decoded to the last
writes in the range, cut off by the limits. -/
theorem getRange_decoded {s : DbClient} (hs : DbClient.Serves s)
    (hs' : s.view.contents = a.contents lib.pb) (ha : a.Dated) (env : Env) (rand : Nat → Rand)
    {request : HTTPServerRequest} (body : Bytes) {h : GetRangeHandler}
    (hhandler : HandlerFactory.createRequestHandler request = some (.getRange h))
    (hr : h.reverse = false) {log : List (ID × Data)} (hlog : a h.name = some log)
    (hsize : ∀ r ∈ log, r.2.data.length < 2 ^ 31) :
    ∃ M N stream, LastIn log h.from' h.till M ∧
      CutOff h.maxMessages h.maxBytes (Callback.size frameSize) M N ∧
      (Process.running s).ask lib (.http env rand request body) = (.running s,
        .answer (.http (({} : HTTPServerResponse).send.setStatus 200) stream)) ∧
      (decodeTsRecord stream).map flatten = .ok (N.map seen) := by
  have hnot : ¬ (Call.http env rand request body).Writes := by
    intro hroute
    rw [HandlerFactory.createRequestHandler_of_put hroute] at hhandler
    cases hhandler
  have hbuffered : (Call.http env rand request body).Buffered := by
    intro handler hh
    rw [hhandler] at hh
    cases hh
    trivial
  obtain ⟨answer, hans, htells⟩ := run_serve_of_not_writes hs lib hnot hbuffered
  simp only [Tells, hhandler, Handler.Tells, hs', Archive.contents, hlog, Option.map_some,
    httpFromFolder] at htells
  obtain ⟨M, hM, hcut⟩ := scan_replay lib.pb (ha _ log hlog) frameSize h.request hr
  refine ⟨M, _, _, hM, hcut, ?_, flatten_frames fun r hmem ↦ ?_⟩
  · rw [ask_of_run hans, htells]
    rfl
  · exact hsize _ (mem_of_lastWrite ((hM.mem_iff r).mp (hcut.isPrefix.subset hmem)).1)

variable (lib) {impl : Impl} {env : Env} {cfg : Config} {events : List ServiceEvent}

private theorem archived_fits (hstart : FreshStart impl env cfg)
    (he : ∀ e ∈ events, e.Durable impl cfg) (hfits : ∀ e ∈ events, Fits e) :
    ∃ client b, (Process.down RocksDB.empty).afterAll lib (.start impl env cfg :: events) =
        .running client ∧ DbClient.Serves client ∧ client.impl = impl ∧ client.cfg = cfg ∧
      Archive.Run lib Archive.initial
        ((Process.down RocksDB.empty).log lib (.start impl env cfg :: events)) b ∧
      client.view.contents = b.contents lib.pb ∧ b.Dated ∧ ∀ name, FitsAll (b name) := by
  obtain ⟨client, b, hall, hserves, himpl, hcfg, hrun, hb⟩ := hstart.archived lib he
  refine ⟨client, b, hall, hserves, himpl, hcfg, hrun, hb,
    Archive.dated_run hrun Archive.dated_initial, fitsAll_run hrun ?_ fitsAll_initial⟩
  intro x hx
  have hmem := List.mem_map_of_mem (f := Prod.fst) hx
  rw [map_fst_log] at hmem
  rcases List.mem_cons.mp hmem with heq | hmem
  · rw [heq]
    trivial
  · exact hfits _ hmem

/-- After every durable run from an empty disk, which is the run of an archive, the browser decodes
the body of a forward range read over HTTP to what it sees of the last writes in the range, in the
order of their identifiers and cut off by the limits, and that is the writes as they are if their
identifiers are JavaScript numbers. -/
theorem range_decodes_archive (hstart : FreshStart impl env cfg)
    (he : ∀ e ∈ events, e.Durable impl cfg) (hfits : ∀ e ∈ events, Fits e) :
    ∃ b, Archive.Run lib Archive.initial
        ((Process.down RocksDB.empty).log lib (.start impl env cfg :: events)) b ∧
      ∀ (env' : Env) rand request body h log,
        HandlerFactory.createRequestHandler request = some (.getRange h) → h.reverse = false →
        b h.name = some log →
        ∃ M N stream, LastIn log h.from' h.till M ∧
          CutOff h.maxMessages h.maxBytes (Callback.size frameSize) M N ∧
          (((Process.down RocksDB.empty).afterAll lib (.start impl env cfg :: events)).ask lib
            (.http env' rand request body)).2 =
            .answer (.http (({} : HTTPServerResponse).send.setStatus 200) stream) ∧
          (decodeTsRecord stream).map flatten = .ok (N.map seen) ∧
          ((∀ r ∈ N, Exact r.1) → N.map seen = N.map unrounded) := by
  obtain ⟨client, b, hall, hserves, -, -, hrun, hb, hdated, hsize⟩ :=
    archived_fits lib hstart he hfits
  refine ⟨b, hrun, fun env' rand request body h log hhandler hr hlog ↦ ?_⟩
  obtain ⟨M, N, stream, hM, hcut, hask, hdecoded⟩ := getRange_decoded hserves hb hdated
    env' rand body hhandler hr hlog (hsize _ log hlog)
  refine ⟨M, N, stream, hM, hcut, ?_, hdecoded, fun hexact ↦ ?_⟩
  · rw [hall, hask]
  · exact List.map_congr_left fun r hr ↦ seen_of_exact (hexact r hr)

/-- Two saves under one timestamp. -/
theorem range_decodes_archive_saved :
    let lib := Libraries.wire
    let env : Env := { now := 1, now_ne_zero := by decide }
    let request : HTTPServerRequest :=
      { method := "GET", uri := "/f/get", path := { dirs := ["f"], name := "get" } }
    let events : List ServiceEvent :=
      [.call (.save env { folder := "f", data := [7], timestamp := 5 }),
        .call (.save env { folder := "f", data := [8], timestamp := 5 })]
    ∃ b, Archive.Run lib Archive.initial
        ((Process.down RocksDB.empty).log lib (.start .localDBClient env {} :: events)) b ∧
      ∃ log M N stream, b "f" = some log ∧
        LastIn log 0 (UInt64.ofNat (2 ^ 64 - 1)) M ∧ CutOff 0 0 (Callback.size frameSize) M N ∧
        (((Process.down RocksDB.empty).afterAll lib
            (.start .localDBClient env {} :: events)).ask lib
          (.http env (fun _ ↦ 0) request [])).2 =
          .answer (.http (({} : HTTPServerResponse).send.setStatus 200) stream) ∧
        (decodeTsRecord stream).map flatten = .ok (N.map seen) ∧
        ((∀ r ∈ N, Exact r.1) → N.map seen = N.map unrounded) := by
  intro lib env request events
  obtain ⟨b, hrun, hget⟩ := range_decodes_archive lib
    (⟨rfl, rfl, rfl, rfl⟩ : FreshStart .localDBClient env {})
    (show ∀ e ∈ events, _ by decide) (show ∀ e ∈ events, _ by decide)
  obtain ⟨log, hlog⟩ := exists_log_of_targets hrun
    (List.mem_cons_of_mem _ List.mem_cons_self) rfl
  obtain ⟨M, N, stream, hM, hcut, hask⟩ := hget env (fun _ ↦ 0) request []
    { name := "f", till := UInt64.ofNat (2 ^ 64 - 1) } log (by decide) rfl hlog
  exact ⟨b, hrun, log, M, N, stream, hlog, hM, hcut, hask⟩

/-- A payload that was put over HTTP is among what the browser decodes of a later range read that
covers it, under what it sees of the identifier the put answered, and so under that identifier if
it consists of JavaScript numbers, whatever was done to other folders and however often the server
was restarted in between. -/
theorem posted_decoded (hstart : FreshStart impl env cfg)
    (he : ∀ e ∈ events, e.Durable impl cfg) (hfits : ∀ e ∈ events, Fits e) {penv : Env}
    {prand : Nat → Rand} {prequest : HTTPServerRequest} {payload : Bytes} {p : SaveHandler}
    (hput : HandlerFactory.createRequestHandler prequest = some (.save p))
    (hpenv : DbClient.Healthy penv)
    (hwritten : penv.put = .ok) (hpayload : payload.length < 2 ^ 31)
    {later : List ServiceEvent} (hlater : ∀ e ∈ later, e.Durable impl cfg)
    (hother : ∀ e ∈ later, ¬ e.Targets p.name)
    {genv : Env} {grand : Nat → Rand} {grequest : HTTPServerRequest} {body : Bytes}
    {h : GetRangeHandler}
    (hget : HandlerFactory.createRequestHandler grequest = some (.getRange h))
    (hname : h.name = p.name) (hr : h.reverse = false) (hbytes : h.maxBytes = 0)
    (hmessages : h.maxMessages = 0) (hfrom : h.from' ≤ DbClient.effectiveTs penv p.timestamp)
    (htill : h.till = 0 ∨ DbClient.effectiveTs penv p.timestamp ≤ h.till) :
    let before := (Process.down RocksDB.empty).afterAll lib (.start impl env cfg :: events)
    let put := before.ask lib (.http penv prand prequest payload)
    ∃ id stream entries, put.2 = .answer (.http (postedReply id) []) ∧
      ((put.1.afterAll lib later).ask lib (.http genv grand grequest body)).2 =
        .answer (.http (({} : HTTPServerResponse).send.setStatus 200) stream) ∧
      (decodeTsRecord stream).map flatten = .ok entries ∧
      seen (id, { data := payload }) ∈ entries ∧
      (Exact id → unrounded (id, { data := payload }) ∈ entries) := by
  obtain ⟨client, b, hall, hserves, himpl, hcfg, -, hb, hdated, hsize⟩ :=
    archived_fits lib hstart he hfits
  have hdurable : (ServiceEvent.call (.http penv prand prequest payload)).Durable client.impl
      client.cfg := by
    refine ⟨fun e' he' ↦ ?_, fun handler hh ↦ ?_⟩
    · have hevent : e' = .post penv (prequest.path.get 0) prequest.queryParameters payload := by
        simpa [ServiceEvent.event, Call.event, HandlerFactory.route_of_save hput] using he'.symm
      rw [hevent]
      exact hpenv
    · rw [hput] at hh
      cases hh
      trivial
  obtain ⟨t, c, r, hserve, ht, hstep, hc⟩ := archived_step lib hserves hb hdurable
  have hcdated := Archive.dated_step hstep hdated
  have hcsize := fitsAll_step hstep hpayload hsize
  -- the put is a write of the archive
  obtain ⟨id, hid, rfl, rfl⟩ : ∃ id : ID, id.timestamp = DbClient.effectiveTs penv p.timestamp ∧
      r = .answer (.http (postedReply id) []) ∧
      c = b.append p.name [(id, { id := some id, data := payload })] := by
    cases hstep with
    | read htells => simp [Tells, hput, Handler.Tells] at htells
    | @posted _ _ _ _ h id hhandler hts =>
      rw [hput] at hhandler
      cases hhandler
      exact ⟨id, hts, rfl, by rw [hwritten]; rfl⟩
  obtain ⟨u, d, hlaterall, hu, hrun, hd⟩ := archived_run lib ht.serves hc
    (by rwa [ht.impl, ht.cfg, himpl, hcfg] : ∀ e ∈ later, e.Durable t.impl t.cfg)
  have hsame : d p.name = b.append p.name [(id, { id := some id, data := payload })] p.name := by
    apply run_other hrun
    intro x hx
    have hmem := List.mem_map_of_mem (f := Prod.fst) hx
    rw [map_fst_log] at hmem
    exact hother _ hmem
  have hlog : d h.name =
      some ((b p.name).getD [] ++ [(id, { id := some id, data := payload })]) := by
    rw [hname, hsame, Archive.append_apply, if_pos rfl]
  obtain ⟨M, N, stream, hM, hcut, hask, hdecoded⟩ := getRange_decoded hu.serves hd
    (Archive.dated_run hrun hcdated) genv grand body hget hr hlog (hcsize p.name _ (by
      rw [Archive.append_apply, if_pos rfl]
      rfl))
  have hseen : seen (id, { data := payload }) ∈ N.map seen := by
    have hmem : (id, ({ id := some id, data := payload } : Data)) ∈ M := by
      rw [hM.mem_iff, lastWrite_concat, if_pos rfl]
      exact ⟨rfl, by rw [hid]; exact hfrom, by rw [hid]; exact htill⟩
    rw [hbytes, hmessages] at hcut
    rw [hcut.eq]
    -- what is seen of the record does not depend on the identifier inside it
    exact List.mem_map.mpr ⟨_, hmem, rfl⟩
  refine ⟨id, stream, N.map seen, ?_, ?_, hdecoded, hseen, fun hexact ↦ ?_⟩
  · change ((Process.afterAll lib _ _).serve lib (.call _)).2 = _
    rw [hall, hserve]
  · change ((Process.afterAll lib ((Process.afterAll lib _ _).serve lib (.call _)).1 later).ask lib
      _).2 = _
    rw [hall, hserve, hlaterall, hask]
  · rwa [← seen_of_exact hexact]

/-- A put, a save to another folder and a restart. -/
theorem posted_decoded_later :
    let lib := Libraries.wire
    let env : Env := { now := 1, now_ne_zero := by decide }
    let put : HTTPServerRequest :=
      { method := "POST", uri := "/f/put", path := { dirs := ["f"], name := "put" } }
    let get : HTTPServerRequest :=
      { method := "GET", uri := "/f/get", path := { dirs := ["f"], name := "get" } }
    let later : List ServiceEvent :=
      [.call (.save env { folder := "g", data := [8] }), .start .localDBClient env {}]
    let before := (Process.down RocksDB.empty).afterAll lib [.start .localDBClient env {}]
    let posted := before.ask lib (.http env (fun _ ↦ 0) put [7])
    ∃ id stream entries, posted.2 = .answer (.http (postedReply id) []) ∧
      ((posted.1.afterAll lib later).ask lib (.http env (fun _ ↦ 0) get [])).2 =
        .answer (.http (({} : HTTPServerResponse).send.setStatus 200) stream) ∧
      (decodeTsRecord stream).map flatten = .ok entries ∧
      seen (id, { data := [7] }) ∈ entries ∧
      (Exact id → unrounded (id, { data := [7] }) ∈ entries) := by
  intro lib env put get later before posted
  have hname : ∀ e ∈ later, ¬ e.Targets "f" := by
    simp [later, ServiceEvent.Targets, Call.target]
  exact posted_decoded lib (⟨rfl, rfl, rfl, rfl⟩ : FreshStart .localDBClient env {})
    (show ∀ e ∈ [], _ by simp) (by simp)
    (show HandlerFactory.createRequestHandler put =
      some (.save { name := "f", wopt := { disableWAL := true } }) by decide)
    ⟨rfl, rfl, rfl⟩ rfl (by decide) (show ∀ e ∈ later, _ by decide) hname
    (show HandlerFactory.createRequestHandler get =
      some (.getRange { name := "f", till := UInt64.ofNat (2 ^ 64 - 1) }) by decide)
    rfl rfl rfl rfl (by decide) (by decide)

end TimeMachine.TsClient
