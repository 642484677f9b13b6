import TimeMachine.Server.ServiceRuns
import TimeMachine.Server.SampledRecords
import TimeMachine.Server.StatusLines

/-!
# One range, two formats

The same range read over gRPC and over HTTP. Without a limit on the bytes, which the two
count differently, the stream of the HTTP response is made of the frames of the messages
that `GetRange` writes, each under the identifier it carries; the two fail together. The
status line is 200 whatever `GetRange` answers. This needs what every run keeps: that a
stored message carries the identifier of its key.
-/

namespace TimeMachine.Server
open TimeMachine.Base TimeMachine.Base.StateError TimeMachine.Store TimeMachine.Client DbClient

/-! ### The scan -/

private theorem selected_folder (request : RangeRequest) (folder : String) (l : ColumnFamily) :
    ({ request with folder } : RangeRequest).selected l = request.selected l := by
  induction l with
  | nil => rfl
  | cons e rest ih => rw [RangeRequest.selected, RangeRequest.selected, ih]

private theorem emitted_of_no_bytes {request : RangeRequest} (hb : request.maxbytes = 0)
    (folder : String) (fn fn' : Callback) (bytes bytes' messages : UInt64) (l : List (ID × Data)) :
    ({ request with folder } : RangeRequest).emitted fn bytes messages l =
      request.emitted fn' bytes' messages l := by
  induction l generalizing bytes bytes' messages with
  | nil => rfl
  | cons r rest ih =>
    have hno (n : UInt64) : ¬ (request.maxbytes ≠ 0 ∧ request.maxbytes ≤ n) := fun h ↦ h.1 hb
    rw [RangeRequest.emitted, RangeRequest.emitted, if_neg (hno bytes), if_neg (hno bytes'),
      ih _ (bytes' + fn' r.1 r.2 false)]

/-- The records of a scan without a limit on the bytes do not depend on the callback, nor on the
folder the request names. -/
theorem scan_of_no_bytes (pb : Protobuf) (request : RangeRequest) (hb : request.maxbytes = 0)
    (folder : String) (fn fn' : Callback) (es : ColumnFamily) :
    scan pb { request with folder } fn es = scan pb request fn' es := by
  rw [scan, scan, iterLoop_eq, iterLoop_eq, selected_folder,
    emitted_of_no_bytes hb folder fn fn' 0 0]
  rfl

/-- The messages of a scan of a stored folder carry the identifiers of their keys. -/
theorem id_of_mem_scan {pb : Protobuf} {es : ColumnFamily} (h : Stored pb es)
    (request : RangeRequest) (fn : Callback) {r : ID × Data} (hr : r ∈ scan pb request fn es) :
    r.2.id = some r.1 := by
  obtain ⟨e, he, rfl⟩ := exists_entry_of_mem_scan hr
  exact h.embedded e he

/-! ### The two reads -/

/-- The frames of messages, each under the identifier it carries. -/
def messageFrames (messages : List Data) : Bytes :=
  frames (messages.map fun data ↦ (data.id.getD {}, data))

/-- The frames of records whose messages carry their identifiers. -/
theorem messageFrames_map_snd {records : List (ID × Data)}
    (h : ∀ r ∈ records, r.2.id = some r.1) :
    messageFrames (records.map Prod.snd) = frames records := by
  rw [messageFrames, List.map_map]
  conv_rhs => rw [← List.map_id records]
  congr 1
  apply List.map_congr_left
  intro r hr
  simp only [Function.comp_apply, h r hr, Option.getD_some, id]

/-- The HTTP answer to the read that the gRPC service answers that way. The status is set after the
header was sent, so the client reads 200 in any case. -/
def httpRange (r : GrpcStatus × List Data) : HTTPServerResponse × Bytes :=
  (({} : HTTPServerResponse).send.setStatus (if r.1.code = .OK then 200 else 404),
    messageFrames r.2)

/-- What a range read over HTTP does: it looks the folder up, and writes the frames of the scan. -/
theorem run_getRangeHandler (pb : Protobuf) (s : DbClient) (h : GetRangeHandler) :
    (h.handleRequest pb).run s =
      match s.columnFamalies.lookup h.name, s.records h.name with
      | none, _ => .ok (({} : HTTPServerResponse).send.setStatus 404, []) s
      | some _, none => .error .crash s
      | some _, some es =>
        .ok (({} : HTTPServerResponse).send.setStatus 200, frames (scan pb h.request frameSize es))
          s := by
  have hcf := run_getColumnFamily s h.name
  rw [GetRangeHandler.handleRequest, run_bind_of_ok hcf]
  cases he : s.columnFamalies.lookup h.name with
  | none => rfl
  | some e =>
    cases hes : s.records h.name with
    | none =>
      simp only [Option.map_some, iter, bind_assoc,
        run_bind_of_error (run_deref_of_no_records he hes)]
    | some es =>
      simp only [Option.map_some, iter, bind_assoc, run_bind_of_ok (run_deref_of_records he hes)]
      rfl

/-- On a client whose folders are stored as the server writes them, a range read without a limit on
the bytes does over HTTP what it does over gRPC, also where it fails. -/
theorem run_getRangeHandler_of_sound {pb : Protobuf} {s : DbClient} (hs : Sound pb s)
    (context : GRPCServer.ServerContext) {h : GetRangeHandler} (hb : h.maxBytes = 0) :
    (h.handleRequest pb).run s =
      (httpRange <$> GRPCServer.getRange pb context h.rangeRequest).run s := by
  rw [run_map, run_getRangeHandler]
  cases he : s.columnFamalies.lookup h.name with
  | none =>
    have hcf : (getColumnFamily h.name).run s = .ok none s := by
      rw [run_getColumnFamily, he, Option.map_none]
    have hgrpc : (GRPCServer.getRange pb context h.rangeRequest).run s = _ :=
      run_performIfExists_of_none hcf [] _
    rw [hgrpc]
    rfl
  | some e =>
    have hcf : (getColumnFamily h.name).run s = .ok (some e.handle) s := by
      rw [run_getColumnFamily, he, Option.map_some]
    cases hes : s.records h.name with
    | none =>
      have hd := run_deref_of_no_records he hes
      have hgrpc : (GRPCServer.getRange pb context h.rangeRequest).run s = .error .crash s := by
        rw [GRPCServer.getRange, GRPCServer.performIfExists, run_tryCatch,
          run_bind_of_ok (show (getColumnFamily h.rangeRequest.folder).run s = _ from hcf)]
        simp only [iter, bind_assoc, run_bind_of_error hd]
        rfl
      rw [hgrpc]
    | some es =>
      have hstored := stored_of_records hs hes
      obtain ⟨-, -, -, hgrpc⟩ := run_getRange pb context
        (show s.records h.rangeRequest.folder = some es from hes)
      have hscan := scan_of_no_bytes pb h.request hb h.name
        (GRPCServer.rangeCallback pb context) frameSize es
      have hids := messageFrames_map_snd fun r hr ↦ id_of_mem_scan hstored h.request frameSize hr
      rw [hgrpc]
      change _ = EStateM.Result.ok (httpRange (.OK, (scan pb { h.request with folder := h.name }
        (GRPCServer.rangeCallback pb context) es).map Prod.snd)) s
      rw [hscan, httpRange, hids]
      rfl

/-! ### A range in two parts -/

/-- The records from one timestamp to another, all of them and the oldest first. -/
def wholeRange (name : String) (from' till : UInt64) : GetRangeHandler := { name, from', till }

/-- The range read in two parts, one after the other: up to a timestamp, and from the next one. -/
def splitRange (pb : Protobuf) (name : String) (from' middle till : UInt64) :
    ClientM (HTTPServerResponse × Bytes) := do
  let (response, first) ← (wholeRange name from' middle).handleRequest pb
  let (_, second) ← (wholeRange name (middle + 1) till).handleRequest pb
  return (response, first ++ second)

/-- A scan of a range is a scan up to a timestamp and one from the next timestamp on. -/
theorem scan_split (pb : Protobuf) {es : ColumnFamily} (h : Chronological es) (name : String)
    {from' middle till : UInt64} (hmiddle : middle ≠ 0) (hnext : middle < middle + 1)
    (hfrom : from' ≤ middle) (htill : till = 0 ∨ middle < till) (fn : Callback) :
    scan pb (wholeRange name from' middle).request fn es ++
      scan pb (wholeRange name (middle + 1) till).request fn es =
    scan pb (wholeRange name from' till).request fn es := by
  have hscan (a b : UInt64) : scan pb (wholeRange name a b).request fn es =
      (es.filter (InRange (wholeRange name a b).request)).map (entryRecord pb) := by
    rw [h.scan_forward pb fn rfl, RangeRequest.emitted_of_no_limits rfl rfl]
  have hlow (e : Slice × Bytes) : InRange (wholeRange name from' middle).request e ↔
      from' ≤ entryTs e ∧ entryTs e ≤ middle := by
    simp [InRange, wholeRange, GetRangeHandler.request, hmiddle]
  have hhigh (e : Slice × Bytes) : InRange (wholeRange name (middle + 1) till).request e ↔
      middle < entryTs e ∧ (till = 0 ∨ entryTs e ≤ till) := by
    simp only [InRange, wholeRange, GetRangeHandler.request]
    grind
  rw [hscan, hscan, hscan, ← List.map_append, filter_append_filter]
  · congr 2
    funext e
    rw [Bool.eq_iff_iff, Bool.or_eq_true, decide_eq_true_iff, decide_eq_true_iff,
      decide_eq_true_iff, hlow, hhigh]
    simp only [InRange, wholeRange, GetRangeHandler.request]
    grind
  · refine h.sorted.imp fun {a b} hab ↦ ?_
    rintro ⟨ha, hb⟩
    rw [decide_eq_true_iff] at ha hb
    have hgt := ((hhigh a).mp ha).1
    have hle := ((hlow b).mp hb).2
    simp only [IDComparator.LexLt, entryTs] at hab hgt hle
    grind
  · rintro e he ⟨hl, hh⟩
    rw [decide_eq_true_iff] at hl hh
    have h₁ := ((hlow e).mp hl).2
    have h₂ := ((hhigh e).mp hh).1
    grind

/-- On a client whose folders are stored as the server writes them, a range is the same read whole
and read in two parts, also where the read fails. -/
theorem run_splitRange_of_sound {pb : Protobuf} {s : DbClient} (hs : Sound pb s) (name : String)
    {from' middle till : UInt64} (hmiddle : middle ≠ 0) (hnext : middle < middle + 1)
    (hfrom : from' ≤ middle) (htill : till = 0 ∨ middle < till) :
    (splitRange pb name from' middle till).run s =
      ((wholeRange name from' till).handleRequest pb).run s := by
  have hname (a b : UInt64) : (wholeRange name a b).name = name := rfl
  rw [splitRange, run_getRangeHandler]
  cases he : s.columnFamalies.lookup name with
  | none =>
    have hnone (a b : UInt64) : ((wholeRange name a b).handleRequest pb).run s =
        .ok (({} : HTTPServerResponse).send.setStatus 404, []) s := by
      rw [run_getRangeHandler, hname, he]
    rw [run_bind_of_ok (hnone _ _), run_bind_of_ok (hnone _ _), hname, he]
    rfl
  | some e =>
    cases hes : s.records name with
    | none =>
      have hcrash (a b : UInt64) :
          ((wholeRange name a b).handleRequest pb).run s = .error .crash s := by
        rw [run_getRangeHandler, hname, he, hes]
      rw [run_bind_of_error (hcrash _ _), hname, he, hes]
    | some es =>
      have hread (a b : UInt64) : ((wholeRange name a b).handleRequest pb).run s =
          .ok (({} : HTTPServerResponse).send.setStatus 200,
            frames (scan pb (wholeRange name a b).request frameSize es)) s := by
        rw [run_getRangeHandler, hname, he, hes]
      have hsplit := scan_split pb (chronological_of_kept (stored_of_records hs hes).kept) name
        hmiddle hnext hfrom htill frameSize
      rw [run_bind_of_ok (hread _ _), run_bind_of_ok (hread _ _), hname, he, hes]
      simp only [← hsplit, frames, List.flatMap_append]
      rfl

/-! ### Any run -/

/-- An event of the service leaves the records well formed. -/
theorem storeInvariant_serve (lib : Libraries) {p : Process} (h : StoreInvariant lib.pb p.rocks)
    (e : ServiceEvent) : StoreInvariant lib.pb (p.serve lib e).1.rocks := by
  cases hev : e.event with
  | some e' =>
    rw [(serve_eq_step lib p hev).1]
    exact storeInvariant_step h e'
  | none =>
    cases e with
    | start impl env cfg => cases hev
    | call c =>
      change StoreInvariant lib.pb (p.ask lib c).1.rocks
      rcases ask_of_not_writes lib p (Call.not_writes_of_event hev) with hsame | hdown
      · rwa [hsame]
      · rw [hdown]
        exact h

/-- So does a run of the service. -/
theorem storeInvariant_afterAll (lib : Libraries) {p : Process}
    (h : StoreInvariant lib.pb p.rocks) (events : List ServiceEvent) :
    StoreInvariant lib.pb (p.afterAll lib events).rocks := by
  induction events generalizing p with
  | nil => exact h
  | cons e rest ih => exact ih (storeInvariant_serve lib h e)

/-- A client that was reached from an empty disk has its folders stored as the server writes
them. -/
theorem sound_of_afterAll (lib : Libraries) {events : List ServiceEvent} {client : DbClient}
    (hclient : (Process.down RocksDB.empty).afterAll lib events = .running client) :
    Sound lib.pb client := by
  have hempty : StoreInvariant lib.pb (Process.down RocksDB.empty).rocks := storeInvariant_empty
  have hsound := storeInvariant_afterAll lib hempty events
  rwa [hclient] at hsound

/-- In every state of a server that was started on an empty disk, whatever RocksDB answered, a range
read without a limit on the bytes does the same over HTTP as over gRPC, on every folder and in both
directions: the stream is made of the frames of the messages, and the two fail together. The status
line is 200 whatever the answer over gRPC. -/
theorem range_streams_agree (lib : Libraries) {events : List ServiceEvent} {client : DbClient}
    (hclient : (Process.down RocksDB.empty).afterAll lib events = .running client)
    (context : GRPCServer.ServerContext) {h : GetRangeHandler} (hb : h.maxBytes = 0) :
    received Prod.fst ((h.handleRequest lib.pb).run client) = some 200 ∧
    (h.handleRequest lib.pb).run client =
      match (GRPCServer.getRange lib.pb context h.rangeRequest).run client with
      | .ok r t => .ok (httpRange r) t
      | .error failure t => .error failure t := by
  refine ⟨received_getRange lib.pb client h, ?_⟩
  have hsame := run_getRangeHandler_of_sound (sound_of_afterAll lib hclient) context hb
  rw [run_map] at hsame
  rw [hsame]
  cases (GRPCServer.getRange lib.pb context h.rangeRequest).run client with
  | ok r t => rfl
  | error failure t => rfl

/-- Two saves read backwards. -/
theorem range_streams_agree_saved :
    let lib := Libraries.wire
    let env : Env := { now := 1, now_ne_zero := by decide }
    let events : List ServiceEvent :=
      [.start .localDBClient env {}, .call (.save env { folder := "f", data := [7] }),
        .call (.save env { folder := "f", data := [8], timestamp := 5 })]
    let h : GetRangeHandler := { name := "f", reverse := true }
    ∃ client, (Process.down RocksDB.empty).afterAll lib events = .running client ∧
      received Prod.fst ((h.handleRequest lib.pb).run client) = some 200 ∧
      (h.handleRequest lib.pb).run client =
        match (GRPCServer.getRange lib.pb ⟨fun _ ↦ false⟩ h.rangeRequest).run client with
        | .ok r t => .ok (httpRange r) t
        | .error failure t => .error failure t := by
  intro lib env events h
  obtain ⟨client, hclient⟩ := Process.exists_running
    (show ((Process.down RocksDB.empty).afterAll lib events).isRunning = true by decide +kernel)
  exact ⟨client, hclient, range_streams_agree lib hclient ⟨fun _ ↦ false⟩ rfl⟩

/-- In every such state a client may read a range in two parts, at any timestamp in it that has a
next one: the two bodies make up the body of the whole range, on every folder, and if one read
fails so do the others. -/
theorem range_in_parts (lib : Libraries) {events : List ServiceEvent} {client : DbClient}
    (hclient : (Process.down RocksDB.empty).afterAll lib events = .running client)
    (name : String) {from' middle till : UInt64} (hmiddle : middle ≠ 0)
    (hnext : middle < middle + 1) (hfrom : from' ≤ middle) (htill : till = 0 ∨ middle < till) :
    (splitRange lib.pb name from' middle till).run client =
      ((wholeRange name from' till).handleRequest lib.pb).run client :=
  run_splitRange_of_sound (sound_of_afterAll lib hclient) name hmiddle hnext hfrom htill

/-- Two saves, read one by one. -/
theorem range_in_parts_saved :
    let lib := Libraries.wire
    let env : Env := { now := 1, now_ne_zero := by decide }
    let events : List ServiceEvent :=
      [.start .localDBClient env {}, .call (.save env { folder := "f", data := [7] }),
        .call (.save env { folder := "f", data := [8], timestamp := 5 })]
    ∃ client, (Process.down RocksDB.empty).afterAll lib events = .running client ∧
      (splitRange lib.pb "f" 1 3 0).run client =
        ((wholeRange "f" 1 0).handleRequest lib.pb).run client := by
  intro lib env events
  obtain ⟨client, hclient⟩ := Process.exists_running
    (show ((Process.down RocksDB.empty).afterAll lib events).isRunning = true by decide +kernel)
  exact ⟨client, hclient, range_in_parts lib hclient "f" (by decide) (by decide) (by decide)
    (by decide)⟩

end TimeMachine.Server
