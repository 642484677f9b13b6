import TimeMachine.Server.SampledRecords
import TimeMachine.Client.Ranges

/-!
# Cancelled range reads

The callback of a range read asks whether the call is cancelled and then sets a flag,
which it was given by value. The flag the scan looks at is never set, so a cancelled read
goes on to the end of its range: it stops after a record at which it is cancelled exactly
if that is the last one anyway.
-/

namespace TimeMachine.Server
open TimeMachine.Base TimeMachine.Base.StateError TimeMachine.Store TimeMachine.Client DbClient

/-- The records of a scan in its order: from where it starts, as far as the bounds go. -/
def inScan (pb : Protobuf) (request : RangeRequest) (entries : ColumnFamily) :
    List (ID × Data) :=
  (request.selected (Cursor.ahead request.reverse (DbClient.seek request entries))).map
    (entryRecord pb)

/-- On a store in chronological order these are the records in the range, or backwards those
that are reached. -/
theorem inScan_of_chronological {entries : ColumnFamily} (h : Chronological entries)
    (pb : Protobuf) (request : RangeRequest) :
    inScan pb request entries =
      if request.reverse then
        (entries.filter (Reached request entries)).reverse.map (entryRecord pb)
      else rangeRecords pb request entries := by
  rw [inScan]
  cases hr : request.reverse with
  | false => rw [h.selected_forward hr, if_neg (by decide), rangeRecords]
  | true => rw [h.selected_reverse hr, if_pos rfl]

/-- After the record at a position of the scan comes another one that the limits allow. -/
def GoesOn (request : RangeRequest) (fn : Callback) (l : List (ID × Data)) (i : Nat) : Prop :=
  i + 1 < l.length ∧ ∀ j ≤ i + 1, request.allows j ((l.take j).map fn.size).sum = true

/-- A scan that passes a record on passes another one on exactly if it goes on. -/
theorem lt_length_scan_iff (pb : Protobuf) (request : RangeRequest) (fn : Callback)
    (entries : ColumnFamily) (i : Nat) :
    i + 1 < (scan pb request fn entries).length ↔
      GoesOn request fn (inScan pb request entries) i := by
  have hlimit := request.emitted_eq_limit_allows fn 0 0 (inScan pb request entries)
  have hlongest := Quota.limit_longest request.allows fn.size 0 0 (inScan pb request entries)
  simp only [Nat.zero_add] at hlongest
  rw [scan, iterLoop_eq, GoesOn, ← hlongest.lt_length_iff]
  exact iff_of_eq (congrArg (fun l ↦ i + 1 < l.length) hlimit)

/-- What a scan passes on is a prefix of its records. -/
theorem scan_prefix (pb : Protobuf) (request : RangeRequest) (fn : Callback)
    (entries : ColumnFamily) : scan pb request fn entries <+: inScan pb request entries := by
  rw [scan, iterLoop_eq]
  exact request.emitted_prefix fn 0 0 _

/-- A range read of a folder in use. -/
theorem run_getRange (pb : Protobuf) (context : GRPCServer.ServerContext) {s : DbClient}
    {request : RangeRequest} {es : ColumnFamily} (h : s.records request.folder = some es) :
    ∃ cf, (getColumnFamily request.folder).run s = .ok (some cf) s ∧
      (iter pb (some cf) request (GRPCServer.rangeCallback pb context)).run s =
        .ok (scan pb request (GRPCServer.rangeCallback pb context) es) s ∧
      (GRPCServer.getRange pb context request).run s =
        .ok (.OK, (scan pb request (GRPCServer.rangeCallback pb context) es).map Prod.snd) s := by
  obtain ⟨cf, hcf, hd⟩ := run_of_records h
  have hiter : (iter pb (some cf) request (GRPCServer.rangeCallback pb context)).run s =
      .ok (scan pb request (GRPCServer.rangeCallback pb context) es) s := by
    rw [iter, run_bind_of_ok hd]
    rfl
  refine ⟨cf, hcf, hiter, run_performIfExists hcf [] ?_⟩
  rw [run_bind_of_ok hiter]
  rfl

/-- A range read passes no record to its callback after one at which it is cancelled, and
writes a message for each record it passes on and no others. -/
def GRPCServer.StopsWhenCancelled (pb : Protobuf) (context : ServerContext) (s : DbClient)
    (request : RangeRequest) : Prop :=
  ∃ cf passed, (getColumnFamily request.folder).run s = .ok (some cf) s ∧
    (iter pb (some cf) request (rangeCallback pb context)).run s = .ok passed s ∧
    (getRange pb context request).run s = .ok (.OK, passed.map Prod.snd) s ∧
    ∀ pre r post, passed = pre ++ r :: post → context.isCancelled r.1 = true → post = []

/-- Whatever is stored and wherever the client cancels, the read of a folder in use stops at a
record at which it is cancelled exactly if it is cancelled at none after which it goes on. -/
theorem cancelled_read_stops_iff (pb : Protobuf) (context : GRPCServer.ServerContext)
    {s : DbClient} {request : RangeRequest} {es : ColumnFamily}
    (hes : s.records request.folder = some es) :
    GRPCServer.StopsWhenCancelled pb context s request ↔
      ∀ i r, (inScan pb request es)[i]? = some r → context.isCancelled r.1 = true →
        ¬ GoesOn request (GRPCServer.rangeCallback pb context) (inScan pb request es) i := by
  obtain ⟨cf, hcf, hiter, hread⟩ := run_getRange pb context hes
  obtain ⟨later, hsplit⟩ :=
    scan_prefix pb request (GRPCServer.rangeCallback pb context) es
  have hlength := lt_length_scan_iff pb request (GRPCServer.rangeCallback pb context) es
  constructor
  · rintro ⟨cf', passed, hcf', hpassed, -, hstops⟩ i r hr hcancelled hgoes
    cases hcf.symm.trans hcf'
    cases hiter.symm.trans hpassed
    have hi := (hlength i).mpr hgoes
    rw [← hsplit, List.getElem?_append_left (by omega)] at hr
    obtain ⟨hlt, rfl⟩ := List.getElem?_eq_some_iff.mp hr
    have hnil := hstops _ _ _ (by
      rw [← List.drop_eq_getElem_cons hlt, List.take_append_drop]) hcancelled
    rw [List.drop_eq_nil_iff] at hnil
    omega
  · intro hnone
    refine ⟨cf, _, hcf, hiter, hread, fun pre r post hpassed hcancelled ↦ ?_⟩
    by_contra hpost
    refine hnone pre.length r ?_ hcancelled ((hlength pre.length).mp ?_)
    · rw [← hsplit, hpassed]
      simp
    · rw [hpassed]
      have := List.length_pos_iff.mpr hpost
      simp only [List.length_append, List.length_cons]
      omega

/-- A read of two records that is cancelled at the second. -/
theorem cancelled_read_stops_two :
    ∃ client, (Process.down RocksDB.empty).after Wire.wire
        [.start .localDBClient { now := 1, now_ne_zero := by decide } {},
          .save { now := 2, now_ne_zero := by decide } { folder := "f", timestamp := 5 },
          .save { now := 3, now_ne_zero := by decide } { folder := "f", timestamp := 7 }] =
        .running client ∧
      GRPCServer.StopsWhenCancelled Wire.wire ⟨fun id ↦ id.timestamp = 7⟩ client
        { folder := "f" } := by
  obtain ⟨client, hclient, hes⟩ := exists_two_records
  refine ⟨client, hclient, (cancelled_read_stops_iff Wire.wire _ hes).mpr ?_⟩
  have hscan : inScan Wire.wire { folder := "f" }
      [(serializeID ⟨5, 0⟩, Wire.wire.serializeAsString { id := some ⟨5, 0⟩ }),
        (serializeID ⟨7, 1⟩, Wire.wire.serializeAsString { id := some ⟨7, 1⟩ })] =
      [(⟨5, 0⟩, { id := some ⟨5, 0⟩ }), (⟨7, 1⟩, { id := some ⟨7, 1⟩ })] := by
    decide +kernel
  rw [hscan]
  rintro i r hr hcancelled ⟨hlt, -⟩
  have hlt : i + 1 < 2 := hlt
  obtain rfl : i = 0 := by omega
  cases hr
  exact absurd hcancelled (by decide)

/-- A read of two records that is cancelled from the first on passes the second on as well. -/
theorem cancelled_read_goes_on :
    ¬ ∀ (pb : Protobuf) (context : GRPCServer.ServerContext) (s : DbClient)
      (request : RangeRequest) (es : ColumnFamily), s.records request.folder = some es →
      GRPCServer.StopsWhenCancelled pb context s request := by
  intro hall
  obtain ⟨client, -, hes⟩ := exists_two_records
  have hes : client.records ({ folder := "f" } : RangeRequest).folder = some _ := hes
  obtain ⟨cf, passed, hcf, hpassed, -, hstops⟩ :=
    hall Wire.wire ⟨fun _ ↦ true⟩ client { folder := "f" } _ hes
  obtain ⟨cf', hcf', hiter, -⟩ := run_getRange Wire.wire ⟨fun _ ↦ true⟩ hes
  cases hcf.symm.trans hcf'
  cases hiter.symm.trans hpassed
  have hscan : ∀ fn, scan Wire.wire { folder := "f" } fn
      [(serializeID ⟨5, 0⟩, Wire.wire.serializeAsString { id := some ⟨5, 0⟩ }),
        (serializeID ⟨7, 1⟩, Wire.wire.serializeAsString { id := some ⟨7, 1⟩ })] =
      [(⟨5, 0⟩, { id := some ⟨5, 0⟩ }), (⟨7, 1⟩, { id := some ⟨7, 1⟩ })] := by
    intro fn
    rw [scan, iterLoop_eq, RangeRequest.emitted_of_no_limits rfl rfl]
    decide +kernel
  exact absurd (hstops [] _ _ (hscan _) rfl) (by simp)

end TimeMachine.Server
