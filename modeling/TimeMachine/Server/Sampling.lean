import TimeMachine.Server.Subsample
import TimeMachine.Server.Requests
import TimeMachine.Store.Wire

/-!
# How many messages a subsample has, and which

The batch loop always ends and draws whole batches, so a subsample has the requested
number of messages rounded up to the step. Each message is what the lookup of its drawn
number left: the record found, or the default message. If the keys of a batch need a
buffer whose size is no `int`, nothing is written and the server is down.
-/

namespace TimeMachine.Server
open TimeMachine.Base TimeMachine.Base.StateError TimeMachine.Store TimeMachine.Client DbClient

/-- The batch size a request stands for. -/
def batchOf (batchSize : UInt32) : Nat := if batchSize = 0 then 100 else batchSize.toNat

/-- A batch is not empty. -/
theorem batchOf_pos (batchSize : UInt32) : 0 < batchOf batchSize := by
  rw [batchOf]
  split
  · omega
  · next hne => exact Nat.pos_of_ne_zero fun h0 ↦ hne (UInt32.toNat_inj.mp h0)

/-- The number of lookups, and of messages, of a subsample. -/
def drawnCount (amount batchSize : UInt32) : Nat :=
  let step := min (batchOf batchSize) amount.toNat
  if amount.toNat < 2 ^ 31 then (amount.toNat + step - 1) / step * step else 0

/-- The buffers of the batches have a size that is an `int`: there is no batch, or one has fewer
than 2^27 keys. -/
def Buffered (amount batchSize : UInt32) : Prop :=
  amount.toNat = 0 ∨ 2 ^ 31 ≤ amount.toNat ∨ min (batchOf batchSize) amount.toNat < 2 ^ 27

instance (amount batchSize : UInt32) : Decidable (Buffered amount batchSize) :=
  inferInstanceAs (Decidable (_ ∨ _ ∨ _))

/-- The message a looked-up number leaves. -/
def sampled (pb : Protobuf) (es : ColumnFamily) (unique : UInt64) : Data :=
  pb.parseFromString (lookupKey es (serializeID { timestamp := 0, unique })).2

/-- An unsigned number below 2^31 is the same number as an `int`. -/
theorem toInt_toInt32 {n : UInt32} (h : n.toNat < 2 ^ 31) : n.toInt32.toInt = n.toNat :=
  BitVec.toInt_eq_toNat_of_lt (x := n.toBitVec) (by
    change 2 * n.toNat < 2 ^ 32
    omega)

/-- An unsigned number from 2^31 on is a negative `int`. -/
theorem toInt32_neg {n : UInt32} (h : 2 ^ 31 ≤ n.toNat) : n.toInt32.toInt < 0 := by
  have hint : n.toInt32.toInt =
      if 2 * n.toNat < 2 ^ 32 then (n.toNat : Int) else n.toNat - 2 ^ 32 :=
    BitVec.toInt_eq_toNat_cond n.toBitVec
  have := n.toNat_lt
  rw [hint, if_neg (by omega)]
  omega

/-- For amounts that are an `int`, the step is the batch size, but not more than the amount. -/
theorem stepOf_eq {amount : UInt32} (h : amount.toNat < 2 ^ 31) (batchSize : UInt32) :
    stepOf amount batchSize = min (batchOf batchSize) amount.toNat := by
  have hword : (if batchSize.toInt32 = 0 then (100 : Int32) else batchSize.toInt32) =
      (UInt32.ofNat (batchOf batchSize)).toInt32 := by
    rw [batchOf]
    by_cases hz : batchSize = 0
    · rw [hz]
      rfl
    · have hz' : batchSize.toInt32 ≠ 0 := fun h0 ↦ hz (by
        have := congrArg Int32.toUInt32 h0
        rwa [UInt32.toUInt32_toInt32] at this)
      rw [if_neg hz', if_neg hz, UInt32.ofNat_toNat]
  have hlt : batchOf batchSize < 2 ^ 32 := by
    have := batchSize.toNat_lt
    rw [batchOf]
    split <;> omega
  have hnat : (UInt32.ofNat (batchOf batchSize)).toNat = batchOf batchSize := by
    rw [UInt32.toNat_ofNat', Nat.mod_eq_of_lt hlt]
  rw [stepOf]
  simp only [hword, UInt32.toUInt32_toInt32, gt_iff_lt, UInt32.lt_iff_toNat_lt, hnat]
  split
  · next hgt => rw [toInt_toInt32 h, Nat.min_eq_right (by omega)]
  · next hle => rw [toInt_toInt32 (by omega), hnat, Nat.min_eq_left (by omega)]

/-- The batches look up their numbers one after the other. -/
theorem run_batches {s : DbClient} {cf : ColumnFamilyHandle} {es : ColumnFamily}
    (hd : (deref (some cf)).run s = .ok (cf, es) s) (pb : Protobuf) (draw : Rand → UInt64)
    (rand : Nat → Rand) {step : Nat} {l : List Int} (hfit : l = [] ∨ IsInt (16 * step))
    (drawn : Nat) :
    (batches pb cf draw rand step l drawn).run s =
      .ok ((List.range (l.length * step)).map fun k ↦
        sampled pb es (draw (rand (drawn + k)))) s := by
  induction l generalizing drawn with
  | nil =>
    rw [batches, EStateM.run_pure, List.length_nil, Nat.zero_mul]
    rfl
  | cons i rest ih =>
    have hbatch (keys : List Slice) :
        (getBatch (some cf) keys).run s = .ok (keys.map (lookupKey es)) s := by
      rw [getBatch, run_bind_of_ok hd]
      rfl
    have hint : IsInt (16 * step) := hfit.resolve_left (List.cons_ne_nil i rest)
    rw [batches, if_pos hint, run_bind_of_ok (hbatch _),
      run_bind_of_ok (ih (Or.inr hint) (drawn + step)), EStateM.run_pure, List.length_cons,
      Nat.succ_mul, Nat.add_comm (rest.length * step) step, List.range_add, List.map_append,
      drawKeys, List.map_map, List.map_map, List.map_map]
    simp only [Function.comp_def, Nat.add_assoc, sampled]

/-- The first batch already is undefined behaviour if its buffer has a size that is no `int`. -/
theorem run_batches_of_not_isInt (s : DbClient) (pb : Protobuf) (cf : ColumnFamilyHandle)
    (draw : Rand → UInt64) (rand : Nat → Rand) {step : Nat} {l : List Int}
    (h : ¬ (l = [] ∨ IsInt (16 * step))) (drawn : Nat) :
    (batches pb cf draw rand step l drawn).run s = .error .crash s := by
  obtain ⟨hne, hint⟩ := not_or.mp h
  cases l with
  | nil => exact absurd rfl hne
  | cons i rest =>
    rw [batches, if_neg hint]
    rfl

/-- The batch loop ends, after as many batches as make up the lookups, and tells whether they have
buffers. -/
theorem exists_countdown (amount batchSize : UInt32) :
    ∃ l, countdown (stepOf amount batchSize) amount.toInt32.toInt = some l ∧
      l.length * (stepOf amount batchSize).toNat = drawnCount amount batchSize ∧
      ((l = [] ∨ IsInt (16 * (stepOf amount batchSize).toNat)) ↔ Buffered amount batchSize) := by
  by_cases hsmall : amount.toNat < 2 ^ 31
  · rw [stepOf_eq hsmall, toInt_toInt32 hsmall, drawnCount, if_pos hsmall, Int.toNat_natCast]
    rcases Nat.eq_zero_or_pos amount.toNat with hz | hpos
    · refine ⟨[], countdown_of_nonpos (by omega), ?_, iff_of_true (Or.inl rfl) (Or.inl hz)⟩
      rw [hz, Nat.min_zero, Nat.mul_zero, Nat.mul_zero]
    · have hstep : 0 < min (batchOf batchSize) amount.toNat :=
        Nat.lt_min.mpr ⟨batchOf_pos batchSize, hpos⟩
      obtain ⟨l, hl, hlen⟩ := countdown_of_pos _ amount.toNat hstep
      refine ⟨l, hl, by rw [hlen], ?_⟩
      have hne : l ≠ [] := by
        rintro rfl
        have hruns : 0 < (amount.toNat + min (batchOf batchSize) amount.toNat - 1) /
            min (batchOf batchSize) amount.toNat := Nat.div_pos (by omega) hstep
        rw [← hlen, List.length_nil] at hruns
        omega
      simp only [hne, false_or, IsInt, Buffered]
      omega
  · have hneg := toInt32_neg (Nat.le_of_not_lt hsmall)
    refine ⟨[], countdown_of_nonpos (by omega), ?_,
      iff_of_true (Or.inl rfl) (Or.inr (Or.inl (Nat.le_of_not_lt hsmall)))⟩
    rw [drawnCount, if_neg hsmall, List.length_nil, Nat.zero_mul]

/-- The batch loop returns the messages of all its lookups. -/
theorem run_batchLoop {s : DbClient} {cf : ColumnFamilyHandle} {es : ColumnFamily}
    (hd : (deref (some cf)).run s = .ok (cf, es) s) (pb : Protobuf) (draw : Rand → UInt64)
    (rand : Nat → Rand) {amount batchSize : UInt32} (hb : Buffered amount batchSize) :
    (batchLoop pb cf draw rand amount batchSize).run s =
      .ok ((List.range (drawnCount amount batchSize)).map fun k ↦
        sampled pb es (draw (rand k))) s := by
  obtain ⟨l, hl, hcount, hfit⟩ := exists_countdown amount batchSize
  rw [batchLoop, hl]
  simp only [run_batches hd pb draw rand (hfit.mpr hb), hcount, Nat.zero_add]

/-- A batch loop whose batches have no buffer is undefined behaviour. -/
theorem run_batchLoop_of_not_buffered (s : DbClient) (pb : Protobuf) (cf : ColumnFamilyHandle)
    (draw : Rand → UInt64) (rand : Nat → Rand) {amount batchSize : UInt32}
    (hb : ¬ Buffered amount batchSize) :
    (batchLoop pb cf draw rand amount batchSize).run s = .error .crash s := by
  obtain ⟨l, hl, -, hfit⟩ := exists_countdown amount batchSize
  rw [batchLoop, hl]
  exact run_batches_of_not_isInt s pb cf draw rand (fun h ↦ hb (hfit.mp h)) 0

/-! ### The two front ends -/

/-- An action on an existing folder that succeeds is the answer. -/
theorem run_performIfExists {ρ : Type} {s t : DbClient} {name : String} {cf : ColumnFamilyHandle}
    (hcf : (getColumnFamily name).run s = .ok (some cf) s) (response : ρ)
    {fn : ColumnFamilyHandle → ClientM (GrpcStatus × ρ)} {answer : GrpcStatus × ρ}
    (hfn : (fn cf).run s = .ok answer t) :
    (GRPCServer.performIfExists response name fn).run s = .ok answer t := by
  rw [GRPCServer.performIfExists, run_tryCatch, run_bind_of_ok hcf]
  simp only [hfn]

/-- A crash of an action on an existing folder is not caught. -/
theorem run_performIfExists_of_crash {ρ : Type} {s t : DbClient} {name : String}
    {cf : ColumnFamilyHandle} (hcf : (getColumnFamily name).run s = .ok (some cf) s) (response : ρ)
    {fn : ColumnFamilyHandle → ClientM (GrpcStatus × ρ)} (hfn : (fn cf).run s = .error .crash t) :
    (GRPCServer.performIfExists response name fn).run s = .error .crash t := by
  rw [GRPCServer.performIfExists, run_tryCatch, run_bind_of_ok hcf]
  simp only [hfn]
  rfl

/-- A missing folder is answered with `NOT_FOUND`. -/
theorem run_performIfExists_of_none {ρ : Type} {s : DbClient} {name : String}
    (hcf : (getColumnFamily name).run s = .ok none s) (response : ρ)
    (fn : ColumnFamilyHandle → ClientM (GrpcStatus × ρ)) :
    (GRPCServer.performIfExists response name fn).run s =
      .ok ({ code := .NOT_FOUND
             message := "Column family with name " ++ name ++ " doesn't exists" }, response) s := by
  rw [GRPCServer.performIfExists, run_tryCatch, run_bind_of_ok hcf]
  rfl

/-- The range a gRPC subsample draws from. -/
def SubsampleRequest.range (request : SubsampleRequest) (es : ColumnFamily) : UniqueRange :=
  match request.periodRequest with
  | some (from', till) => uniqueRangeForTS from' till es
  | none => uniqueRange es

/-- The unique numbers a gRPC subsample looks up. -/
def SubsampleRequest.drawn (rnd : ℚ → ℚ) (rand : Nat → Rand) (request : SubsampleRequest)
    (es : ColumnFamily) : List UInt64 :=
  (List.range (drawnCount request.amount request.batchSize)).map fun k ↦
    GRPCServer.draw rnd (request.range es) (rand k)

/-- The messages of a gRPC subsample. -/
def SubsampleRequest.messages (pb : Protobuf) (rnd : ℚ → ℚ) (rand : Nat → Rand)
    (request : SubsampleRequest) (es : ColumnFamily) : List Data :=
  (request.drawn rnd rand es).map (sampled pb es)

/-- The range an HTTP subsample draws from. -/
def SubsamplingHandler.range (h : SubsamplingHandler) (es : ColumnFamily) : UniqueRange :=
  if h.from' = 0 ∧ h.till = 0 then uniqueRange es else uniqueRangeForTS h.from' h.till es

/-- The messages of an HTTP subsample. -/
def SubsamplingHandler.messages (pb : Protobuf) (rnd : ℚ → ℚ) (rand : Nat → Rand)
    (h : SubsamplingHandler) (es : ColumnFamily) : List Data :=
  (List.range (drawnCount h.amount h.batchSize)).map fun k ↦
    sampled pb es (SubsamplingHandler.draw rnd (h.range es) (rand k))

section
variable {s : DbClient} {cf : ColumnFamilyHandle} {es : ColumnFamily} (pb : Protobuf)
  (rnd : ℚ → ℚ) (rand : Nat → Rand)

/-- There is one message for each lookup over gRPC. -/
theorem SubsampleRequest.length_messages (request : SubsampleRequest) (es : ColumnFamily) :
    (request.messages pb rnd rand es).length = drawnCount request.amount request.batchSize := by
  rw [messages, List.length_map, drawn, List.length_map, List.length_range]

/-- There is one message for each lookup over HTTP. -/
theorem SubsamplingHandler.length_messages (h : SubsamplingHandler) (es : ColumnFamily) :
    (h.messages pb rnd rand es).length = drawnCount h.amount h.batchSize := by
  rw [messages, List.length_map, List.length_range]

/-- The range of a period in a folder whose handle reaches its records. -/
theorem run_getUniqueRangeForTS (hd : (deref (some cf)).run s = .ok (cf, es) s)
    (fromTs tillTs : UInt64) : (getUniqueRangeForTS (some cf) fromTs tillTs).run s =
      .ok (uniqueRangeForTS fromTs tillTs es) s := by
  rw [getUniqueRangeForTS, run_bind_of_ok hd]
  rfl

/-- The range a gRPC subsample reads from the folder. -/
theorem run_sampledRange (hd : (deref (some cf)).run s = .ok (cf, es) s)
    (request : SubsampleRequest) :
    (GRPCServer.sampledRange request cf).run s = .ok (request.range es) s := by
  rw [GRPCServer.sampledRange, SubsampleRequest.range]
  cases request.periodRequest with
  | none => exact run_getUniqueRange hd
  | some period => exact run_getUniqueRangeForTS hd period.1 period.2

/-- Sampling a folder over gRPC. -/
theorem run_sample (hd : (deref (some cf)).run s = .ok (cf, es) s) {request : SubsampleRequest}
    (hb : Buffered request.amount request.batchSize) :
    (GRPCServer.sample pb rnd rand request cf).run s =
      .ok (request.messages pb rnd rand es) s := by
  rw [GRPCServer.sample, run_bind_of_ok (run_sampledRange hd request), run_batchLoop hd _ _ _ hb,
    SubsampleRequest.messages, SubsampleRequest.drawn, List.map_map]
  rfl

/-- Sampling a folder over gRPC without buffers for the batches. -/
theorem run_sample_of_not_buffered (hd : (deref (some cf)).run s = .ok (cf, es) s)
    {request : SubsampleRequest} (hb : ¬ Buffered request.amount request.batchSize) :
    (GRPCServer.sample pb rnd rand request cf).run s = .error .crash s := by
  rw [GRPCServer.sample, run_bind_of_ok (run_sampledRange hd request),
    run_batchLoop_of_not_buffered s pb cf _ rand hb]

/-- The range an HTTP subsample reads from the folder. -/
theorem run_sampledRangeHTTP (hd : (deref (some cf)).run s = .ok (cf, es) s)
    (h : SubsamplingHandler) :
    (SubsamplingHandler.sampledRange h cf).run s = .ok (h.range es) s := by
  rw [SubsamplingHandler.sampledRange, SubsamplingHandler.range]
  split
  · exact run_getUniqueRange hd
  · exact run_getUniqueRangeForTS hd h.from' h.till

/-- Sampling a folder over HTTP. -/
theorem run_sampleHTTP (hd : (deref (some cf)).run s = .ok (cf, es) s) {h : SubsamplingHandler}
    (hb : Buffered h.amount h.batchSize) :
    (SubsamplingHandler.sample pb rnd rand h cf).run s = .ok (h.messages pb rnd rand es) s := by
  rw [SubsamplingHandler.sample, run_bind_of_ok (run_sampledRangeHTTP hd h),
    run_batchLoop hd _ _ _ hb]
  rfl

/-- Sampling a folder over HTTP without buffers for the batches. -/
theorem run_sampleHTTP_of_not_buffered (hd : (deref (some cf)).run s = .ok (cf, es) s)
    {h : SubsamplingHandler} (hb : ¬ Buffered h.amount h.batchSize) :
    (SubsamplingHandler.sample pb rnd rand h cf).run s = .error .crash s := by
  rw [SubsamplingHandler.sample, run_bind_of_ok (run_sampledRangeHTTP hd h),
    run_batchLoop_of_not_buffered s pb cf _ rand hb]

/-- A gRPC subsample of a folder in use. -/
theorem run_getSubsample {request : SubsampleRequest} (h : s.records request.folder = some es)
    (hb : Buffered request.amount request.batchSize) :
    (GRPCServer.getSubsample pb rnd rand request).run s =
      .ok (.OK, request.messages pb rnd rand es) s := by
  obtain ⟨cf, hcf, hd⟩ := run_of_records h
  apply run_performIfExists hcf
  rw [run_bind_of_ok (run_sample pb rnd rand hd hb)]
  rfl

/-- A gRPC subsample of a folder in use takes the server down if its batches have no buffers. -/
theorem run_getSubsample_of_not_buffered {request : SubsampleRequest}
    (h : s.records request.folder = some es)
    (hb : ¬ Buffered request.amount request.batchSize) :
    (GRPCServer.getSubsample pb rnd rand request).run s = .error .crash s := by
  obtain ⟨cf, hcf, hd⟩ := run_of_records h
  apply run_performIfExists_of_crash hcf
  rw [run_bind_of_error (run_sample_of_not_buffered pb rnd rand hd hb)]

/-- An HTTP subsample of a folder in use. -/
theorem run_subsamplingHandler {h : SubsamplingHandler} (hes : s.records h.name = some es)
    (hb : Buffered h.amount h.batchSize) :
    (SubsamplingHandler.handleRequest pb rnd rand h).run s =
      .ok ((({} : HTTPServerResponse).send).setStatus 200,
        frames ((h.messages pb rnd rand es).map fun data ↦ (data.id.getD {}, data))) s := by
  obtain ⟨cf, hcf, hd⟩ := run_of_records hes
  rw [SubsamplingHandler.handleRequest, run_bind_of_ok hcf]
  simp only [run_bind_of_ok (run_sampleHTTP pb rnd rand hd hb)]
  rfl

/-- The batches make up the amount: one of them covers it, or some number of them does. -/
def Fits (amount batchSize : UInt32) : Prop :=
  amount.toNat ≤ batchOf batchSize ∨ batchOf batchSize ∣ amount.toNat

/-- The batches draw the amount exactly if they make it up. -/
theorem drawnCount_eq_iff {amount batchSize : UInt32} (h : amount.toNat < 2 ^ 31) :
    drawnCount amount batchSize = amount.toNat ↔ Fits amount batchSize := by
  rw [drawnCount, if_pos h, Fits]
  rcases Nat.eq_zero_or_pos amount.toNat with hz | hpos
  · simp [hz]
  · rw [ceil_mul_eq_iff (Nat.lt_min.mpr ⟨batchOf_pos batchSize, hpos⟩)]
    by_cases hle : amount.toNat ≤ batchOf batchSize
    · simp [hle]
    · rw [Nat.min_eq_left (by omega)]
      simp [hle]

/-- A gRPC subsample succeeds and writes as many messages as it was asked for. -/
def GRPCServer.WritesAmount (s : DbClient) (request : SubsampleRequest) : Prop :=
  ∃ written, (GRPCServer.getSubsample pb rnd rand request).run s = .ok (.OK, written) s ∧
    written.length = request.amount.toNat

/-- An HTTP subsample writes the frames of as many messages as it was asked for. -/
def SubsamplingHandler.WritesAmount (s : DbClient) (h : SubsamplingHandler) : Prop :=
  ∃ cf response messages, (getColumnFamily h.name).run s = .ok (some cf) s ∧
    (SubsamplingHandler.sample pb rnd rand h cf).run s = .ok messages s ∧
    (SubsamplingHandler.handleRequest pb rnd rand h).run s =
      .ok (response, frames (messages.map fun data ↦ (data.id.getD {}, data))) s ∧
    messages.length = h.amount.toNat

/-- A subsample of a folder in use has the requested number of messages, one for each status of
the lookups, exactly if the batch size divides it or is at least as large, and the batches have
buffers. -/
theorem subsample_size_iff {request : SubsampleRequest} {h : SubsamplingHandler}
    {es' : ColumnFamily} (hrequest : s.records request.folder = some es)
    (hhandler : s.records h.name = some es') (hamount : request.amount.toNat < 2 ^ 31)
    (hamount' : h.amount.toNat < 2 ^ 31) :
    (GRPCServer.WritesAmount pb rnd rand s request ↔
      Fits request.amount request.batchSize ∧ Buffered request.amount request.batchSize) ∧
    (SubsamplingHandler.WritesAmount pb rnd rand s h ↔
      Fits h.amount h.batchSize ∧ Buffered h.amount h.batchSize) := by
  constructor
  · rw [← drawnCount_eq_iff hamount, GRPCServer.WritesAmount]
    by_cases hb : Buffered request.amount request.batchSize
    · rw [run_getSubsample pb rnd rand hrequest hb]
      constructor
      · rintro ⟨written, hrun, hlen⟩
        cases hrun
        rw [SubsampleRequest.length_messages] at hlen
        exact ⟨hlen, hb⟩
      · rintro ⟨hcount, -⟩
        refine ⟨_, rfl, ?_⟩
        rw [SubsampleRequest.length_messages, hcount]
    · rw [run_getSubsample_of_not_buffered pb rnd rand hrequest hb]
      refine iff_of_false ?_ (fun hboth ↦ hb hboth.2)
      rintro ⟨written, hrun, -⟩
      cases hrun
  · rw [← drawnCount_eq_iff hamount', SubsamplingHandler.WritesAmount]
    obtain ⟨cf, hcf, hd⟩ := run_of_records hhandler
    constructor
    · rintro ⟨cf', response, messages, hcf', hrun, -, hlen⟩
      rw [hcf] at hcf'
      cases hcf'
      by_cases hb : Buffered h.amount h.batchSize
      · rw [run_sampleHTTP pb rnd rand hd hb] at hrun
        cases hrun
        rw [SubsamplingHandler.length_messages] at hlen
        exact ⟨hlen, hb⟩
      · rw [run_sampleHTTP_of_not_buffered pb rnd rand hd hb] at hrun
        cases hrun
    · rintro ⟨hcount, hb⟩
      refine ⟨cf, _, _, hcf, run_sampleHTTP pb rnd rand hd hb,
        run_subsamplingHandler pb rnd rand hhandler hb, ?_⟩
      rw [SubsamplingHandler.length_messages, hcount]

end

/-- Four messages in batches of two, from the empty default folder. -/
theorem subsample_size_four :
    ∃ client, start .localDBClient { now := 1, now_ne_zero := by decide } {} RocksDB.empty =
        .ok () client ∧
      GRPCServer.WritesAmount Wire.wire id (fun _ ↦ 0) client
        { amount := 4, folder := defaultName, batchSize := 2 } ∧
      SubsamplingHandler.WritesAmount Wire.wire id (fun _ ↦ 0) client
        { name := defaultName, amount := 4, batchSize := 2 } := by
  obtain ⟨client, hstart⟩ := start_of_empty .localDBClient {}
    { now := 1, now_ne_zero := by decide } rfl rfl rfl rfl
  have hes := records_start_empty hstart
  let request : SubsampleRequest := { amount := 4, folder := defaultName, batchSize := 2 }
  let handler : SubsamplingHandler := { name := defaultName, amount := 4, batchSize := 2 }
  have hrequest : client.records request.folder = some [] := hes
  have hhandler : client.records handler.name = some [] := hes
  obtain ⟨hgrpc, hhttp⟩ := subsample_size_iff Wire.wire id (fun _ ↦ 0) hrequest hhandler
    (by decide) (by decide)
  exact ⟨client, hstart, hgrpc.mpr ⟨Or.inr ⟨2, rfl⟩, by decide⟩,
    hhttp.mpr ⟨Or.inr ⟨2, rfl⟩, by decide⟩⟩

/-- Three messages in batches of two are four, over gRPC and over HTTP, and one batch of 2^27 is
never written. -/
theorem subsample_oversized :
    ∃ client, start .localDBClient { now := 1, now_ne_zero := by decide } {} RocksDB.empty =
        .ok () client ∧ client.records defaultName = some [] ∧
      ∀ p ∈ [(3, 2), (UInt32.ofNat (2 ^ 27), UInt32.ofNat (2 ^ 27))],
        ¬ GRPCServer.WritesAmount Wire.wire id (fun _ ↦ 0) client
          { amount := p.1, folder := defaultName, batchSize := p.2 } ∧
        ¬ SubsamplingHandler.WritesAmount Wire.wire id (fun _ ↦ 0) client
          { name := defaultName, amount := p.1, batchSize := p.2 } := by
  obtain ⟨client, hstart⟩ := start_of_empty .localDBClient {}
    { now := 1, now_ne_zero := by decide } rfl rfl rfl rfl
  have hes := records_start_empty hstart
  obtain ⟨cf, hcf, hd⟩ := run_of_records hes
  refine ⟨client, hstart, hes, List.forall_mem_cons.mpr ⟨?_, List.forall_mem_singleton.mpr ?_⟩⟩
  · refine ⟨?_, ?_⟩
    · rintro ⟨written, hrun, hlen⟩
      rw [run_getSubsample _ _ _ hes (by decide)] at hrun
      cases hrun
      revert hlen
      decide
    · rintro ⟨cf', response, messages, hcf', hrun, -, hlen⟩
      rw [hcf] at hcf'
      cases hcf'
      rw [run_sampleHTTP _ _ _ hd (by decide)] at hrun
      cases hrun
      revert hlen
      decide
  · refine ⟨?_, ?_⟩
    · rintro ⟨written, hrun, -⟩
      rw [run_getSubsample_of_not_buffered _ _ _ hes (by decide)] at hrun
      cases hrun
    · rintro ⟨cf', response, messages, hcf', hrun, -⟩
      rw [hcf] at hcf'
      cases hcf'
      rw [run_sampleHTTP_of_not_buffered _ _ _ hd (by decide)] at hrun
      cases hrun

end TimeMachine.Server
