import TimeMachine.TsClient.ByteBuffer

/-!
# The browser client

The decoders of `tsclient/recstore-ts/src/index.ts`: `decodeTsRecord` cuts the body of
a range or subsampling response into records, and `asServingReqRes` cuts the payload
the gateway stored into a request and a response or error. Reading an array past its
end gives `undefined`, which the shifts take for zero; slices clip their bounds.
-/

namespace TimeMachine.TsClient
open TimeMachine.Base

/-! ### Records -/

/-- `index.ts:14–17`. -/
structure Entry where
  uid : Int
  data : Bytes
  deriving DecidableEq, Repr

/-- `index.ts:19–22`. -/
structure TsRecord where
  ts : Int
  entries : List Entry
  deriving DecidableEq, Repr

namespace Index
open ByteBuffer

/-- The loop body of `decodeTsRecord`; `index.ts:86–94`. -/
def readRecord : ByteBufferM TsRecord := do
  let ts ← readLong
  let unique ← readLong
  let len ← readInt
  let data ← readBytes len
  return { ts := toNumber ts, entries := [{ uid := toNumber unique, data }] }

/-- The bytes of one record: two 64-bit integers, a length, and that many bytes. -/
def recordBytes (ts unique : Int64) (len : Int32) (data : Bytes) : Bytes :=
  longBytes ts ++ (longBytes unique ++ (intBytes len ++ data))

/-- What `readRecord` makes of the bytes of one record. -/
def record (ts unique : Int64) (data : Bytes) : TsRecord :=
  { ts := toNumber ts, entries := [{ uid := toNumber unique, data }] }

/-- The bytes of a record with its length counted are read back as the record. -/
theorem reads_readRecord (ts unique : Int64) {data : Bytes} (h : data.length < 2 ^ 31) :
    Reads readRecord (recordBytes ts unique (Int32.ofNat data.length) data)
      (record ts unique data) := by
  refine reads_bind (reads_readLong ts) (reads_bind (reads_readLong unique) ?_)
  refine reads_bind (reads_readInt _) ?_
  have hlast : Reads (readBytes (Int32.ofNat data.length) >>= fun d ↦
      pure (record ts unique d)) (data ++ []) (record ts unique data) :=
    reads_bind (reads_readBytes h) (reads_pure _)
  rwa [List.append_nil] at hlast

/-- What was read as a record are the bytes of one, with the length counted. -/
theorem parses_readRecord :
    Parses readRecord (fun bs r ↦ ∃ ts unique len data, bs = recordBytes ts unique len data ∧
      (data.length : Int) = len.toInt ∧ r = record ts unique data) := by
  refine parses_bind parses_readLong ?_
  rintro ts _ rfl
  refine parses_bind parses_readLong ?_
  rintro unique _ rfl
  refine parses_bind parses_readInt ?_
  rintro len _ rfl
  refine parses_bind (parses_readBytes len) ?_
  rintro data _ ⟨rfl, hlen⟩
  refine parses_pure ⟨ts, unique, len, data, ?_, hlen, rfl⟩
  rw [List.append_nil, recordBytes]

private theorem rest_lt_of_readRecord {bb bb' : ByteBuffer} {r : TsRecord}
    (h : readRecord.run bb = .ok r bb') : bb'.rest.length < bb.rest.length := by
  obtain ⟨bs, hbs, ts, unique, len, data, rfl, -⟩ := parses_readRecord bb bb' r h
  rw [hbs, recordBytes]
  simp only [List.length_append, length_longBytes]
  omega

/-- The loop of `decodeTsRecord`, which ends because every record it reads takes bytes;
`index.ts:85–97`. -/
def decodeLoop (bb : ByteBuffer) : Except RangeError (List TsRecord) :=
  if bb.offset < bb.limit then
    match _h : readRecord.run bb with
    | .ok r bb' => (decodeLoop bb').map (r :: ·)
    | .error e _ => .error e
  else .ok []
termination_by bb.rest.length
decreasing_by exact rest_lt_of_readRecord _h

/-- `index.ts:80–109`. The map by timestamp that the source fills after the loop, which never
throws, is not part of the result. -/
def decodeTsRecord (bytes : Bytes) : Except RangeError (List TsRecord) := decodeLoop (wrap bytes)

/-- Frames with their lengths counted, one after the other, are decoded to their records. -/
theorem decodeLoop_records (l : List (Int64 × Int64 × Bytes))
    (hl : ∀ x ∈ l, x.2.2.length < 2 ^ 31) (bb : ByteBuffer)
    (h : bb.rest = l.flatMap fun x ↦ recordBytes x.1 x.2.1 (Int32.ofNat x.2.2.length) x.2.2) :
    decodeLoop bb = .ok (l.map fun x ↦ record x.1 x.2.1 x.2.2) := by
  induction l generalizing bb with
  | nil =>
    have hlen := congrArg List.length h
    rw [length_rest, List.flatMap_nil, List.length_nil] at hlen
    rw [decodeLoop, if_neg (by omega), List.map_nil]
  | cons x l ih =>
    rw [List.flatMap_cons] at h
    have hlen := congrArg List.length h
    rw [length_rest, recordBytes] at hlen
    simp only [List.length_append, length_longBytes] at hlen
    obtain ⟨bb', hrun, hrest⟩ :=
      reads_readRecord x.1 x.2.1 (hl x List.mem_cons_self) bb _ h
    have hnext := ih (fun y hy ↦ hl y (List.mem_cons_of_mem x hy)) bb' hrest
    rw [decodeLoop, if_pos (by omega)]
    split
    · next r mid hmid =>
      cases hrun.symm.trans hmid
      rw [hnext, Except.map, List.map_cons]
    · next e mid hmid => cases hrun.symm.trans hmid

/-! ### Payloads -/

/-- An element of an array in a shift: `undefined` counts as zero. -/
def byteAt (b : Bytes) (i : Nat) : Int32 := (b.getD i 0).toUInt32.toInt32

/-- `index.ts:29–35`. -/
def readInt (b : Bytes) (offset : Nat) : Int32 :=
  let x1 := byteAt b (0 + offset) <<< 24
  let x2 := byteAt b (1 + offset) <<< 16
  let x3 := byteAt b (2 + offset) <<< 8
  let x4 := byteAt b (3 + offset) <<< 0
  x1 ||| x2 ||| x3 ||| x4

/-- A bound of a slice: from the end if it is negative, and clipped. -/
def clip (b : Bytes) (i : Int) : Nat :=
  if i < 0 then (b.length + i).toNat else min i.toNat b.length

/-- `Uint8Array.prototype.slice`. -/
def slice (b : Bytes) (start stop : Int) : Bytes :=
  (b.drop (clip b start)).take (clip b stop - clip b start)

/-- The generated decoders for the messages of a payload. -/
structure Protos (PredictRequest PredictResponse ExecutionError : Type) where
  predictRequest : Bytes → Except String PredictRequest
  predictResponse : Bytes → Except String PredictResponse
  executionError : Bytes → Except String ExecutionError

/-- `index.ts:24–27`. -/
structure ReqRes (PredictRequest PredictResponse ExecutionError : Type) where
  req : PredictRequest
  resp : ExecutionError ⊕ PredictResponse
  deriving DecidableEq, Repr

/-- `index.ts:43–52`. -/
def decode {A : Type} (data : Bytes) (f : Bytes → Except String A) : Except String A :=
  let header := data[0]?
  let body := if header = some 0 then [] else slice data 1 data.length
  f body

section
variable {PredictRequest PredictResponse ExecutionError : Type}

/-- `index.ts:66–77`. -/
def decodeRespOrError (protos : Protos PredictRequest PredictResponse ExecutionError)
    (data : Bytes) : Except String (ExecutionError ⊕ PredictResponse) :=
  let num := readInt data 0
  let body := slice data 4 data.length
  if num = 2 then .inl <$> decode body protos.executionError
  else if num = 3 then .inr <$> decode body protos.predictResponse
  else throw ("Invalid Resp Or Error number:" ++ toString num)

/-- `index.ts:54–64`. -/
def asServingReqRes (protos : Protos PredictRequest PredictResponse ExecutionError)
    (data : Bytes) : Except String (ReqRes PredictRequest PredictResponse ExecutionError) := do
  let reqSize := (readInt data 0).toInt
  let respSize := (readInt data 4).toInt
  let reqBody := slice data 8 (8 + reqSize)
  let respBody := slice data (8 + reqSize) (8 + reqSize + respSize)
  let req ← decode reqBody protos.predictRequest
  let resp ← decodeRespOrError protos respBody
  return { req, resp }

end

end Index
end TimeMachine.TsClient
