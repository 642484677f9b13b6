import TimeMachine.TsClient.Index
import Mathlib.Data.List.Basic

/-!
# What the decoder accepts

`decodeTsRecord` takes its lengths from the bytes it decodes. It returns on exactly the
concatenations of complete frames: a length that is negative or points past the end, and
a frame that is cut off, make it throw, and since each frame it reads takes bytes it
always ends.
-/

namespace TimeMachine.TsClient
open TimeMachine.Base Index ByteBuffer

/-- A complete frame: two 64-bit words and a body whose length is an `int`. -/
structure Frame where
  header : Bytes
  body : Bytes
  length_header : header.length = 16
  length_body : body.length < 2 ^ 31

namespace Frame

/-- The bytes of a frame: the header, the length of the body in four bytes, and the body. -/
def bytes (f : Frame) : Bytes := f.header ++ (beBytes 4 f.body.length ++ f.body)

/-- The frame of a record. -/
def ofRecord (ts unique : Int64) (data : Bytes) (h : data.length < 2 ^ 31) : Frame where
  header := longBytes ts ++ longBytes unique
  body := data
  length_header := by rw [List.length_append, length_longBytes, length_longBytes]
  length_body := h

/-- The bytes of a record with its length counted are those of its frame. -/
theorem bytes_ofRecord (ts unique : Int64) {data : Bytes} (h : data.length < 2 ^ 31) :
    (ofRecord ts unique data h).bytes =
      recordBytes ts unique (Int32.ofNat data.length) data := by
  rw [bytes, recordBytes, intBytes_ofNat h, ofRecord, List.append_assoc]

/-- The timestamp of a frame, as a number. -/
def ts (f : Frame) : Int := toNumber (beLong (f.header.take 8))

/-- The unique number of a frame, as a number, and its body. -/
def entry (f : Frame) : Entry :=
  { uid := toNumber (beLong (f.header.drop 8)), data := f.body }

/-- Every frame is the frame of a record. -/
theorem eq_ofRecord (f : Frame) :
    f = ofRecord (beLong (f.header.take 8)) (beLong (f.header.drop 8)) f.body f.length_body := by
  obtain ⟨header, body, hheader, hbody⟩ := f
  have htake : (header.take 8).length = 8 := by rw [List.length_take, hheader]; rfl
  have hdrop : (header.drop 8).length = 8 := by rw [List.length_drop, hheader]
  simp only [ofRecord, mk.injEq, and_true]
  rw [longBytes_beLong _ htake, longBytes_beLong _ hdrop, List.take_append_drop]

end Frame

/-- A length that was counted on the bytes is an `int`, and is the count. -/
theorem eq_ofNat_of_counted {len : Int32} {data : Bytes} (h : (data.length : Int) = len.toInt) :
    data.length < 2 ^ 31 ∧ len = Int32.ofNat data.length := by
  have hlt := len.toInt_lt
  have hlen : data.length < 2 ^ 31 := by omega
  refine ⟨hlen, Int32.toInt.inj ?_⟩
  rw [Int32.toInt_ofNat_of_lt hlen, h]

/-- When the loop returns, it has read complete frames up to the end. -/
theorem exists_frames_of_decodeLoop {bb : ByteBuffer} {records : List TsRecord}
    (h : decodeLoop bb = .ok records) : ∃ fs : List Frame, bb.rest = fs.flatMap Frame.bytes := by
  induction bb using decodeLoop.induct generalizing records with
  | case1 bb hmore r bb' hrun ih =>
    rw [decodeLoop, if_pos hmore] at h
    split at h
    · next r' mid hmid =>
      cases hrun.symm.trans hmid
      obtain ⟨later, hlater⟩ : ∃ later, decodeLoop bb' = .ok later := by
        cases hl : decodeLoop bb' with
        | ok later => exact ⟨later, rfl⟩
        | error e =>
          rw [hl] at h
          cases h
      obtain ⟨bs, hbs, ts, unique, len, data, rfl, hcount, -⟩ := parses_readRecord bb bb' r hrun
      obtain ⟨fs, hfs⟩ := ih hlater
      obtain ⟨hlen, rfl⟩ := eq_ofNat_of_counted hcount
      refine ⟨Frame.ofRecord ts unique data hlen :: fs, ?_⟩
      rw [List.flatMap_cons, Frame.bytes_ofRecord, hbs, hfs]
    · next hmid => cases h
  | case2 bb hmore e bb' hrun =>
    rw [decodeLoop, if_pos hmore] at h
    split at h
    · next hmid => cases hrun.symm.trans hmid
    · cases h
  | case3 bb hdone =>
    refine ⟨[], List.eq_nil_of_length_eq_zero ?_⟩
    rw [length_rest]
    omega

/-- The loop returns on complete frames, with a record for each. -/
theorem decodeLoop_of_frames (fs : List Frame) {bb : ByteBuffer}
    (h : bb.rest = fs.flatMap Frame.bytes) :
    decodeLoop bb = .ok (fs.map fun f ↦ { ts := f.ts, entries := [f.entry] }) := by
  have hloop := decodeLoop_records
    (fs.map fun f ↦ (beLong (f.header.take 8), beLong (f.header.drop 8), f.body)) (by
      intro x hx
      obtain ⟨f, -, rfl⟩ := List.mem_map.mp hx
      exact f.length_body) bb (by
      rw [h, List.flatMap_map]
      apply List.flatMap_congr
      intro f _
      conv_lhs => rw [f.eq_ofRecord]
      exact Frame.bytes_ofRecord _ _ f.length_body)
  rw [List.map_map] at hloop
  exact hloop

/-- The decoder ends on every array of bytes: it returns exactly if the bytes are complete
frames, one after the other, and throws otherwise. -/
theorem decodeTsRecord_accepts_iff (bytes : Bytes) :
    ((∃ records, decodeTsRecord bytes = .ok records) ↔
      ∃ fs : List Frame, bytes = fs.flatMap Frame.bytes) ∧
    ((∃ error, decodeTsRecord bytes = .error error) ↔
      ¬ ∃ fs : List Frame, bytes = fs.flatMap Frame.bytes) := by
  have haccepts : (∃ records, decodeTsRecord bytes = .ok records) ↔
      ∃ fs : List Frame, bytes = fs.flatMap Frame.bytes := by
    constructor
    · rintro ⟨records, h⟩
      exact exists_frames_of_decodeLoop h
    · rintro ⟨fs, h⟩
      exact ⟨_, decodeLoop_of_frames fs h⟩
  refine ⟨haccepts, ?_⟩
  rw [← haccepts]
  cases decodeTsRecord bytes with
  | ok records => simp
  | error error => simp

end TimeMachine.TsClient
