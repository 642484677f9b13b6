import TimeMachine.Base.BigEndian
import TimeMachine.Base.Rounding
import TimeMachine.Base.StateError

/-!
# The byte buffer of the browser client

What `index.ts` uses of the packages `bytebuffer` and `long`: a buffer read from an
offset, big-endian, where every read advances the offset by the bytes it read and
throws a `RangeError` when it would pass the end; and the conversion of a 64-bit
integer to a number. Numbers stay integers throughout, so they are modelled by `Int`.
-/

namespace TimeMachine.TsClient
open TimeMachine.Base

/-- A wrapped array, which covers its whole buffer, and the position of the next read. -/
structure ByteBuffer where
  buffer : Bytes
  offset : Nat
  offset_le : offset ≤ buffer.length
  deriving DecidableEq, Repr

/-- How a read can fail. -/
inductive RangeError where
  | illegalOffset
  | illegalRange
  | illegalLength
  deriving DecidableEq, Repr

/-- Code that reads from a buffer. -/
abbrev ByteBufferM := EStateM RangeError ByteBuffer

namespace ByteBuffer

/-- `ByteBuffer.wrap`. -/
def wrap (bytes : Bytes) : ByteBuffer :=
  { buffer := bytes, offset := 0, offset_le := Nat.zero_le _ }

/-- The end of the readable bytes. -/
def limit (bb : ByteBuffer) : Nat := bb.buffer.length

/-- The bytes that are still to be read. -/
def rest (bb : ByteBuffer) : Bytes := bb.buffer.drop bb.offset

/-- Read the next bytes. -/
def read (width : Nat) (error : RangeError) : ByteBufferM Bytes := do
  let bb ← get
  if h : bb.offset + width ≤ bb.limit then
    set { bb with offset := bb.offset + width, offset_le := h }
    return bb.rest.take width
  else throw error

/-- `readLong`. -/
def readLong : ByteBufferM Int64 := beLong <$> read 8 .illegalOffset

/-- `readInt`. -/
def readInt : ByteBufferM Int32 := beInt <$> read 4 .illegalOffset

/-- `readBytes`. -/
def readBytes (length : Int32) : ByteBufferM Bytes :=
  if length < 0 then throw .illegalLength else read length.toInt.toNat .illegalRange

/-- `Long.toNumber`: the nearest number, whose significand has 53 bits. -/
def toNumber (v : Int64) : Int := Rounding.roundInt 53 v.toInt

/-- All of a wrapped array is still to be read. -/
@[simp] theorem rest_wrap (bytes : Bytes) : (wrap bytes).rest = bytes := rfl

/-- The bytes still to be read are those between offset and limit. -/
theorem length_rest (bb : ByteBuffer) : bb.rest.length = bb.limit - bb.offset :=
  List.length_drop

/-- A read succeeds exactly when the bytes are there, and leaves those behind them. -/
theorem run_read (bb : ByteBuffer) (width : Nat) (error : RangeError) :
    if width ≤ bb.rest.length then
      ∃ bb', (read width error).run bb = .ok (bb.rest.take width) bb' ∧
        bb'.rest = bb.rest.drop width
    else (read width error).run bb = .error error bb := by
  have hle : bb.offset ≤ bb.limit := bb.offset_le
  rw [length_rest, read, EStateM.run_bind]
  split
  · next hroom =>
    have h : bb.offset + width ≤ bb.limit := by omega
    refine ⟨{ bb with offset := bb.offset + width, offset_le := h }, ?_, ?_⟩
    · simp [h]
    · rw [rest, rest, List.drop_drop]
  · next hshort =>
    have h : ¬ bb.offset + width ≤ bb.limit := by omega
    simp [h]

/-- The code reads exactly the bytes `bs`, whatever follows them, and returns `a`. -/
def Reads {α : Type} (x : ByteBufferM α) (bs : Bytes) (a : α) : Prop :=
  ∀ bb tail, bb.rest = bs ++ tail → ∃ bb', x.run bb = .ok a bb' ∧ bb'.rest = tail

variable {α β : Type} {x : ByteBufferM α} {bs cs : Bytes} {a : α}

/-- A value reads nothing. -/
theorem reads_pure (a : α) : Reads (pure a) [] a := fun bb _ h ↦ ⟨bb, rfl, h⟩

/-- One command after the other reads the bytes of both. -/
theorem reads_bind {f : α → ByteBufferM β} {b : β} (hx : Reads x bs a) (hf : Reads (f a) cs b) :
    Reads (x >>= f) (bs ++ cs) b := by
  intro bb tail h
  rw [List.append_assoc] at h
  obtain ⟨mid, hrun, hrest⟩ := hx bb (cs ++ tail) h
  rw [StateError.run_bind_of_ok hrun]
  exact hf mid tail hrest

/-- Mapping reads the same bytes. -/
theorem reads_map (f : α → β) (hx : Reads x bs a) : Reads (f <$> x) bs (f a) := by
  intro bb tail h
  obtain ⟨bb', hrun, hrest⟩ := hx bb tail h
  refine ⟨bb', ?_, hrest⟩
  rw [StateError.run_map, hrun]

/-- A read returns the bytes themselves. -/
theorem reads_read (bs : Bytes) (error : RangeError) : Reads (read bs.length error) bs bs := by
  intro bb tail h
  have hr := run_read bb bs.length error
  rwa [if_pos (by rw [h, List.length_append]; omega), h, List.take_left, List.drop_left] at hr

/-- Eight bytes are read as the 64-bit integer they were written from. -/
theorem reads_readLong (v : Int64) : Reads readLong (longBytes v) v := by
  have h := reads_map beLong (reads_read (longBytes v) .illegalOffset)
  rwa [length_longBytes, beLong_longBytes] at h

/-- Four bytes are read as the 32-bit integer they were written from. -/
theorem reads_readInt (v : Int32) : Reads readInt (intBytes v) v := by
  have h := reads_map beInt (reads_read (intBytes v) .illegalOffset)
  rwa [length_intBytes, beInt_intBytes] at h

/-- A length that was counted on the bytes reads them back. -/
theorem reads_readBytes {bs : Bytes} (h : bs.length < 2 ^ 31) :
    Reads (readBytes (Int32.ofNat bs.length)) bs bs := by
  have hint : (Int32.ofNat bs.length).toInt = bs.length := Int32.toInt_ofNat_of_lt h
  have hneg : ¬ Int32.ofNat bs.length < 0 := by
    rw [Int32.lt_iff_toInt_lt, hint]
    simp
  rw [readBytes, if_neg hneg, hint, Int.toNat_natCast]
  exact reads_read bs .illegalRange

/-- When the code returns, the bytes it has read and its result are related by `P`. -/
def Parses (x : ByteBufferM α) (P : Bytes → α → Prop) : Prop :=
  ∀ bb bb' a, x.run bb = .ok a bb' → ∃ bs, bb.rest = bs ++ bb'.rest ∧ P bs a

variable {P : Bytes → α → Prop} {Q : Bytes → β → Prop}

/-- A value has read nothing. -/
theorem parses_pure {a : α} (h : P [] a) : Parses (pure a) P := by
  intro bb bb' b hrun
  cases hrun
  exact ⟨[], rfl, h⟩

/-- A failure returns nothing. -/
theorem parses_throw (error : RangeError) : Parses (throw error) P := by
  intro bb bb' a hrun
  cases hrun

/-- One command after the other: what the second makes of its bytes is weighed with those the
first has read. -/
theorem parses_bind {f : α → ByteBufferM β} (hx : Parses x P)
    (hf : ∀ a bs, P bs a → Parses (f a) (fun cs b ↦ Q (bs ++ cs) b)) : Parses (x >>= f) Q := by
  intro bb bb' b hrun
  obtain ⟨a, mid, hxrun, hfrun⟩ := StateError.run_bind_eq_ok.mp hrun
  obtain ⟨bs, hbs, hP⟩ := hx bb mid a hxrun
  obtain ⟨cs, hcs, hQ⟩ := hf a bs hP mid bb' b hfrun
  exact ⟨bs ++ cs, by rw [hbs, hcs, List.append_assoc], hQ⟩

/-- Mapping has read the same bytes. -/
theorem parses_map {f : α → β} (h : Parses x (fun bs a ↦ Q bs (f a))) : Parses (f <$> x) Q := by
  intro bb bb' b hrun
  rw [StateError.run_map] at hrun
  split at hrun
  · next a mid hx =>
    cases hrun
    exact h bb bb' a hx
  · cases hrun

/-- A read returns the bytes it has read, as many as it was asked for. -/
theorem parses_read (width : Nat) (error : RangeError) :
    Parses (read width error) (fun bs data ↦ data = bs ∧ bs.length = width) := by
  intro bb bb' data hrun
  have hr := run_read bb width error
  split at hr
  · next hroom =>
    obtain ⟨next, hok, hrest⟩ := hr
    cases hrun.symm.trans hok
    refine ⟨bb.rest.take width, ?_, rfl, ?_⟩
    · rw [hrest, List.take_append_drop]
    · rw [List.length_take]
      omega
  · cases hrun.symm.trans hr

/-- A 64-bit integer was read from its eight bytes. -/
theorem parses_readLong : Parses readLong (fun bs v ↦ bs = longBytes v) := by
  apply parses_map
  intro bb bb' data hrun
  obtain ⟨bs, hbs, rfl, hlen⟩ := parses_read 8 _ bb bb' data hrun
  exact ⟨data, hbs, (longBytes_beLong data hlen).symm⟩

/-- A 32-bit integer was read from its four bytes. -/
theorem parses_readInt : Parses readInt (fun bs v ↦ bs = intBytes v) := by
  apply parses_map
  intro bb bb' data hrun
  obtain ⟨bs, hbs, rfl, hlen⟩ := parses_read 4 _ bb bb' data hrun
  exact ⟨data, hbs, (intBytes_beInt data hlen).symm⟩

/-- Bytes were read as many as the length says, which is not negative. -/
theorem parses_readBytes (length : Int32) :
    Parses (readBytes length) (fun bs data ↦ data = bs ∧ (bs.length : Int) = length.toInt) := by
  rw [readBytes]
  split
  · exact parses_throw _
  · next hneg =>
    rw [Int32.lt_iff_toInt_lt] at hneg
    intro bb bb' data hrun
    obtain ⟨bs, hbs, hdata, hlen⟩ := parses_read _ _ bb bb' data hrun
    refine ⟨bs, hbs, hdata, ?_⟩
    change ¬ length.toInt < 0 at hneg
    omega

/-- A word below 2^63 is converted as the number it stands for. -/
theorem toNumber_toInt64 {n : UInt64} (h : n.toNat < 2 ^ 63) :
    toNumber n.toInt64 = Rounding.round 53 n.toNat := by
  have hint : n.toInt64.toInt = n.toNat := BitVec.toInt_eq_toNat_of_lt (x := n.toBitVec) (by
    change 2 * n.toNat < 2 ^ 64
    omega)
  rw [toNumber, hint, Rounding.roundInt_natCast]

/-- Up to 2^53 the conversion is exact. -/
theorem toNumber_of_le {n : UInt64} (h : n.toNat ≤ 2 ^ 53) : toNumber n.toInt64 = n.toNat := by
  rw [toNumber_toInt64 (by omega), Rounding.round_of_le (by decide) h]

end ByteBuffer
end TimeMachine.TsClient
