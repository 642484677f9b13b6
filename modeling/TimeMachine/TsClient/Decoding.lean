import TimeMachine.TsClient.Index
import TimeMachine.Server.GetRangeHandler

/-!
# Decoding what the server sends

The body of a range response is the frames of its records, one after the other, and
`decodeTsRecord` recovers the records from it. Timestamps and unique numbers pass
through JavaScript numbers, which are exact up to 2^53 and rounded beyond; the server's
own timestamps, in nanoseconds, are beyond.
-/

namespace TimeMachine.TsClient
open TimeMachine.Base TimeMachine.Store TimeMachine.Server Index ByteBuffer

/-- The entries of decoded records, each with the timestamp of its record, in order. -/
def flatten (records : List TsRecord) : List (Int × Int × Bytes) :=
  records.flatMap fun r ↦ r.entries.map fun e ↦ (r.ts, e.uid, e.data)

/-- What a stored record is decoded to. -/
def decoded (r : ID × Data) : TsRecord :=
  record r.1.timestamp.toInt64 r.1.unique.toInt64 r.2.data

/-- The frames of records are decoded to one record each. -/
theorem decodeTsRecord_frames {records : List (ID × Data)}
    (h : ∀ r ∈ records, r.2.data.length < 2 ^ 31) :
    decodeTsRecord (frames records) = .ok (records.map decoded) := by
  have hloop := decodeLoop_records
    (records.map fun r ↦ (r.1.timestamp.toInt64, r.1.unique.toInt64, r.2.data)) ?_
    (wrap (frames records)) ?_
  · rw [decodeTsRecord, hloop, List.map_map]
    rfl
  · intro x hx
    obtain ⟨r, hr, rfl⟩ := List.mem_map.mp hx
    exact h r hr
  · rw [rest_wrap, List.flatMap_map]
    rfl

/-- For every list of records whose timestamps and unique numbers are at most 2^53 and whose
payloads are shorter than 2^31 bytes, decoding the frames gives back exactly the list, whatever
the payload bytes are. -/
theorem flatten_decodeTsRecord_frames (records : List (ID × Data))
    (h : ∀ r ∈ records, r.1.timestamp.toNat ≤ 2 ^ 53 ∧ r.1.unique.toNat ≤ 2 ^ 53 ∧
      r.2.data.length < 2 ^ 31) :
    (decodeTsRecord (frames records)).map flatten =
      .ok (records.map fun r ↦ (r.1.timestamp.toNat, r.1.unique.toNat, r.2.data)) := by
  rw [decodeTsRecord_frames fun r hr ↦ (h r hr).2.2, Except.map, flatten, List.flatMap_map]
  congr 1
  induction records with
  | nil => rfl
  | cons r rest ih =>
    obtain ⟨hts, huniq, -⟩ := h r List.mem_cons_self
    rw [List.flatMap_cons, List.map_cons, ih fun s hs ↦ h s (List.mem_cons_of_mem r hs), decoded,
      record, toNumber_of_le hts, toNumber_of_le huniq]
    rfl

/-- Two records, the second with a payload that looks like a header. -/
theorem flatten_decodeTsRecord_frames_two :
    (decodeTsRecord (frames [(⟨.ofNat (2 ^ 53), 0⟩, {}), (⟨1, 7⟩, ⟨none, [0, 0, 0, 9]⟩)])).map
        flatten = .ok [(2 ^ 53, 0, []), (1, 7, [0, 0, 0, 9])] :=
  flatten_decodeTsRecord_frames [(⟨.ofNat (2 ^ 53), 0⟩, {}), (⟨1, 7⟩, ⟨none, [0, 0, 0, 9]⟩)]
    (by decide)

/-! ### Telling messages apart -/

/-- The pairs of timestamp and unique number the client gets for the frames of records. -/
def decodedPairs (records : List (ID × Data)) : Except RangeError (List (Int × Int)) :=
  (decodeTsRecord (frames records)).map fun rs ↦ (flatten rs).map fun e ↦ (e.1, e.2.1)

/-- The conversion keeps two numbers apart: the smaller is below 2^53, or a halfway point
between neighbouring numbers of 53 bits parts them. -/
def ToldApart (x y : UInt64) : Prop :=
  (x < y ∧ Rounding.Parted 53 x.toNat y.toNat) ∨ (y < x ∧ Rounding.Parted 53 y.toNat x.toNat)

/-- Words below 2^63 are converted to different numbers exactly if they are kept apart. -/
theorem toNumber_ne_iff {x y : UInt64} (hx : x.toNat < 2 ^ 63) (hy : y.toNat < 2 ^ 63) :
    toNumber x.toInt64 ≠ toNumber y.toInt64 ↔ ToldApart x y := by
  rw [toNumber_toInt64 hx, toNumber_toInt64 hy, ToldApart, UInt64.lt_iff_toNat_lt,
    UInt64.lt_iff_toNat_lt, ne_eq, Int.natCast_inj]
  rcases Nat.lt_trichotomy x.toNat y.toNat with h | h | h
  · rw [and_iff_right h, or_iff_left (fun h' ↦ Nat.lt_asymm h h'.1)]
    exact Rounding.round_ne_iff (by decide) h
  · simp [h]
  · rw [and_iff_right h, or_iff_right (fun h' ↦ Nat.lt_asymm h h'.1), eq_comm]
    exact Rounding.round_ne_iff (by decide) h

/-- For two messages with identifiers below 2^63, the browser client gets different pairs
exactly if the conversion keeps their timestamps or their unique numbers apart. -/
theorem decodedPairs_ne_iff (a b : ID × Data)
    (ha : a.1.timestamp.toNat < 2 ^ 63 ∧ a.1.unique.toNat < 2 ^ 63 ∧ a.2.data.length < 2 ^ 31)
    (hb : b.1.timestamp.toNat < 2 ^ 63 ∧ b.1.unique.toNat < 2 ^ 63 ∧ b.2.data.length < 2 ^ 31) :
    (∃ p q, decodedPairs [a, b] = .ok [p, q] ∧ p ≠ q) ↔
      ToldApart a.1.timestamp b.1.timestamp ∨ ToldApart a.1.unique b.1.unique := by
  have hrun : decodedPairs [a, b] =
      .ok [(toNumber a.1.timestamp.toInt64, toNumber a.1.unique.toInt64),
        (toNumber b.1.timestamp.toInt64, toNumber b.1.unique.toInt64)] := by
    rw [decodedPairs, decodeTsRecord_frames (List.forall_mem_cons.mpr
      ⟨ha.2.2, List.forall_mem_singleton.mpr hb.2.2⟩)]
    rfl
  rw [hrun, ← toNumber_ne_iff ha.1 hb.1, ← toNumber_ne_iff ha.2.1 hb.2.1, ← not_and_or,
    ← Prod.mk.injEq]
  constructor
  · rintro ⟨p, q, hpq, hne⟩
    cases hpq
    exact hne
  · intro hne
    exact ⟨_, _, rfl, hne⟩

/-- Two messages a second apart in 2019, in nanoseconds, are told apart. -/
theorem decodedPairs_ne_second :
    ∃ p q, decodedPairs [(⟨1552348800000000000, 0⟩, {}), (⟨1552348801000000000, 0⟩, {})] =
      .ok [p, q] ∧ p ≠ q :=
  (decodedPairs_ne_iff (⟨1552348800000000000, 0⟩, {}) (⟨1552348801000000000, 0⟩, {})
    (by decide) (by decide)).mpr (Or.inl (Or.inl ⟨by decide, Or.inr
      ⟨6063862500000000, 1552348800000000128, ⟨by decide, by decide, 7, by decide⟩, by decide⟩⟩))

/-- The timestamps 2^53 and 2^53 + 1 become one number. -/
theorem decodedPairs_collide :
    ¬ ∀ a b : ID × Data, a.1 ≠ b.1 →
      a.1.timestamp.toNat < 2 ^ 63 → a.1.unique.toNat < 2 ^ 63 → a.2.data.length < 2 ^ 31 →
      b.1.timestamp.toNat < 2 ^ 63 → b.1.unique.toNat < 2 ^ 63 → b.2.data.length < 2 ^ 31 →
      ∃ p q, decodedPairs [a, b] = .ok [p, q] ∧ p ≠ q := by
  intro h
  obtain ⟨p, q, hpq, hne⟩ := h (⟨2 ^ 53, 0⟩, {}) (⟨2 ^ 53 + 1, 0⟩, {}) (by decide) (by decide)
    (by decide) (by decide) (by decide) (by decide) (by decide)
  have hrun : decodedPairs [(⟨2 ^ 53, 0⟩, {}), (⟨2 ^ 53 + 1, 0⟩, {})] =
      .ok [(2 ^ 53, 0), (2 ^ 53, 0)] := by
    rw [decodedPairs, decodeTsRecord_frames (by decide)]
    decide
  rw [hrun] at hpq
  cases hpq
  exact hne rfl

end TimeMachine.TsClient
