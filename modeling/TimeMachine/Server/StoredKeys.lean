import TimeMachine.Server.SampledRecords

/-!
# Stored keys

A key is sixteen bytes that stand for an identifier, and the comparator orders keys as
their identifiers are ordered as long as none has timestamp zero, which no stored key
has. So on everything that is ever stored the comparator is a strict total order with
byte equality, and the only thing that orders it: the bytes themselves, least
significant first, run differently.
-/

namespace TimeMachine.Server
open TimeMachine.Base TimeMachine.Store TimeMachine.Client

/-- A key that some run of the server from an empty disk leaves in some folder. -/
def StoredKey (pb : Protobuf) (k : Slice) : Prop :=
  ∃ events dir name es v, (((Process.down RocksDB.empty).after pb events).rocks.disk dir).bind
    (·.family name) = some es ∧ (k, v) ∈ es

/-- Stored keys have a timestamp. -/
theorem StoredKey.dated {pb : Protobuf} {k : Slice} (h : StoredKey pb k) :
    IDComparator.Dated k := by
  obtain ⟨events, dir, name, es, v, hes, hmem⟩ := h
  obtain ⟨d, hd, hes⟩ := Option.bind_eq_some_iff.mp hes
  have hempty : StoreInvariant pb (Process.down RocksDB.empty).rocks := storeInvariant_empty
  have hstored := storeInvariant_after hempty events dir d name es hd hes
  exact hstored.kept.keys _ hmem

/-- On stored keys the comparator is a strict total order. -/
theorem storedKey_total (pb : Protobuf) : TotalOn IDComparator.compare (StoredKey pb) where
  swap a b ha hb := IDComparator.dated_total.swap a b ha.dated hb.dated
  eq_of_zero a b ha hb := IDComparator.dated_total.eq_of_zero a b ha.dated hb.dated
  trans a b c ha hb hc := IDComparator.dated_total.trans a b c ha.dated hb.dated hc.dated

/-- Two saves, at 1 and at 256, leave keys that are stored. -/
theorem exists_storedKeys :
    StoredKey Wire.wire (serializeID ⟨1, 0⟩) ∧ StoredKey Wire.wire (serializeID ⟨256, 1⟩) := by
  have hes : (((Process.down RocksDB.empty).after Wire.wire
      [.start .localDBClient { now := 1, now_ne_zero := by decide } {},
        .save { now := 2, now_ne_zero := by decide } { folder := "f", timestamp := 1 },
        .save { now := 3, now_ne_zero := by decide } { folder := "f", timestamp := 256 }]).rocks.disk
          (({} : Config).openDir .localDBClient)).bind (·.family "f") = some
      [(serializeID ⟨1, 0⟩, Wire.wire.serializeAsString { id := some ⟨1, 0⟩ }),
        (serializeID ⟨256, 1⟩, Wire.wire.serializeAsString { id := some ⟨256, 1⟩ })] := by
    decide +kernel
  exact ⟨⟨_, _, _, _, _, hes, List.mem_cons_self⟩,
    ⟨_, _, _, _, _, hes, List.mem_cons_of_mem _ List.mem_cons_self⟩⟩

/-- Identifiers and sixteen-byte keys stand for each other; with timestamps, keys compare as their
identifiers do; so the comparator is a strict total order on all keys that any run stores, and
finds only equal bytes equal, although it is not the order of the bytes. -/
theorem serialized_keys_compare_like_ids :
    (∀ id : ID, deserializeID (serializeID id) = id) ∧
    (∀ k : Slice, k.length = 16 → serializeID (deserializeID k) = k) ∧
    (∀ a b : ID, a.timestamp ≠ 0 → b.timestamp ≠ 0 →
      (IDComparator.compare (serializeID a) (serializeID b) < 0 ↔ IDComparator.LexLt a b) ∧
      (IDComparator.compare (serializeID a) (serializeID b) = 0 ↔ a = b) ∧
      (0 < IDComparator.compare (serializeID a) (serializeID b) ↔ IDComparator.LexLt b a)) ∧
    (∀ pb : Protobuf,
      IsStrictTotalOrder {k // StoredKey pb k} (fun a b ↦ IDComparator.compare a b < 0) ∧
      ∀ a b : Slice, StoredKey pb a → StoredKey pb b →
        (IDComparator.equal a b = true ↔ a = b)) ∧
    ∃ a b : Slice, StoredKey Wire.wire a ∧ StoredKey Wire.wire b ∧
      IDComparator.compare a b < 0 ∧ b < a := by
  refine ⟨deserializeID_serializeID, serializeID_deserializeID, ?_, ?_, ?_⟩
  · intro a b ha hb
    have hkey := IDComparator.dated_serializeID ha
    have hkey' := IDComparator.dated_serializeID hb
    rw [IDComparator.compare_neg_iff_lexLt hkey hkey', IDComparator.compare_eq_zero_iff hkey hkey',
      IDComparator.compare_pos_iff_lexLt hkey hkey', serializeID_inj]
    simp only [deserializeID_serializeID, and_self]
  · intro pb
    refine ⟨(storedKey_total pb).isStrictTotalOrder, fun a b ha hb ↦ ?_⟩
    rw [IDComparator.equal, decide_eq_true_eq]
    exact IDComparator.compare_eq_zero_iff ha.dated hb.dated
  · obtain ⟨h1, h256⟩ := exists_storedKeys
    exact ⟨_, _, h1, h256, by decide, by decide⟩

end TimeMachine.Server
