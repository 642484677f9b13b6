import TimeMachine.Base.Bytes

/-!
# Message identifiers and their key bytes

A message is identified by its timestamp and a number unique in its folder. The
database key of a message is the sixteen bytes `RepositoryUtils` copies from the
two words, each in the machine's (little-endian) order.
-/

namespace TimeMachine.Store
open TimeMachine.Base

/-- The `ID` message: both fields are `uint64`; `timeMachine_pb2.py`, descriptor `ID`. -/
structure ID where
  timestamp : UInt64 := 0
  unique : UInt64 := 0
  deriving DecidableEq, Repr

/-- A `rocksdb::Slice`: the bytes it points to. -/
abbrev Slice := Bytes

/-- The key of an identifier; `src/utils/RepositoryUtils.cpp:20–26`. -/
def serializeID (id : ID) : Slice := wordBytes id.timestamp ++ wordBytes id.unique

/-- The identifier in a key; `src/utils/RepositoryUtils.cpp:28–42`. The source reads
sixteen bytes without a length check; here bytes past the end read as zero. -/
def deserializeID (slice : Slice) : ID :=
  { timestamp := readWord slice, unique := readWord (slice.drop 8) }

/-- Every key the program builds has sixteen bytes. -/
@[simp] theorem length_serializeID (id : ID) : (serializeID id).length = 16 := by
  simp [serializeID]

/-- Reading a key recovers the identifier it was built from. -/
@[simp] theorem deserializeID_serializeID (id : ID) : deserializeID (serializeID id) = id := by
  have hd : (serializeID id).drop 8 = wordBytes id.unique ++ [] := by
    rw [serializeID, List.drop_append_of_le_length (by simp), List.append_nil]
    simp [List.drop_of_length_le]
  rw [deserializeID, hd, readWord_wordBytes, serializeID, readWord_wordBytes]

/-- Every sixteen-byte key is the key of the identifier read from it. -/
theorem serializeID_deserializeID (k : Slice) (h : k.length = 16) :
    serializeID (deserializeID k) = k := by
  have hd : (k.drop 8).length = 8 := by rw [List.length_drop, h]
  rw [serializeID, deserializeID, wordBytes_readWord k (by omega),
    wordBytes_readWord (k.drop 8) (by omega), List.take_of_length_le (Nat.le_of_eq hd),
    List.take_append_drop]

/-- Distinct identifiers have distinct keys. -/
theorem serializeID_inj {a b : ID} : serializeID a = serializeID b ↔ a = b := by
  constructor
  · intro h
    rw [← deserializeID_serializeID a, h, deserializeID_serializeID]
  · exact congrArg serializeID

/-- Sixteen-byte keys are equal exactly when they carry the same identifier. -/
theorem deserializeID_inj {j k : Slice} (hj : j.length = 16) (hk : k.length = 16) :
    deserializeID j = deserializeID k ↔ j = k := by
  constructor
  · intro h
    rw [← serializeID_deserializeID j hj, h, serializeID_deserializeID k hk]
  · exact congrArg deserializeID

end TimeMachine.Store
