import TimeMachine.Store.Data

/-!
# The protobuf wire format of the stored message

Base-128 varints, least significant group first, and length-delimited fields, as the
protobuf encoding of `Data { ID id = 1; bytes data = 2; }` and
`ID { uint64 timestamp = 1; uint64 unique = 2; }` uses them. Fields holding their
default are not written. The reader accepts the fields of a message in any order and
gives up on a field it does not know.
-/

namespace TimeMachine.Store.Wire
open TimeMachine.Base

/-- Base-128 groups of `n`, at most `fuel + 1` of them. -/
def varintGroups : Nat → Nat → Bytes
  | 0, n => [UInt8.ofNat n]
  | fuel + 1, n =>
    if n < 128 then [UInt8.ofNat n]
    else UInt8.ofNat (n % 128 + 128) :: varintGroups fuel (n / 128)

/-- The varint of `n`; its own value is fuel enough. -/
def varint (n : Nat) : Bytes := varintGroups n n

/-- Read a varint from the front, returning it with the bytes after it. -/
def readVarint : Bytes → Option (Nat × Bytes)
  | [] => none
  | b :: rest =>
    if b.toNat < 128 then some (b.toNat, rest)
    else (readVarint rest).map (fun p ↦ (b.toNat - 128 + 128 * p.1, p.2))

private theorem readVarint_groups (fuel n : Nat) (rest : Bytes) (h : n < 128 ^ (fuel + 1)) :
    readVarint (varintGroups fuel n ++ rest) = some (n, rest) := by
  induction fuel generalizing n with
  | zero =>
    have hb : (UInt8.ofNat n).toNat = n := by rw [UInt8.toNat_ofNat']; omega
    simp only [varintGroups, List.singleton_append, readVarint, hb]
    rw [if_pos (by omega)]
  | succ fuel ih =>
    simp only [varintGroups]
    split
    · next hlt =>
      have hb : (UInt8.ofNat n).toNat = n := by rw [UInt8.toNat_ofNat']; omega
      simp only [List.singleton_append, readVarint, hb, hlt, if_true]
    · next hge =>
      have hb : (UInt8.ofNat (n % 128 + 128)).toNat = n % 128 + 128 := by
        rw [UInt8.toNat_ofNat']
        omega
      have hq : n / 128 < 128 ^ (fuel + 1) := by
        rw [Nat.pow_succ] at h
        exact Nat.div_lt_of_lt_mul (by omega)
      simp only [List.cons_append, readVarint, hb, ih (n / 128) hq, Option.map_some]
      rw [if_neg (by omega)]
      congr 2
      omega

/-- A varint is read back, whatever follows it. -/
theorem readVarint_varint (n : Nat) (rest : Bytes) :
    readVarint (varint n ++ rest) = some (n, rest) := by
  apply readVarint_groups
  exact Nat.lt_trans Nat.lt_two_pow_self
    (Nat.lt_of_lt_of_le (Nat.pow_lt_pow_right (by omega) (Nat.lt_succ_self n))
      (Nat.pow_le_pow_left (by omega) _))

/-- A `uint64` field, left out when it holds its default. -/
def varintField (tag : UInt8) (w : UInt64) : Bytes :=
  if w = 0 then [] else tag :: varint w.toNat

/-- A length-delimited field. -/
def bytesField (tag : UInt8) (body : Bytes) : Bytes := tag :: varint body.length ++ body

/-- The body of an `ID` message. -/
def encodeID (id : ID) : Bytes := varintField 0x08 id.timestamp ++ varintField 0x10 id.unique

/-- The serialised `Data` message. -/
def encodeData (d : Data) : Bytes :=
  (match d.id with
    | some id => bytesField 0x0A (encodeID id)
    | none => []) ++
  if d.data = [] then [] else bytesField 0x12 d.data

/-- Fields of an `ID` message, read into what was read before. -/
def decodeID : Nat → Bytes → ID → Option ID
  | _, [], id => some id
  | 0, _ :: _, _ => none
  | fuel + 1, tag :: rest, id =>
    match readVarint rest with
    | none => none
    | some (n, rest) =>
      if tag = 0x08 then decodeID fuel rest { id with timestamp := UInt64.ofNat n }
      else if tag = 0x10 then decodeID fuel rest { id with unique := UInt64.ofNat n }
      else none

/-- Fields of a `Data` message, read into what was read before. -/
def decodeData : Nat → Bytes → Data → Option Data
  | _, [], d => some d
  | 0, _ :: _, _ => none
  | fuel + 1, tag :: rest, d =>
    match readVarint rest with
    | none => none
    | some (n, rest) =>
      if rest.length < n then none
      else if tag = 0x0A then
        match decodeID (n + 2) (rest.take n) (d.id.getD {}) with
        | none => none
        | some id => decodeData fuel (rest.drop n) { d with id := some id }
      else if tag = 0x12 then decodeData fuel (rest.drop n) { d with data := rest.take n }
      else none

private theorem decodeID_varintField (tag : UInt8) (w : UInt64) (rest : Bytes) (fuel : Nat)
    (id : ID) (h : w ≠ 0) :
    decodeID (fuel + 1) (varintField tag w ++ rest) id =
      if tag = 0x08 then decodeID fuel rest { id with timestamp := w }
      else if tag = 0x10 then decodeID fuel rest { id with unique := w }
      else none := by
  simp only [varintField, if_neg h, List.cons_append, decodeID, readVarint_varint,
    UInt64.ofNat_toNat]

/-- The body of an identifier is read back, given one unit of fuel a field. -/
theorem decodeID_encodeID (fuel : Nat) (id : ID) (h : 2 ≤ fuel) :
    decodeID fuel (encodeID id) {} = some id := by
  obtain ⟨fuel, rfl⟩ := Nat.exists_eq_add_of_le' h
  rcases id with ⟨ts, un⟩
  have hnil (f : Nat) (i : ID) : decodeID f [] i = some i := by cases f <;> rfl
  rw [encodeID]
  by_cases ht : ts = 0
  · subst ht
    by_cases hu : un = 0
    · subst hu
      simp [varintField, hnil]
    · have := decodeID_varintField 0x10 un [] (fuel + 1) {} hu
      simp only [List.append_nil] at this
      simp only [varintField, if_true, List.nil_append] at this ⊢
      rw [this]
      simp [hnil]
  · rw [decodeID_varintField _ _ _ _ _ ht, if_pos rfl]
    by_cases hu : un = 0
    · subst hu
      simp [varintField, hnil]
    · have := decodeID_varintField 0x10 un [] fuel { timestamp := ts } hu
      rw [List.append_nil] at this
      rw [this]
      simp [hnil]

private theorem decodeData_id (id : ID) (rest : Bytes) (fuel : Nat) :
    decodeData (fuel + 1) (bytesField 0x0A (encodeID id) ++ rest) {} =
      decodeData fuel rest { id := some id } := by
  simp only [bytesField, List.cons_append, List.append_assoc, decodeData, readVarint_varint]
  rw [if_neg (by simp), if_pos trivial, List.take_left, List.drop_left, Option.getD_none,
    decodeID_encodeID _ id (by omega)]

private theorem decodeData_data (body : Bytes) (fuel : Nat) (d : Data) :
    decodeData (fuel + 1) (bytesField 0x12 body) d = some { d with data := body } := by
  simp only [bytesField, List.cons_append, decodeData, readVarint_varint]
  rw [if_neg (by omega), if_neg (by decide), if_pos trivial, List.take_length, List.drop_length]
  cases fuel <;> rfl

/-- The message a reader is left with; a malformed one leaves the defaults. -/
def parse (bs : Bytes) : Data := (decodeData (bs.length + 2) bs {}).getD {}

/-- Every message is read back from its wire format. -/
theorem parse_encodeData (d : Data) : parse (encodeData d) = d := by
  rcases d with ⟨id, data⟩
  rw [parse]
  have hnil (f : Nat) (e : Data) : decodeData f [] e = some e := by cases f <;> rfl
  cases id with
  | none =>
    by_cases hd : data = []
    · subst hd
      rfl
    · simp only [encodeData, if_neg hd, List.nil_append]
      rw [decodeData_data, Option.getD_some]
  | some id =>
    rw [encodeData]
    simp only
    rw [decodeData_id]
    by_cases hd : data = []
    · subst hd
      rw [if_pos rfl, hnil, Option.getD_some]
    · rw [if_neg hd, decodeData_data, Option.getD_some]

/-- The serialiser the generated code implements. -/
def wire : Protobuf where
  serializeAsString := encodeData
  parseFromString := parse
  parse_serialize := parse_encodeData

example : encodeData { id := some ⟨300, 1⟩, data := [7] } =
    [0x0A, 5, 0x08, 0xAC, 2, 0x10, 1, 0x12, 1, 7] := by decide

end TimeMachine.Store.Wire
