import TimeMachine.Client.DbClient
import TimeMachine.Base.Cursor
import TimeMachine.Base.Quota

/-!
# Range scans

`DbClient::Iter`: a seek that depends on the direction and the bounds of the request,
then a loop with five exits. The callback is known by the number of bytes it reports
for a record; what the scan does is the sequence of records it passes to the callback.
Next to it the other reads of several keys, `GetUniqueRangeForTS` and `GetBatch`.
-/

namespace TimeMachine.Client
open TimeMachine.Base TimeMachine.Store

/-- The `RangeRequest` message. -/
structure RangeRequest where
  from' : UInt64 := 0
  till : UInt64 := 0
  folder : String := ""
  reverse : Bool := false
  maxmessages : UInt64 := 0
  maxbytes : UInt64 := 0
  deriving DecidableEq, Repr

/-- The callback of a scan: the bytes it reports for a record, given a copy of the flag that
stops the scan. -/
abbrev Callback := ID → Data → Bool → UInt64

namespace DbClient

/-- `SeekForPrev`: on the last key that does not compare after the given one. -/
def seekForPrev (key : Slice) (entries : ColumnFamily) : Cursor (Slice × Bytes) :=
  Cursor.seekForPrev (fun e ↦ decide (IDComparator.compare e.1 key ≤ 0)) entries

/-- The key a scan seeks for: the start of its first bound in its direction. -/
def keyFrom (request : RangeRequest) : ID :=
  { timestamp := if request.reverse = false then request.from' else request.till }

/-- Where the scan starts; `src/DbClient.cpp:80–123`. A seek that ends invalid is followed by
another one. -/
def seek (request : RangeRequest) (entries : ColumnFamily) : Cursor (Slice × Bytes) :=
  if request.reverse = false ∧ request.from' = 0 then Cursor.seekToFirst entries
  else if request.reverse = true ∧ request.till = 0 then Cursor.seekToLast entries
  else
    (seekForPrev (serializeID (keyFrom request)) entries).or
      (if request.reverse = false then Cursor.seekToFirst entries
      else Cursor.seekToLast entries)

/-- The loop: the records passed to the callback; `src/DbClient.cpp:130–168`. The callback gets
`stopIteration` by value, so the flag stays as it is. -/
def iterLoop (pb : Protobuf) (request : RangeRequest) (fn : Callback) (stopIteration : Bool)
    (bytesSend messagesSend : UInt64) (iter : Cursor (Slice × Bytes)) : List (ID × Data) :=
  match iter with
  | none => []
  | some p =>
    let key := deserializeID p.current.1
    let step := Cursor.advance request.reverse p
    if stopIteration then []
    else if request.reverse = false ∧ request.till ≠ 0 ∧ request.till < key.timestamp then []
    else if request.reverse = true ∧ request.from' ≠ 0 ∧ request.from' ≥ key.timestamp then []
    else if request.reverse = false ∧ request.from' > key.timestamp then
      iterLoop pb request fn stopIteration bytesSend messagesSend step
    else if request.maxbytes ≠ 0 ∧ request.maxbytes ≤ bytesSend then []
    else if request.maxmessages ≠ 0 ∧ request.maxmessages ≤ messagesSend then []
    else
      let data := pb.parseFromString p.current.2
      let sent := fn key data stopIteration
      (key, data) ::
        iterLoop pb request fn stopIteration (bytesSend + sent) (messagesSend + 1) step
termination_by (Cursor.ahead request.reverse iter).length
decreasing_by all_goals rw [Cursor.ahead_advance]; exact Nat.lt_succ_self _

/-- The records a scan of the entries passes to the callback. -/
def scan (pb : Protobuf) (request : RangeRequest) (fn : Callback) (entries : ColumnFamily) :
    List (ID × Data) :=
  iterLoop pb request fn false 0 0 (seek request entries)

/-- `src/DbClient.cpp:75–171`. -/
def iter (pb : Protobuf) (cf : Option ColumnFamilyHandle) (request : RangeRequest)
    (fn : Callback) : ClientM (List (ID × Data)) := do
  let (_, entries) ← deref cf
  return scan pb request fn entries

/-- The unique number at an iterator, or zero; `src/DbClient.cpp:214–219,228–233`. -/
def uniqueAt (iter : Cursor (Slice × Bytes)) : UInt64 :=
  match iter with
  | some p => (deserializeID p.current.1).unique
  | none => 0

/-- The unique numbers at the two bounds of a period. -/
def uniqueRangeForTS (fromTs tillTs : UInt64) (entries : ColumnFamily) : UniqueRange :=
  { from' := uniqueAt (seekForPrev (serializeID { timestamp := fromTs }) entries)
    till := uniqueAt (seekForPrev (serializeID { timestamp := tillTs }) entries) }

/-- `src/DbClient.cpp:203–242`. -/
def getUniqueRangeForTS (cf : Option ColumnFamilyHandle) (fromTs tillTs : UInt64) :
    ClientM UniqueRange := do
  let (_, entries) ← deref cf
  return uniqueRangeForTS fromTs tillTs entries

/-- One key of a `MultiGet`: its status, and its value, which is empty on a miss. -/
def lookupKey (entries : ColumnFamily) (key : Slice) : Status × Bytes :=
  match OrderedStore.get IDComparator.compare key entries with
  | some val => (.ok, val)
  | none => (.failed "NotFound: ", [])

/-- `src/DbClient.cpp:68–73`. -/
def getBatch (cf : Option ColumnFamilyHandle) (keys : List Slice) :
    ClientM (List (Status × Bytes)) := do
  let (_, entries) ← deref cf
  return keys.map (lookupKey entries)

end DbClient
end TimeMachine.Client
