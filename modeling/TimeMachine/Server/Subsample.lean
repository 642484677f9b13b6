import TimeMachine.Server.GetRangeHandler
import TimeMachine.Base.Countdown
import Mathlib.Data.Rat.Defs

/-!
# Subsampling

`GetSubsample` over gRPC and `SubsamplingHandler` over HTTP draw unique numbers with
`rand()` from the range of a folder and look them up in batches, by unique number
alone. The two share the batch loop, word for word; they differ in the types the range
passes through, in what they write, and in when the status is set. Each batch keeps its
keys in a buffer on the stack, which is taken to have room for every size that is an
`int`. The arithmetic on
`double` is exact up to a rounding `rnd` of each result, which is a parameter; a lookup
that finds nothing leaves an empty string, which is parsed like any other.
-/

namespace TimeMachine.Server
open TimeMachine.Base TimeMachine.Store TimeMachine.Client DbClient

/-! ### The batch loop -/

/-- `RAND_MAX`. -/
def randMax : Nat := 2 ^ 31 - 1

/-- A result of `rand()`. -/
abbrev Rand := Fin (2 ^ 31)

/-- The step of the batch loop; `src/GRPCServer.cpp:191–199`,
`src/handlers/SubsamplingHandler.cpp:74–81`. -/
def stepOf (amount batchSize : UInt32) : Int :=
  let step := batchSize.toInt32
  let step := if step = 0 then 100 else step
  -- compared with an unsigned number, the step is taken for unsigned
  if step.toUInt32 > amount then amount.toInt32.toInt else step.toInt

/-- A `double` converted to `unsigned long`: truncated, a negative one wrapping around. -/
def toULong (x : ℚ) : UInt64 := UInt64.ofInt (x.num.tdiv x.den)

/-- A number that is an `int`. -/
def IsInt (i : Int) : Prop := -2 ^ 31 ≤ i ∧ i < 2 ^ 31

instance (i : Int) : Decidable (IsInt i) := inferInstanceAs (Decidable (_ ∧ _))

/-- The size of the buffer for the keys of a batch; `src/GRPCServer.cpp:214`,
`src/handlers/SubsamplingHandler.cpp:96`. -/
def bufferSize (step : Int) : Int32 := 16 * Int32.ofInt step

/-- Where in the buffer a key is written; `src/GRPCServer.cpp:226`,
`src/handlers/SubsamplingHandler.cpp:109`. -/
def keyOffset (j : Int) : Int := j * 16

/-- The keys of one batch; `src/GRPCServer.cpp:214–230`,
`src/handlers/SubsamplingHandler.cpp:96–113`. -/
def drawKeys (draw : Rand → UInt64) (rand : Nat → Rand) (drawn step : Nat) : List Slice :=
  (List.range step).map fun j ↦
    serializeID { timestamp := 0, unique := draw (rand (drawn + j)) }

/-- The messages of the batches, one for each status whatever it is, after `drawn` calls of
`rand()`; `src/GRPCServer.cpp:214–247`, `src/handlers/SubsamplingHandler.cpp:96–138`. A buffer
whose size is no `int` is undefined behaviour. -/
def batches (pb : Protobuf) (cf : ColumnFamilyHandle) (draw : Rand → UInt64) (rand : Nat → Rand)
    (step : Nat) : List Int → Nat → ClientM (List Data)
  | [], _ => return []
  | _ :: rest, drawn =>
    if IsInt (16 * step) then do
      let statuses ← getBatch (some cf) (drawKeys draw rand drawn step)
      let later ← batches pb cf draw rand step rest (drawn + step)
      return statuses.map (fun s ↦ pb.parseFromString s.2) ++ later
    else throw .crash

/-- The batch loop; `src/GRPCServer.cpp:191–248`, `src/handlers/SubsamplingHandler.cpp:74–139`.
A loop that does not end is a crash. -/
def batchLoop (pb : Protobuf) (cf : ColumnFamilyHandle) (draw : Rand → UInt64)
    (rand : Nat → Rand) (amount batchSize : UInt32) : ClientM (List Data) :=
  let step := stepOf amount batchSize
  match countdown step amount.toInt32.toInt with
  | none => throw .crash
  | some is => batches pb cf draw rand step.toNat is 0

/-! ### gRPC -/

/-- The `SubsampleRequest` message; without a period the whole folder is sampled. -/
structure SubsampleRequest where
  amount : UInt32 := 0
  folder : String := ""
  batchSize : UInt32 := 0
  periodRequest : Option (UInt64 × UInt64) := none
  deriving DecidableEq, Repr

namespace GRPCServer

/-- The unique number looked up for a result of `rand()`; `src/GRPCServer.cpp:175–176,217`. The
bounds are truncated to `int` and subtracted there. -/
def draw (rnd : ℚ → ℚ) (range : UniqueRange) (r : Rand) : UInt64 :=
  let till := range.till.toInt64.toInt32
  let from' := range.from'.toInt64.toInt32
  toULong (rnd (rnd ((till - from').toInt * rnd (r.val / randMax)) + from'.toInt))

/-- The range a subsample draws from; `src/GRPCServer.cpp:178–189`. -/
def sampledRange (request : SubsampleRequest) (cf : ColumnFamilyHandle) : ClientM UniqueRange :=
  match request.periodRequest with
  | some (from', till) => getUniqueRangeForTS (some cf) from' till
  | none => getUniqueRange (some cf)

/-- The messages of a subsample of a folder; `src/GRPCServer.cpp:175–248`. -/
def sample (pb : Protobuf) (rnd : ℚ → ℚ) (rand : Nat → Rand) (request : SubsampleRequest)
    (cf : ColumnFamilyHandle) : ClientM (List Data) := do
  let range ← sampledRange request cf
  batchLoop pb cf (draw rnd range) rand request.amount request.batchSize

/-- `src/GRPCServer.cpp:168–254`: the status, and the messages written. -/
def getSubsample (pb : Protobuf) (rnd : ℚ → ℚ) (rand : Nat → Rand)
    (request : SubsampleRequest) : ClientM (GrpcStatus × List Data) :=
  performIfExists [] request.folder fun cf ↦ do
    let written ← sample pb rnd rand request cf
    return (.OK, written)

end GRPCServer

/-! ### HTTP -/

/-- The object that handles one subsample; `src/handlers/SubsamplingHandler.h`. -/
structure SubsamplingHandler where
  name : String
  from' : UInt64 := 0
  till : UInt64 := 0
  amount : UInt32 := 0
  batchSize : UInt32 := 100
  deriving DecidableEq, Repr

namespace SubsamplingHandler

/-- The unique number looked up for a result of `rand()`;
`src/handlers/SubsamplingHandler.cpp:101`. -/
def draw (rnd : ℚ → ℚ) (range : UniqueRange) (r : Rand) : UInt64 :=
  let width := range.till - range.from'
  toULong (rnd (rnd (rnd width.toNat * rnd (r.val / randMax)) + rnd range.from'.toNat))

/-- The range a subsample draws from; `src/handlers/SubsamplingHandler.cpp:50–70`. -/
def sampledRange (h : SubsamplingHandler) (cf : ColumnFamilyHandle) : ClientM UniqueRange :=
  if h.from' = 0 ∧ h.till = 0 then getUniqueRange (some cf)
  else getUniqueRangeForTS (some cf) h.from' h.till

/-- The messages of a subsample of a folder; `src/handlers/SubsamplingHandler.cpp:50–139`. -/
def sample (pb : Protobuf) (rnd : ℚ → ℚ) (rand : Nat → Rand) (h : SubsamplingHandler)
    (cf : ColumnFamilyHandle) : ClientM (List Data) := do
  let range ← sampledRange h cf
  batchLoop pb cf (draw rnd range) rand h.amount h.batchSize

/-- `src/handlers/SubsamplingHandler.cpp:25–143`: the response, and what was written to its
stream. A message without an identifier is framed with zeros. -/
def handleRequest (pb : Protobuf) (rnd : ℚ → ℚ) (rand : Nat → Rand) (h : SubsamplingHandler) :
    ClientM (HTTPServerResponse × Bytes) := do
  let found ← getColumnFamily h.name
  let response := ({} : HTTPServerResponse).send
  match found with
  | none => return (response.setStatus 404, [])
  | some cf =>
    let written ← sample pb rnd rand h cf
    return (response.setStatus 200, frames (written.map fun data ↦ (data.id.getD {}, data)))

end SubsamplingHandler
end TimeMachine.Server
