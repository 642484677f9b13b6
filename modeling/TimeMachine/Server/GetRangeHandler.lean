import TimeMachine.Server.SaveHandler
import TimeMachine.Client.Iter
import TimeMachine.Base.BigEndian

/-!
# Range reads

`GetRange` over gRPC and `GetRangeHandler` over HTTP scan a folder with the same
`Iter`. The first writes the messages, the second writes a frame for each record: two
64-bit integers, the length of the payload and the payload, all big-endian. The HTTP
response is sent before the folder is looked up.
-/

namespace TimeMachine.Server
open TimeMachine.Base TimeMachine.Store TimeMachine.Client

/-- The frame of a record, as `Poco::BinaryWriter` writes it in network byte order;
`src/handlers/GetRangeHandler.cpp:83–91`, `src/handlers/SubsamplingHandler.cpp:128–136`. -/
def frame (key : ID) (body : Bytes) : Bytes :=
  -- an unsigned long as a long, and a size as an int
  let ts_ := key.timestamp.toInt64
  let unique_ := key.unique.toInt64
  let size_ := Int32.ofNat body.length
  longBytes ts_ ++ (longBytes unique_ ++ (intBytes size_ ++ body))

/-- The frames of records, one after the other. -/
def frames (records : List (ID × Data)) : Bytes := records.flatMap fun r ↦ frame r.1 r.2.data

/-- What the HTTP callback reports for a record: an `int` added to unsigned longs;
`src/handlers/GetRangeHandler.cpp:80–93`. -/
def frameSize : Callback := fun _ data _ ↦
  (Int32.ofNat data.data.length).toInt64.toUInt64 + 8 + 8 + 4

/-- The object that handles one range read; `src/handlers/GetRangeHandler.h`. -/
structure GetRangeHandler where
  name : String
  from' : UInt64 := 0
  till : UInt64 := 0
  maxMessages : UInt64 := 0
  maxBytes : UInt64 := 0
  reverse : Bool := false
  deriving DecidableEq, Repr

namespace GetRangeHandler
open DbClient

/-- The request handed to `Iter`, which leaves the folder empty;
`src/handlers/GetRangeHandler.cpp:70–75`. -/
def request (h : GetRangeHandler) : RangeRequest :=
  { from' := h.from', till := h.till, reverse := h.reverse
    maxmessages := h.maxMessages, maxbytes := h.maxBytes }

/-- `src/handlers/GetRangeHandler.cpp:37–98`: the response, and what was written to its
stream. -/
def handleRequest (pb : Protobuf) (h : GetRangeHandler) :
    ClientM (HTTPServerResponse × Bytes) := do
  let response := ({} : HTTPServerResponse).send
  match ← getColumnFamily h.name with
  | none => return (response.setStatus 404, [])
  | some cf =>
    let records ← iter pb (some cf) h.request frameSize
    return (response.setStatus 200, frames records)

end GetRangeHandler

namespace GRPCServer
open DbClient

/-- What a range read asks of `grpc::ServerContext`: whether the call is cancelled by the time a
record is passed to the callback. -/
structure ServerContext where
  isCancelled : ID → Bool

/-- The callback of a range read, which sets its own copy of the flag and reports the size of
the message; `src/GRPCServer.cpp:155–160`. -/
def rangeCallback (pb : Protobuf) (context : ServerContext) : Callback := fun key data stop ↦
  let _stop := if context.isCancelled key then true else stop
  UInt64.ofNat (pb.serializeAsString data).length

/-- `src/GRPCServer.cpp:146–166`: the status, and the messages written. -/
def getRange (pb : Protobuf) (context : ServerContext) (request : RangeRequest) :
    ClientM (GrpcStatus × List Data) :=
  performIfExists [] request.folder fun cf ↦ do
    let records ← iter pb (some cf) request (rangeCallback pb context)
    return (.OK, records.map Prod.snd)

end GRPCServer
end TimeMachine.Server
