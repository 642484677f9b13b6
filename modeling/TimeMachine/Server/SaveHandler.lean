import TimeMachine.Server.GRPCServer
import TimeMachine.Base.Strtol

/-!
# The HTTP put

`POST /<name>/put` builds a `SaveHandler` from the query parameters and runs it. The
handler generates the identifier before it looks the folder up, and sends the response
header before it does anything: only the status set by then reaches the client.
-/

namespace TimeMachine.Server
open TimeMachine.Base TimeMachine.Store TimeMachine.Client

/-- `Poco::Net::HTTPServerResponse`: the status, the status line already sent, the body. -/
structure HTTPServerResponse where
  status : Nat := 200
  statusLine : Option Nat := none
  body : String := ""
  deriving DecidableEq, Repr

namespace HTTPServerResponse

/-- `setStatus`. -/
def setStatus (r : HTTPServerResponse) (status : Nat) : HTTPServerResponse :=
  { r with status := status }

/-- `send`: the header is written once. -/
def send (r : HTTPServerResponse) : HTTPServerResponse :=
  { r with statusLine := r.statusLine.or (some r.status) }

/-- Output to the stream `send` returned. -/
def write (r : HTTPServerResponse) (text : String) : HTTPServerResponse :=
  { r with body := r.body ++ text }

end HTTPServerResponse

/-- The object that handles one put; `src/handlers/SaveHandler.h`. -/
structure SaveHandler where
  name : String
  wopt : WriteOptions := {}
  timestamp : UInt64 := 0
  deriving DecidableEq, Repr

/-- One query parameter of the put route; `src/handlers/HandlerFactory.cpp:48–65`. -/
def queryStep (acc : Bool × UInt64) (kv : String × String) : Bool × UInt64 :=
  let useWAL := if kv.1 = "useWAL" ∧ (kv.2 = "true" ∨ kv.2 = "1") then true else acc.1
  let maibeTimestamp :=
    if kv.1 = "timestamp" then
      match Strtol.stol kv.2 with
      -- a long assigned to an unsigned long
      | some n => UInt64.ofInt n
      | none => acc.2
    else acc.2
  (useWAL, maibeTimestamp)

/-- The put route; `src/handlers/HandlerFactory.cpp:39–68`. -/
def createSaveHandler (name : String) (query : List (String × String)) : SaveHandler :=
  let (useWAL, maibeTimestamp) := query.foldl queryStep (false, 0)
  { name, wopt := { disableWAL := !useWAL }, timestamp := maibeTimestamp }

namespace SaveHandler
open DbClient

/-- The JSON object with the identifier. -/
def jsonID (id : ID) : String :=
  "\x7b\"ts\":" ++ toString id.timestamp.toNat ++ ",\"uniq\":" ++ toString id.unique.toNat ++ "\x7d"

/-- The response to an exception; `src/handlers/SaveHandler.cpp:93–98`. -/
def caught (response : HTTPServerResponse) : Failure → ClientM HTTPServerResponse
  | .exception what => return (response.send.write what).setStatus 500
  | .crash => throw .crash

/-- `src/handlers/SaveHandler.cpp:29–103`. -/
def handleRequest (pb : Protobuf) (env : Env) (h : SaveHandler) (body : Bytes) :
    ClientM HTTPServerResponse :=
  let response := ({} : HTTPServerResponse).send
  tryCatch (do
    let id ← generateId env h.name h.timestamp
    let data : Data := { id := some id, data := body }
    let cf ← getOrCreateColumnFamily env h.name
    let putStatus ← put env.put h.wopt cf (serializeID id) (pb.serializeAsString data)
    let response := (response.write (jsonID id)).setStatus 200
    return if putStatus.isOk = false then response.setStatus 200 else response)
    (caught response)

end SaveHandler
end TimeMachine.Server
