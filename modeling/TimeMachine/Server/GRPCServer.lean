import TimeMachine.Client.DbClient

/-!
# The gRPC service

`Save` and `Get`. A handler obtains a handle and then acts on it; a `std::exception`
from either becomes the status `INTERNAL` with its text. The response message is what
the handler wrote before it returned, so a failed `Save` answers with an empty `ID`.
-/

namespace TimeMachine.Server
open TimeMachine.Base TimeMachine.Store TimeMachine.Client

/-- The status codes the service answers with. -/
inductive StatusCode where
  | OK
  | NOT_FOUND
  | INTERNAL
  deriving DecidableEq, Repr

/-- `grpc::Status`. -/
structure GrpcStatus where
  code : StatusCode
  message : String := ""
  deriving DecidableEq, Repr

/-- `grpc::Status::OK`. -/
def GrpcStatus.OK : GrpcStatus := { code := .OK }

/-- The `SaveRequest` message. -/
structure SaveRequest where
  folder : String := ""
  useWAL : Bool := false
  data : Bytes := []
  timestamp : UInt64 := 0
  deriving DecidableEq, Repr

/-- The `GetRequest` message. -/
structure GetRequest where
  timestamp : UInt64 := 0
  unique : UInt64 := 0
  folder : String := ""
  deriving DecidableEq, Repr

/-- The message `Save` puts into the database: the payload under its identifier. -/
def SaveRequest.message (request : SaveRequest) (id : ID) : Data :=
  { id := some id, data := request.data }

/-- `rocksdb::WriteOptions` for a request. -/
def SaveRequest.wopt (request : SaveRequest) : WriteOptions := { disableWAL := !request.useWAL }

namespace GRPCServer
open DbClient

/-- What both `catch` clauses make of a failure. Nothing but `std::exception`s is thrown,
and a crash is not caught. -/
def caught {ρ : Type} (response : ρ) : Failure → ClientM (GrpcStatus × ρ)
  | .exception what =>
    return ({ code := .INTERNAL, message := "Ouch!, something wrong: " ++ what }, response)
  | .crash => throw .crash

/-- `src/GRPCServer.cpp:22–43`. -/
def performIfExists {ρ : Type} (response : ρ) (baseName : String)
    (fn : ColumnFamilyHandle → ClientM (GrpcStatus × ρ)) : ClientM (GrpcStatus × ρ) :=
  tryCatch (do
    match ← getColumnFamily baseName with
    | none =>
      return ({ code := .NOT_FOUND
                message := "Column family with name " ++ baseName ++ " doesn't exists" }, response)
    | some cf => fn cf) (caught response)

/-- `src/GRPCServer.cpp:45–63`. -/
def perform {ρ : Type} (response : ρ) (env : Env) (baseName : String)
    (fn : Option ColumnFamilyHandle → ClientM (GrpcStatus × ρ)) : ClientM (GrpcStatus × ρ) :=
  tryCatch (do fn (← getOrCreateColumnFamily env baseName)) (caught response)

/-- The action of `Save`; `src/GRPCServer.cpp:73–105`. -/
def saveAction (pb : Protobuf) (env : Env) (request : SaveRequest)
    (cf : Option ColumnFamilyHandle) : ClientM (GrpcStatus × ID) := do
  let id ← generateId env request.folder request.timestamp
  let putStatus ← put env.put request.wopt cf (serializeID id)
    (pb.serializeAsString (request.message id))
  if putStatus.isOk = false then
    return ({ code := .INTERNAL, message := "Something wrong :( " ++ putStatus.toString }, {})
  return (.OK, id)

/-- `src/GRPCServer.cpp:70–110`. -/
def save (pb : Protobuf) (env : Env) (request : SaveRequest) : ClientM (GrpcStatus × ID) :=
  perform {} env request.folder (saveAction pb env request)

/-- The action of `Get`; `src/GRPCServer.cpp:114–141`. -/
def getAction (pb : Protobuf) (request : GetRequest) (cf : ColumnFamilyHandle) :
    ClientM (GrpcStatus × Data) := do
  let (getStatus, data) ← DbClient.get (some cf)
    (serializeID { timestamp := request.timestamp, unique := request.unique })
  if getStatus.isOk = false then
    return ({ code := .INTERNAL, message := "Something wrong :( " ++ getStatus.toString }, {})
  return (.OK, pb.parseFromString data)

/-- `src/GRPCServer.cpp:112–144`. -/
def get (pb : Protobuf) (request : GetRequest) : ClientM (GrpcStatus × Data) :=
  performIfExists {} request.folder (getAction pb request)

end GRPCServer
end TimeMachine.Server
