import TimeMachine.Server.HandlerFactory
import TimeMachine.Server.Process
import TimeMachine.Store.Wire

/-!
# The service

Everything a client can ask of the server: the four methods of the gRPC service, and
the HTTP requests, which the factory takes to one of seven handlers. A start or a call is
answered as the process answers the event it stands for, if it stands for one; the
calls that stand for none only read.
-/

namespace TimeMachine.Server
open TimeMachine.Base TimeMachine.Store TimeMachine.Client

/-- The code the service is linked with: the generated messages, the rounding of a `double`, and
the JSON text Poco writes for a string. -/
structure Libraries where
  pb : Protobuf
  rnd : ℚ → ℚ
  quote : String → String

/-- Messages in the wire format, exact arithmetic, and names without a character to escape. -/
def Libraries.wire : Libraries where
  pb := Wire.wire
  rnd := id
  quote := fun name ↦ "\"" ++ name ++ "\""

/-! ### Handlers that take nothing from the request -/

/-- `src/handlers/InfoHandler.cpp:18–26`. -/
def InfoHandler.handleRequest : HTTPServerResponse :=
  (({} : HTTPServerResponse).send.write "reqstore").setStatus 200

/-- `src/handlers/HealthHandler.cpp:14–22`. -/
def HealthHandler.handleRequest : HTTPServerResponse :=
  (({} : HTTPServerResponse).send.write "OK").setStatus 200

/-- `src/handlers/NotFoundHandler.cpp:19–25`. -/
def NotFoundHandler.handleRequest : HTTPServerResponse :=
  (({} : HTTPServerResponse).send.write "Page Not Found").setStatus 404

namespace StatusHandler

/-- `handle->GetName()`. A handle of an instance that is not the open one is undefined
behaviour. -/
def getName (handle : ColumnFamilyHandle) : ClientM String := do
  let s ← get
  if s.db = some handle.db then return handle.name else throw .crash

/-- `Poco::JSON::Array::stringify`. -/
def jsonArray (quote : String → String) (names : List String) : String :=
  "[" ++ ",".intercalate (names.map quote) ++ "]"

/-- `src/handlers/StatusHandler.cpp:21–46`. -/
def handleRequest (quote : String → String) : ClientM HTTPServerResponse := do
  let response := ({} : HTTPServerResponse).send
  let s ← get
  let names ← s.handles.mapM getName
  return (response.write (jsonArray quote names)).setStatus 200

end StatusHandler

/-! ### Calls -/

/-- What a client can ask for, with what the call finds in its environment: the clock and the
outcomes of RocksDB for a write, the results of `rand()` for a subsample. -/
inductive Call where
  | save (env : Env) (request : SaveRequest)
  | get (request : GetRequest)
  | getRange (context : GRPCServer.ServerContext) (request : RangeRequest)
  | getSubsample (rand : Nat → Rand) (request : SubsampleRequest)
  | http (env : Env) (rand : Nat → Rand) (request : HTTPServerRequest) (body : Bytes)

/-- What a client gets: the status with the message or the messages, the HTTP response with the
bytes written to its stream, or a connection closed by an exception that left the factory. -/
inductive Answer where
  | saved (status : GrpcStatus) (response : ID)
  | got (status : GrpcStatus) (response : Data)
  | written (status : GrpcStatus) (messages : List Data)
  | http (response : HTTPServerResponse) (stream : Bytes)
  | closed
  deriving DecidableEq, Repr

/-- The handler of an HTTP request. -/
def Handler.handleRequest (lib : Libraries) (env : Env) (rand : Nat → Rand) (body : Bytes) :
    Handler → ClientM Answer
  | .info => return .http InfoHandler.handleRequest []
  | .status => return .http (← StatusHandler.handleRequest lib.quote) []
  | .save handler => return .http (← handler.handleRequest lib.pb env body) []
  | .subsampling handler => do
    let (response, stream) ← handler.handleRequest lib.pb lib.rnd rand
    return .http response stream
  | .getRange handler => do
    let (response, stream) ← handler.handleRequest lib.pb
    return .http response stream
  | .health => return .http HealthHandler.handleRequest []
  | .notFound => return .http NotFoundHandler.handleRequest []

/-- The code a call runs. -/
def Call.serve (lib : Libraries) : Call → ClientM Answer
  | .save env request => do
    let (status, response) ← GRPCServer.save lib.pb env request
    return .saved status response
  | .get request => do
    let (status, response) ← GRPCServer.get lib.pb request
    return .got status response
  | .getRange context request => do
    let (status, messages) ← GRPCServer.getRange lib.pb context request
    return .written status messages
  | .getSubsample rand request => do
    let (status, messages) ← GRPCServer.getSubsample lib.pb lib.rnd rand request
    return .written status messages
  | .http env rand request body =>
    match HandlerFactory.createRequestHandler request with
    | some handler => handler.handleRequest lib env rand body
    | none => return .closed

/-- What can happen to the service. -/
inductive ServiceEvent where
  | start (impl : Impl) (env : Env) (cfg : Config)
  | call (c : Call)

/-- What the server answers to an event of the service. -/
inductive Response where
  | none
  | answer (a : Answer)
  | failed (failure : Failure)
  deriving DecidableEq, Repr

namespace Process

/-- Run a call in the process. -/
def ask (lib : Libraries) (p : Process) (c : Call) : Process × Response :=
  match p with
  | down rocks => (down rocks, .none)
  | running client =>
    match (c.serve lib).run client with
    | .ok a client => (running client, .answer a)
    | .error (.exception what) client => (running client, .failed (.exception what))
    | .error .crash client => (down client.rocks, .failed .crash)

/-- The process runs a client. -/
def isRunning : Process → Bool
  | running _ => true
  | down _ => false

/-- A process that runs is one with a client. -/
theorem exists_running {p : Process} (h : p.isRunning = true) : ∃ client, p = running client := by
  cases p with
  | running client => exact ⟨client, rfl⟩
  | down rocks => cases h

/-- The server's answer to an event of the service. -/
def serve (lib : Libraries) (p : Process) : ServiceEvent → Process × Response
  | .start impl env cfg =>
    match DbClient.start impl env cfg p.rocks with
    | .ok () client => (running client, .none)
    | .error failure client => (down client.rocks, .failed failure)
  | .call c => p.ask lib c

/-- The server after a list of events of the service. -/
def afterAll (lib : Libraries) (p : Process) (events : List ServiceEvent) : Process :=
  events.foldl (fun p e ↦ (p.serve lib e).1) p

/-- The server after more events. -/
theorem afterAll_append (lib : Libraries) (p : Process) (events later : List ServiceEvent) :
    p.afterAll lib (events ++ later) = (p.afterAll lib events).afterAll lib later :=
  List.foldl_append

/-- The events with the answers to them. -/
def log (lib : Libraries) (p : Process) : List ServiceEvent → List (ServiceEvent × Response)
  | [] => []
  | e :: rest => (e, (p.serve lib e).2) :: log lib (p.serve lib e).1 rest

end Process

/-! ### The events of the process behind them -/

/-- The event a call stands for; none of those that read other than through `Get`. -/
def Call.event : Call → Option Event
  | .save env request => some (.save env request)
  | .get request => some (.get request)
  | .getRange .. => none
  | .getSubsample .. => none
  | .http env _ request body =>
    match HandlerFactory.route request with
    | .put => some (.post env (request.path.get 0) request.queryParameters body)
    | _ => none

/-- The event of the process an event of the service stands for. -/
def ServiceEvent.event : ServiceEvent → Option Event
  | .start impl env cfg => some (.start impl env cfg)
  | .call c => c.event

/-- The reply of the process an answer stands for. -/
def Response.reply : Response → Reply
  | .answer (.saved status response) => .saved status response
  | .answer (.got status response) => .got status response
  | .answer (.http response _) => .http response
  | .failed failure => .failed failure
  | .answer (.written ..) | .answer .closed | .none => .none

end TimeMachine.Server
