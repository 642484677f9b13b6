import TimeMachine.Server.SaveHandler

/-!
# The server process

One request at a time: a process that is down, with the data it left behind, or one
that runs a client. A start runs a constructor on the data; a running server answers
requests; a crash takes the process down and leaves the data. Starts are clean: each
finds every accepted write, logged or not.
-/

namespace TimeMachine.Server
open TimeMachine.Base TimeMachine.Store TimeMachine.Client

/-- The server and the storage engine under it. -/
inductive Process where
  | down (rocks : RocksDB)
  | running (client : DbClient)

/-- What can happen to the server. -/
inductive Event where
  | start (impl : Impl) (env : Env) (cfg : Config)
  | save (env : Env) (request : SaveRequest)
  | post (env : Env) (name : String) (query : List (String × String)) (body : Bytes)
  | create (env : Env) (name : String)
  | get (request : GetRequest)

/-- What the server answers. -/
inductive Reply where
  | none
  | saved (status : GrpcStatus) (response : ID)
  | http (response : HTTPServerResponse)
  | folder (cf : Option ColumnFamilyHandle)
  | got (status : GrpcStatus) (response : Data)
  | failed (failure : Failure)
  deriving DecidableEq, Repr

namespace Process

/-- The data of the process. -/
def rocks : Process → RocksDB
  | down rocks => rocks
  | running client => client.rocks

/-- Run client code in the process. -/
def call {α : Type} (p : Process) (x : ClientM α) (reply : α → Reply) : Process × Reply :=
  match p with
  | down rocks => (down rocks, .none)
  | running client =>
    match x.run client with
    | .ok a client => (running client, reply a)
    | .error (.exception what) client => (running client, .failed (.exception what))
    | .error .crash client => (down client.rocks, .failed .crash)

/-- The server's answer to an event. -/
def step (pb : Protobuf) (p : Process) : Event → Process × Reply
  | .start impl env cfg =>
    match DbClient.start impl env cfg p.rocks with
    | .ok () client => (running client, .none)
    | .error failure client => (down client.rocks, .failed failure)
  | .save env request =>
    p.call (GRPCServer.save pb env request) (fun r ↦ .saved r.1 r.2)
  | .post env name query body =>
    p.call (SaveHandler.handleRequest pb env (createSaveHandler name query) body) .http
  | .create env name => p.call (DbClient.getOrCreateColumnFamily env name) .folder
  | .get request => p.call (GRPCServer.get pb request) (fun r ↦ .got r.1 r.2)

/-- The server after a list of events. -/
def after (pb : Protobuf) (p : Process) (events : List Event) : Process :=
  events.foldl (fun p e ↦ (p.step pb e).1) p

/-- The server after one more event. -/
theorem after_concat (pb : Protobuf) (p : Process) (events : List Event) (e : Event) :
    p.after pb (events ++ [e]) = ((p.after pb events).step pb e).1 := by
  rw [after, List.foldl_append]
  rfl

/-- The events with the answers to them. -/
def trace (pb : Protobuf) (p : Process) : List Event → List (Event × Reply)
  | [] => []
  | e :: rest => (e, (p.step pb e).2) :: trace pb (p.step pb e).1 rest

/-- The trace of one more event. -/
theorem trace_concat (pb : Protobuf) (p : Process) (events : List Event) (e : Event) :
    p.trace pb (events ++ [e]) =
      p.trace pb events ++ [(e, ((p.after pb events).step pb e).2)] := by
  induction events generalizing p with
  | nil => rfl
  | cons e' rest ih => exact congrArg ((e', (p.step pb e').2) :: ·) (ih _)

end Process
end TimeMachine.Server
