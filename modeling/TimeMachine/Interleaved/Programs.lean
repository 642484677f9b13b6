import TimeMachine.Server.Service
import TimeMachine.Base.Threads

/-!
# The programs of the requests

What serves a request, as a program of the steps that other requests can fall between:
each method of the client that takes the lock is one step, and with it a whole scan and
all lookups of a batch. So are the clock, `fetch_add`, the reading of a unique range and
the status page, which take no lock. A handle is used as it was obtained, and the use of
one whose instance was closed since is undefined behaviour. Run alone, each program is the
code that serves the call.
-/

namespace TimeMachine.Interleaved
open TimeMachine.Base TimeMachine.Base.StateError TimeMachine.Store TimeMachine.Client
open TimeMachine.Server

/-- What is recorded of the steps: the time a clock showed, the creation of a folder, and a write
that RocksDB reported as done. -/
inductive Effect where
  | clocked (now : UInt64)
  | created (folder : String)
  | wrote (folder : String) (id : ID) (message : Data)
  deriving DecidableEq, Repr

/-- A program on the client. -/
abbrev Program := Steps Env Failure DbClient Effect

/-- A step of which nothing is recorded. -/
def quiet {α : Type} (x : ClientM α) : Program α := .atomic (fun _ ↦ x) fun _ ↦ []

/-! ### The client -/

/-- `src/DbClient.cpp:285–300`, under the shared lock. -/
def getColumnFamily (name : String) : Program (Option ColumnFamilyHandle) :=
  quiet (DbClient.getColumnFamily name)

/-- `src/LocalDBClient.cpp:76–117`, `src/CloudDBClient.cpp:105–151`, under the exclusive lock. -/
def createColumnFamily (name : String) : Program (Option ColumnFamilyHandle) :=
  .atomic (fun env ↦ DbClient.createColumnFamily env name) fun _ ↦ [.created name]

/-- `src/DbClient.cpp:302–312`. -/
def getOrCreateColumnFamily (name : String) : Program (Option ColumnFamilyHandle) := do
  let found ← getColumnFamily name
  if found.isSome then return found
  else
    let _ ← createColumnFamily name
    getColumnFamily name

/-- `std::chrono::system_clock::now()`. -/
def clock : Program UInt64 := .atomic (fun env ↦ return env.now) fun now ↦ [.clocked now]

/-- `src/DbClient.cpp:40–54`. -/
def generateId (folder : String) (ts : UInt64) : Program ID := do
  let timestamp ← (if ts = 0 then clock else pure ts : Program UInt64)
  let _ ← getOrCreateColumnFamily folder
  let unique ← quiet (DbClient.fetchAdd folder)
  return { timestamp, unique }

/-- `src/DbClient.cpp:62–66`, under the shared lock, of a message that is sent to a folder. -/
def put (pb : Protobuf) (wopt : WriteOptions) (cf : Option ColumnFamilyHandle) (folder : String)
    (id : ID) (message : Data) : Program Status :=
  .atomic
    (fun env ↦ DbClient.put env.put wopt cf (serializeID id) (pb.serializeAsString message))
    fun putStatus ↦ if putStatus.isOk then [.wrote folder id message] else []

/-! ### gRPC -/

namespace GRPCServer

/-- What both `catch` clauses make of a failure. -/
def caught {ρ : Type} (response : ρ) : Failure → Option (GrpcStatus × ρ)
  | .exception what =>
    some ({ code := .INTERNAL, message := "Ouch!, something wrong: " ++ what }, response)
  | .crash => none

/-- `src/GRPCServer.cpp:22–43`. -/
def performIfExists {ρ : Type} (response : ρ) (baseName : String)
    (fn : ColumnFamilyHandle → Program (GrpcStatus × ρ)) : Program (GrpcStatus × ρ) :=
  Steps.caught (caught response) do
    match ← getColumnFamily baseName with
    | none =>
      return ({ code := .NOT_FOUND
                message := "Column family with name " ++ baseName ++ " doesn't exists" }, response)
    | some cf => fn cf

/-- `src/GRPCServer.cpp:45–63`. -/
def perform {ρ : Type} (response : ρ) (baseName : String)
    (fn : Option ColumnFamilyHandle → Program (GrpcStatus × ρ)) : Program (GrpcStatus × ρ) :=
  Steps.caught (caught response) do fn (← getOrCreateColumnFamily baseName)

/-- The action of `Save`; `src/GRPCServer.cpp:73–105`. -/
def saveAction (pb : Protobuf) (request : SaveRequest) (cf : Option ColumnFamilyHandle) :
    Program (GrpcStatus × ID) := do
  let id ← generateId request.folder request.timestamp
  let putStatus ← put pb request.wopt cf request.folder id (request.message id)
  if putStatus.isOk = false then
    return ({ code := .INTERNAL, message := "Something wrong :( " ++ putStatus.toString }, {})
  else return (.OK, id)

/-- `src/GRPCServer.cpp:70–110`. -/
def save (pb : Protobuf) (request : SaveRequest) : Program (GrpcStatus × ID) :=
  perform {} request.folder (saveAction pb request)

/-- `src/GRPCServer.cpp:112–144`. -/
def get (pb : Protobuf) (request : GetRequest) : Program (GrpcStatus × Data) :=
  performIfExists {} request.folder fun cf ↦ quiet (Server.GRPCServer.getAction pb request cf)

/-- `src/GRPCServer.cpp:146–166`. -/
def getRange (pb : Protobuf) (context : Server.GRPCServer.ServerContext) (request : RangeRequest) :
    Program (GrpcStatus × List Data) :=
  performIfExists [] request.folder fun cf ↦ do
    let records ← quiet
      (DbClient.iter pb (some cf) request (Server.GRPCServer.rangeCallback pb context))
    return (.OK, records.map Prod.snd)

end GRPCServer

/-! ### Subsampling -/

/-- The batches of a subsample, one step each. -/
def batches (pb : Protobuf) (cf : ColumnFamilyHandle) (draw : Rand → UInt64) (rand : Nat → Rand)
    (step : Nat) : List Int → Nat → Program (List Data)
  | [], _ => return []
  | _ :: rest, drawn =>
    if IsInt (16 * step) then do
      let statuses ← quiet (DbClient.getBatch (some cf) (drawKeys draw rand drawn step))
      let later ← batches pb cf draw rand step rest (drawn + step)
      return statuses.map (fun s ↦ pb.parseFromString s.2) ++ later
    else quiet (throw .crash)

/-- `src/GRPCServer.cpp:191–248`, `src/handlers/SubsamplingHandler.cpp:74–139`. -/
def batchLoop (pb : Protobuf) (cf : ColumnFamilyHandle) (draw : Rand → UInt64)
    (rand : Nat → Rand) (amount batchSize : UInt32) : Program (List Data) :=
  let step := stepOf amount batchSize
  match countdown step amount.toInt32.toInt with
  | none => quiet (throw .crash)
  | some is => batches pb cf draw rand step.toNat is 0

/-- `src/GRPCServer.cpp:168–254`. -/
def GRPCServer.getSubsample (pb : Protobuf) (rnd : ℚ → ℚ) (rand : Nat → Rand)
    (request : SubsampleRequest) : Program (GrpcStatus × List Data) :=
  performIfExists [] request.folder fun cf ↦ do
    let range ← quiet (Server.GRPCServer.sampledRange request cf)
    let written ← batchLoop pb cf (Server.GRPCServer.draw rnd range) rand request.amount
      request.batchSize
    return (.OK, written)

/-! ### HTTP -/

/-- The response to an exception; `src/handlers/SaveHandler.cpp:93–98`. -/
def SaveHandler.caught (response : HTTPServerResponse) : Failure → Option HTTPServerResponse
  | .exception what => some ((response.send.write what).setStatus 500)
  | .crash => none

/-- `src/handlers/SaveHandler.cpp:29–103`. -/
def SaveHandler.handleRequest (pb : Protobuf) (h : Server.SaveHandler) (body : Bytes) :
    Program HTTPServerResponse :=
  let response := ({} : HTTPServerResponse).send
  Steps.caught (caught response) do
    let id ← generateId h.name h.timestamp
    let data : Data := { id := some id, data := body }
    let cf ← getOrCreateColumnFamily h.name
    let putStatus ← put pb h.wopt cf h.name id data
    let response := (response.write (Server.SaveHandler.jsonID id)).setStatus 200
    return if putStatus.isOk = false then response.setStatus 200 else response

/-- `src/handlers/GetRangeHandler.cpp:37–98`. -/
def GetRangeHandler.handleRequest (pb : Protobuf) (h : Server.GetRangeHandler) :
    Program (HTTPServerResponse × Bytes) := do
  let response := ({} : HTTPServerResponse).send
  match ← getColumnFamily h.name with
  | none => return (response.setStatus 404, [])
  | some cf =>
    let records ← quiet (DbClient.iter pb (some cf) h.request frameSize)
    return (response.setStatus 200, frames records)

/-- `src/handlers/SubsamplingHandler.cpp:25–143`. -/
def SubsamplingHandler.handleRequest (pb : Protobuf) (rnd : ℚ → ℚ) (rand : Nat → Rand)
    (h : Server.SubsamplingHandler) : Program (HTTPServerResponse × Bytes) := do
  let found ← getColumnFamily h.name
  let response := ({} : HTTPServerResponse).send
  match found with
  | none => return (response.setStatus 404, [])
  | some cf =>
    let range ← quiet (h.sampledRange cf)
    let written ← batchLoop pb cf (Server.SubsamplingHandler.draw rnd range) rand h.amount
      h.batchSize
    return (response.setStatus 200, frames (written.map fun data ↦ (data.id.getD {}, data)))

/-- The handler of an HTTP request. -/
def handleRequest (lib : Libraries) (rand : Nat → Rand) (body : Bytes) : Handler → Program Answer
  | .info => return .http InfoHandler.handleRequest []
  | .status => return .http (← quiet (StatusHandler.handleRequest lib.quote)) []
  | .save handler => return .http (← SaveHandler.handleRequest lib.pb handler body) []
  | .subsampling handler => do
    let (response, stream) ← SubsamplingHandler.handleRequest lib.pb lib.rnd rand handler
    return .http response stream
  | .getRange handler => do
    let (response, stream) ← GetRangeHandler.handleRequest lib.pb handler
    return .http response stream
  | .health => return .http HealthHandler.handleRequest []
  | .notFound => return .http NotFoundHandler.handleRequest []

/-! ### Requests -/

/-- What a client can ask for. The clock and the outcomes of RocksDB are those of the steps. -/
inductive Incoming where
  | save (request : SaveRequest)
  | get (request : GetRequest)
  | getRange (context : Server.GRPCServer.ServerContext) (request : RangeRequest)
  | getSubsample (rand : Nat → Rand) (request : SubsampleRequest)
  | http (rand : Nat → Rand) (request : HTTPServerRequest) (body : Bytes)

/-- The call, if all its steps find one environment. -/
def Incoming.call (env : Env) : Incoming → Call
  | save request => .save env request
  | get request => .get request
  | getRange context request => .getRange context request
  | getSubsample rand request => .getSubsample rand request
  | http rand request body => .http env rand request body

/-- The request draws a subsample. -/
def Incoming.Samples : Incoming → Prop
  | .getSubsample .. => True
  | .http _ request _ =>
    match HandlerFactory.createRequestHandler request with
    | some (.subsampling _) => True
    | _ => False
  | .save _ | .get _ | .getRange .. => False

/-- The program that serves a request. -/
def serve (lib : Libraries) : Incoming → Program Answer
  | .save request => do
    let (status, response) ← GRPCServer.save lib.pb request
    return .saved status response
  | .get request => do
    let (status, response) ← GRPCServer.get lib.pb request
    return .got status response
  | .getRange context request => do
    let (status, messages) ← GRPCServer.getRange lib.pb context request
    return .written status messages
  | .getSubsample rand request => do
    let (status, messages) ← GRPCServer.getSubsample lib.pb lib.rnd rand request
    return .written status messages
  | .http rand request body =>
    match HandlerFactory.createRequestHandler request with
    | some handler => handleRequest lib rand body handler
    | none => return .closed

/-- An exception that leaves the program ends the request, and a crash ends them all. -/
def escaped : Failure → Option Response
  | .exception what => some (.failed (.exception what))
  | .crash => none

/-- The program with its response. -/
def program (lib : Libraries) (request : Incoming) : Program Response :=
  Steps.caught escaped (Response.answer <$> serve lib request)

/-- The constructor of the client runs on the data there is. -/
def boot (env : Env) : ClientM Unit := fun s ↦ DbClient.start s.impl env s.cfg s.rocks

/-- What is recorded of the requests. -/
abbrev History := List (Record Incoming Effect Response)

/-- The server with the requests in progress. -/
abbrev System := Threads Env Failure DbClient Effect Incoming Response

/-- The step relation, as a function of the label. -/
def step (lib : Libraries) : System → Threads.Label Env Incoming → Option System :=
  Threads.step (program lib) boot

/-- The server has not been started, and its disk is empty. -/
def initial (impl : Impl) (cfg : Config) : System :=
  { shared := { impl, cfg, rocks := .empty, db := none, handles := [], columnFamalies := ∅ }
    up := false }

/-! ### Alone -/

section Alone
variable (env : Env) (pb : Protobuf)

@[simp] private theorem alone_quiet {α : Type} (x : ClientM α) : (quiet x).alone env = x :=
  Steps.alone_atomic env _ _

@[simp] private theorem alone_getOrCreateColumnFamily (name : String) :
    (getOrCreateColumnFamily name).alone env = DbClient.getOrCreateColumnFamily env name := by
  simp only [getOrCreateColumnFamily, getColumnFamily, createColumnFamily, Steps.alone_bind,
    alone_quiet, Steps.alone_ite, Steps.alone_atomic, Steps.alone_pure]
  rfl

@[simp] private theorem alone_generateId (folder : String) (ts : UInt64) :
    (generateId folder ts).alone env = DbClient.generateId env folder ts := by
  simp only [generateId, clock, Steps.alone_bind, Steps.alone_ite, Steps.alone_atomic,
    Steps.alone_pure, alone_getOrCreateColumnFamily, alone_quiet, DbClient.generateId,
    DbClient.effectiveTs]
  split
  · exact pure_bind _ _
  · exact pure_bind _ _

@[simp] private theorem alone_put (wopt : WriteOptions) (cf : Option ColumnFamilyHandle)
    (folder : String) (id : ID) (message : Data) :
    (put pb wopt cf folder id message).alone env =
      DbClient.put env.put wopt cf (serializeID id) (pb.serializeAsString message) :=
  Steps.alone_atomic env _ _

private theorem alone_caught {α : Type} {handle : Failure → Option α}
    (catches : Failure → ClientM α) (h : ∀ e, catches e = match handle e with
      | some a => pure a
      | none => throw e) (p : Program α) :
    (p.caught handle).alone env = tryCatch (p.alone env) catches := by
  funext s
  show ((p.caught handle).alone env).run s = (tryCatch (p.alone env) catches).run s
  rw [Steps.run_alone_caught, run_tryCatch]
  cases (p.alone env).run s with
  | ok a t => rfl
  | error e t =>
    simp only [h e]
    cases handle e with
    | some a => rfl
    | none => rfl

private theorem alone_performIfExists {ρ : Type} (response : ρ) (baseName : String)
    (fn : ColumnFamilyHandle → Program (GrpcStatus × ρ)) :
    (GRPCServer.performIfExists response baseName fn).alone env =
      Server.GRPCServer.performIfExists response baseName fun cf ↦ (fn cf).alone env := by
  rw [GRPCServer.performIfExists, alone_caught env (Server.GRPCServer.caught response)]
  · simp only [getColumnFamily, Steps.alone_bind, alone_quiet]
    congr 1
    congr 1
    funext found
    cases found with
    | none => rfl
    | some cf => rfl
  · intro e
    cases e with
    | exception what => rfl
    | crash => rfl

private theorem alone_perform {ρ : Type} (response : ρ) (baseName : String)
    (fn : Option ColumnFamilyHandle → Program (GrpcStatus × ρ)) :
    (GRPCServer.perform response baseName fn).alone env =
      Server.GRPCServer.perform response env baseName fun cf ↦ (fn cf).alone env := by
  rw [GRPCServer.perform, alone_caught env (Server.GRPCServer.caught response)]
  · simp only [Steps.alone_bind, alone_getOrCreateColumnFamily]
    rfl
  · intro e
    cases e with
    | exception what => rfl
    | crash => rfl

private theorem alone_save (request : SaveRequest) :
    (GRPCServer.save pb request).alone env = Server.GRPCServer.save pb env request := by
  rw [GRPCServer.save, alone_perform]
  congr 1
  funext cf
  simp only [GRPCServer.saveAction, Steps.alone_bind, alone_generateId, alone_put, Steps.alone_ite,
    Steps.alone_pure]
  rfl

private theorem alone_get (request : GetRequest) :
    (GRPCServer.get pb request).alone env = Server.GRPCServer.get pb request := by
  rw [GRPCServer.get, alone_performIfExists]
  simp only [alone_quiet]
  rfl

private theorem alone_getRange (context : Server.GRPCServer.ServerContext)
    (request : RangeRequest) :
    (GRPCServer.getRange pb context request).alone env =
      Server.GRPCServer.getRange pb context request := by
  rw [GRPCServer.getRange, alone_performIfExists]
  simp only [Steps.alone_bind, alone_quiet, Steps.alone_pure]
  rfl

private theorem alone_batchLoop (cf : ColumnFamilyHandle) (draw : Rand → UInt64) (rand : Nat → Rand)
    (amount batchSize : UInt32) :
    (batchLoop pb cf draw rand amount batchSize).alone env =
      Server.batchLoop pb cf draw rand amount batchSize := by
  have hbatches (step : Nat) (is : List Int) (drawn : Nat) :
      (batches pb cf draw rand step is drawn).alone env =
        Server.batches pb cf draw rand step is drawn := by
    induction is generalizing drawn with
    | nil => rfl
    | cons i rest ih =>
      rw [batches, Server.batches]
      simp only [Steps.alone_ite, Steps.alone_bind, alone_quiet, ih, Steps.alone_pure]
  rw [batchLoop, Server.batchLoop]
  cases countdown (stepOf amount batchSize) amount.toInt32.toInt with
  | none => exact alone_quiet env _
  | some is => exact hbatches _ is 0

private theorem alone_getSubsample (rnd : ℚ → ℚ) (rand : Nat → Rand) (request : SubsampleRequest) :
    (GRPCServer.getSubsample pb rnd rand request).alone env =
      Server.GRPCServer.getSubsample pb rnd rand request := by
  rw [GRPCServer.getSubsample, alone_performIfExists]
  simp only [Steps.alone_bind, alone_quiet, alone_batchLoop, Steps.alone_pure]
  simp only [Server.GRPCServer.getSubsample, Server.GRPCServer.sample, bind_assoc]

private theorem alone_saveHandler (h : Server.SaveHandler) (body : Bytes) :
    (SaveHandler.handleRequest pb h body).alone env = h.handleRequest pb env body := by
  rw [SaveHandler.handleRequest]
  simp only
  rw [alone_caught env (Server.SaveHandler.caught ({} : HTTPServerResponse).send)]
  · simp only [Steps.alone_bind, alone_generateId, alone_getOrCreateColumnFamily, alone_put,
      Steps.alone_pure]
    rfl
  · intro e
    cases e with
    | exception what => rfl
    | crash => rfl

private theorem alone_getRangeHandler (h : Server.GetRangeHandler) :
    (GetRangeHandler.handleRequest pb h).alone env = h.handleRequest pb := by
  rw [GetRangeHandler.handleRequest, Server.GetRangeHandler.handleRequest]
  simp only [getColumnFamily, Steps.alone_bind, alone_quiet]
  congr 1
  funext found
  cases found with
  | none => rfl
  | some cf =>
    simp only [Steps.alone_bind, alone_quiet, Steps.alone_pure]

private theorem alone_subsamplingHandler (rnd : ℚ → ℚ) (rand : Nat → Rand)
    (h : Server.SubsamplingHandler) :
    (SubsamplingHandler.handleRequest pb rnd rand h).alone env = h.handleRequest pb rnd rand := by
  rw [SubsamplingHandler.handleRequest, Server.SubsamplingHandler.handleRequest]
  simp only [getColumnFamily, Steps.alone_bind, alone_quiet]
  congr 1
  funext found
  cases found with
  | none => rfl
  | some cf =>
    simp only [Steps.alone_bind, alone_quiet, alone_batchLoop, Steps.alone_pure,
      Server.SubsamplingHandler.sample, bind_assoc]

/-- Run with nobody else in between and in one environment, the program of a request is the code of
its call. -/
theorem alone_serve (lib : Libraries) (request : Incoming) :
    (serve lib request).alone env = (request.call env).serve lib := by
  cases request with
  | save request =>
    rw [serve, Steps.alone_bind, alone_save]
    rfl
  | get request =>
    rw [serve, Steps.alone_bind, alone_get]
    rfl
  | getRange context request =>
    rw [serve, Steps.alone_bind, alone_getRange]
    rfl
  | getSubsample rand request =>
    rw [serve, Steps.alone_bind, alone_getSubsample]
    rfl
  | http rand request body =>
    simp only [serve, Incoming.call, Call.serve]
    cases HandlerFactory.createRequestHandler request with
    | none => rfl
    | some handler =>
      cases handler with
      | info => rfl
      | health => rfl
      | notFound => rfl
      | status =>
        simp only [handleRequest, Steps.alone_bind, alone_quiet]
        rfl
      | save handler =>
        simp only [handleRequest, Steps.alone_bind, alone_saveHandler]
        rfl
      | getRange handler =>
        simp only [handleRequest, Steps.alone_bind, alone_getRangeHandler]
        rfl
      | subsampling handler =>
        simp only [handleRequest, Steps.alone_bind, alone_subsamplingHandler]
        rfl

/-- So the server that serves one request at a time runs the programs, each alone. -/
theorem ask_eq_alone (lib : Libraries) (request : Incoming) (client : DbClient) :
    (Process.running client).ask lib (request.call env) =
      match ((program lib request).alone env).run client with
      | .ok response client => (.running client, response)
      | .error _ client => (.down client.rocks, .failed .crash) := by
  rw [program, Steps.run_alone_caught, Steps.alone_map, alone_serve, run_map, Process.ask]
  cases ((request.call env).serve lib).run client with
  | ok a t => rfl
  | error e t =>
    cases e with
    | exception what => rfl
    | crash => rfl

end Alone

end TimeMachine.Interleaved
