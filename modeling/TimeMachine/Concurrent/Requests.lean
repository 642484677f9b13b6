import TimeMachine.Server.Requests
import TimeMachine.Base.Pool

/-!
# Requests side by side

Any number of requests in progress, each a thread that takes one atomic step at a
time: obtaining a handle, generating an identifier and using a handle take the lock
separately, and any step of any other request can fall between two of them. The two
ways of saving take the steps in different order. Using a handle of a closed instance
is undefined behaviour; here it reaches the folder of that name, so that a run goes on
past it, and whether it happens is a question about the run.
-/

namespace TimeMachine.Concurrent
open TimeMachine.Base TimeMachine.Store TimeMachine.Client TimeMachine.Server

/-- The calls that read through a handle; `src/DbClient.cpp:56–60,68–241`. -/
inductive Call where
  | get
  | getBatch
  | iter
  | getUniqueRange
  | getUniqueRangeForTS
  deriving DecidableEq, Repr

/-- A request as it arrives: a gRPC `Save`, an HTTP put with the same data, or a request that
reads one or more times. -/
inductive Request where
  | save (request : SaveRequest)
  | post (request : SaveRequest)
  | read (folder : String) (call : Call) (rest : List Call)
  deriving DecidableEq, Repr

/-- A request in progress, named by the step it takes next; `H` is what it keeps of a handle.
A save obtains a handle, generates an identifier and writes; a put generates before it
obtains. A read looks its folder up once and then reads. -/
inductive Thread (H : Type) where
  | saving (request : SaveRequest)
  | holding (request : SaveRequest) (cf : H)
  | posting (request : SaveRequest)
  | numbered (request : SaveRequest) (id : ID)
  | writing (request : SaveRequest) (id : ID) (cf : H)
  | reading (folder : String) (call : Call) (rest : List Call)
  | calling (folder : String) (cf : H) (call : Call) (rest : List Call)
  deriving DecidableEq, Repr

/-- The thread of a request that has just arrived. -/
def Request.thread {H : Type} : Request → Thread H
  | .save request => .saving request
  | .post request => .posting request
  | .read folder call rest => .reading folder call rest

namespace Thread
variable {H : Type}

/-- The folder a request is about. -/
def folder : Thread H → String
  | saving request | holding request _ | posting request | numbered request _ => request.folder
  | writing request _ _ => request.folder
  | reading folder _ _ | calling folder _ _ _ => folder

/-- The identifier a request has generated and not written under yet. -/
def id : Thread H → Option ID
  | numbered _ id | writing _ id _ => some id
  | _ => none

/-- What a request is going to save. -/
def request : Thread H → Option SaveRequest
  | saving request | holding request _ | posting request | numbered request _ => some request
  | writing request _ _ => some request
  | _ => none

/-- The handle a request has obtained and not used for the last time. -/
def handle : Thread H → Option H
  | holding _ cf | writing _ _ cf | calling _ cf _ _ => some cf
  | _ => none

/-- The handle the next step uses. -/
def uses : Thread H → Option H
  | writing _ _ cf | calling _ cf _ _ => some cf
  | _ => none

/-- The folder the next step makes sure of. -/
def opens : Thread H → Option String
  | saving request | holding request _ | posting request | numbered request _ =>
    some request.folder
  | _ => none

end Thread

/-- A save that has run to its end: what was asked, under which identifier, and what became of
the write. -/
structure Saved where
  request : SaveRequest
  id : ID
  status : Status
  deriving DecidableEq, Repr

/-- What a step of a request leaves: the rest of it, the identifiers generated by it and the
saves ended by it. -/
structure Progress where
  thread : Option (Thread (Option ColumnFamilyHandle)) := none
  issued : List (String × ID) := []
  finished : List Saved := []

/-- The handle a use goes through. One of a closed instance is looked up by name. -/
def current (cf : Option ColumnFamilyHandle) : ClientM (Option ColumnFamilyHandle) := do
  let s ← get
  match cf with
  | none => return none
  | some handle =>
    if s.db = some handle.db then return some handle
    else DbClient.getColumnFamily handle.name

/-- One step of a request. -/
def advance (pb : Protobuf) (env : Env) :
    Thread (Option ColumnFamilyHandle) → ClientM Progress
  | .saving request => do
    let cf ← DbClient.getOrCreateColumnFamily env request.folder
    return { thread := some (.holding request cf) }
  | .holding request cf => do
    let id ← DbClient.generateId env request.folder request.timestamp
    return { thread := some (.writing request id cf), issued := [(request.folder, id)] }
  | .posting request => do
    let id ← DbClient.generateId env request.folder request.timestamp
    return { thread := some (.numbered request id), issued := [(request.folder, id)] }
  | .numbered request id => do
    let cf ← DbClient.getOrCreateColumnFamily env request.folder
    return { thread := some (.writing request id cf) }
  | .writing request id cf => do
    let cf ← current cf
    let status ← DbClient.put env.put request.wopt cf (serializeID id)
      (pb.serializeAsString (request.message id))
    return { finished := [{ request, id, status }] }
  | .reading folder call rest => do
    match ← DbClient.getColumnFamily folder with
    | none => return {}
    | some cf => return { thread := some (.calling folder (some cf) call rest) }
  | .calling folder cf _ rest => do
    let cf' ← current cf
    let _ ← DbClient.deref cf'
    match rest with
    | [] => return {}
    | call :: rest => return { thread := some (.calling folder cf call rest) }

/-- The server with the requests in progress. The identifiers generated and the saves ended
so far are recorded and never read. -/
structure System where
  client : DbClient
  threads : List (Thread (Option ColumnFamilyHandle)) := []
  issued : List (String × ID) := []
  finished : List Saved := []

/-- What can happen: a request arrives, a request takes its next step, or the server is
restarted while no request is in progress. -/
inductive Label where
  | arrive (request : Request)
  | run (i : Nat) (env : Env)
  | restart (env : Env)

/-- The step relation, as a function of the label. A crash has no next state. -/
def System.step (pb : Protobuf) (s : System) : Label → Option System
  | .arrive request => some { s with threads := s.threads ++ [request.thread] }
  | .run i env =>
    match s.threads[i]? with
    | none => none
    | some t =>
      match (advance pb env t).run s.client with
      | .ok p client =>
        some
          { client
            threads := Pool.replace s.threads i p.thread
            issued := s.issued ++ p.issued
            finished := s.finished ++ p.finished }
      | .error (.exception _) client =>
        some { s with client, threads := Pool.replace s.threads i none }
      | .error .crash _ => none
  | .restart env =>
    if s.threads = [] then
      match DbClient.start s.client.impl env s.client.cfg s.client.rocks with
      | .ok () client => some { s with client }
      | .error _ _ => none
    else none

/-- RocksDB does what the step asks of it, except that it may refuse a write. -/
def Label.Durable : Label → Prop
  | .arrive _ => True
  | .run _ env => DbClient.Healthy env
  | .restart env => DbClient.Healthy env

instance Label.decidableDurable : ∀ l : Label, Decidable l.Durable
  | .arrive _ => isTrue trivial
  | .run _ env | .restart env => inferInstanceAs (Decidable (DbClient.Healthy env))

/-- The step closes the open instance: it makes sure of a folder that does not exist, or it is
a restart. -/
def System.Reopens (s : System) : Label → Prop
  | .arrive _ => False
  | .run i _ => ∃ t folder, s.threads[i]? = some t ∧ t.opens = some folder ∧
      s.client.view folder = none
  | .restart _ => True

end TimeMachine.Concurrent
