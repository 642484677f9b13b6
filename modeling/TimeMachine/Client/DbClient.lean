import TimeMachine.Store.RocksDB

/-!
# The database client

`DbClient` and its two implementations, as stateful code that can end in a value, in
a `std::runtime_error`, or in a crash: a null or dangling pointer was used. State
changes made before an exception stay. A method that the source runs under the shared
or the exclusive lock is one atomic step; the interleavings are built on top.
-/

namespace TimeMachine.Client
open TimeMachine.Base TimeMachine.Store

/-- The directories the client reads from its environment; `src/Config.cpp:62–63`. -/
structure Config where
  dbName : String := "default"
  sourceLocalDir : String := "default"
  deriving DecidableEq, Repr

/-- The class behind `dbImpl`, chosen by `BACKUP_PROVIDER`; `src/reqstore.cpp:85–92`. -/
inductive Impl where
  | localDBClient
  | cloudDBClient
  deriving DecidableEq, Repr

/-- The directory the implementation opens: `src/LocalDBClient.cpp:49`,
`src/CloudDBClient.cpp:76`. -/
def Config.openDir (cfg : Config) : Impl → String
  | .localDBClient => cfg.sourceLocalDir
  | .cloudDBClient => cfg.dbName

/-- What a call gets from its environment: the clock, which never shows zero, and the
outcome of each RocksDB call it may make. -/
structure Env where
  now : UInt64
  now_ne_zero : now ≠ 0
  fakeOpen : Status := .ok
  list : Status := .ok
  reopen : Status := .ok
  create : Status := .ok
  put : Status := .ok

/-- A cached column family; `src/DbClient.h:21–29`. `lastUnique` is an atomic `long`
handed out as `unsigned long`; its two's complement bits are kept. -/
structure ColumnFamilyData where
  handle : ColumnFamilyHandle
  lastUnique : UInt64
  deriving DecidableEq, Repr

/-- `src/DbClient.h:31–35`. -/
structure UniqueRange where
  from' : UInt64
  till : UInt64
  deriving DecidableEq, Repr

/-- The client object and the storage engine under it; `db = none` is a null `db`. -/
structure DbClient where
  impl : Impl
  cfg : Config
  rocks : RocksDB
  db : Option Nat
  handles : List ColumnFamilyHandle
  columnFamalies : AList (fun _ : String ↦ ColumnFamilyData)

/-- How a call can fail. -/
inductive Failure where
  | exception (what : String)
  | crash
  deriving DecidableEq, Repr

/-- Client code. -/
abbrev ClientM := EStateM Failure DbClient

namespace DbClient

/-- The directory of the open database. -/
def openDir (s : DbClient) : String := s.cfg.openDir s.impl

/-- The database in that directory. -/
def database (s : DbClient) : Option Database := s.rocks.disk s.openDir

/-- The stored entries of a folder. -/
def family (s : DbClient) (name : String) : Option ColumnFamily :=
  s.database.bind (·.family name)

/-- Set the stored entries of a folder of the open database. -/
def writeFamily (s : DbClient) (name : String) (entries : ColumnFamily) : DbClient :=
  match s.database with
  | none => s
  | some d => { s with rocks := s.rocks.setDisk s.openDir (d.write name entries) }

/-- Cache a column family under its name. -/
def cache (s : DbClient) (name : String) (data : ColumnFamilyData) : DbClient :=
  { s with columnFamalies := s.columnFamalies.insert name data }

/-- Use of a handle: the entries of its column family. A null handle, and a handle of an
instance that is not the open one, are undefined behaviour. -/
def deref (cf : Option ColumnFamilyHandle) : ClientM (ColumnFamilyHandle × ColumnFamily) := do
  let s ← get
  match cf with
  | none => throw .crash
  | some handle =>
    if s.db = some handle.db then
      match s.family handle.name with
      | none => throw .crash
      | some entries => return (handle, entries)
    else throw .crash

/-- The unique numbers of the first and of the last key; zero where there is none. -/
def uniqueRange (entries : ColumnFamily) : UniqueRange :=
  let from' := match OrderedStore.seekToFirst entries with
    | some e => (deserializeID e.1).unique
    | none => 0
  let till := match OrderedStore.seekToLast entries with
    | some e => (deserializeID e.1).unique
    | none => 0
  { from', till }

/-- `src/DbClient.cpp:173–201`. -/
def getUniqueRange (cf : Option ColumnFamilyHandle) : ClientM UniqueRange := do
  let (_, entries) ← deref cf
  return uniqueRange entries

/-- `src/DbClient.cpp:258–283`. -/
def getColumnFamalies (io : Status) : ClientM (List String) := do
  let s ← get
  let (status, names) := s.rocks.listColumnFamilies io s.cfg.dbName
  if status.isOk then return names
  else throw (.exception "Unable to return ColumnFamaliesList")

/-- The loop body that fills the cache; `src/LocalDBClient.cpp:56–59`. -/
def cacheHandle (cfHandle : ColumnFamilyHandle) : ClientM Unit := do
  let lastUnique := (← getUniqueRange (some cfHandle)).till
  modify (·.cache cfHandle.name ⟨cfHandle, lastUnique⟩)

/-- `DB::Open` into `handles` and `db`, filling the cache and checking the status last;
`src/LocalDBClient.cpp:49–67,94–111`, `src/CloudDBClient.cpp:76–96,124–144`. -/
def openAndCache (io : Status) (cfDescriptors : List String) : ClientM Unit := do
  let s ← get
  let opened := s.rocks.openDB io s.openDir cfDescriptors
  set { s with rocks := opened.rocks, db := opened.db, handles := opened.handles }
  opened.handles.forM cacheHandle
  if opened.status.isOk = false then throw (.exception "Failed to connect to DB")

/-- The body the constructors share: a trial open of the default family, whose status is
ignored, then the real one; `src/LocalDBClient.cpp:40–69`, `src/CloudDBClient.cpp:71–98`. -/
def construct (env : Env) : ClientM Unit := do
  modify fun s ↦
    { s with rocks := (s.rocks.openDB env.fakeOpen s.openDir [defaultName]).rocks }
  let cfDescriptors ← getColumnFamalies env.list
  openAndCache env.reopen cfDescriptors

/-- Run a constructor on a storage engine: a fresh object, no handles and no cache. -/
def start (impl : Impl) (env : Env) (cfg : Config) (rocks : RocksDB) :
    EStateM.Result Failure DbClient Unit :=
  (construct env).run { impl, cfg, rocks, db := none, handles := [], columnFamalies := ∅ }

/-- `src/LocalDBClient.cpp:32–69`. -/
def newLocalDBClient (env : Env) (cfg : Config) (rocks : RocksDB) :
    EStateM.Result Failure DbClient Unit := start .localDBClient env cfg rocks

/-- `src/DbClient.cpp:285–300`. -/
def getColumnFamily (name : String) : ClientM (Option ColumnFamilyHandle) := do
  let s ← get
  return (s.columnFamalies.lookup name).map (·.handle)

/-- `src/LocalDBClient.cpp:76–117`, `src/CloudDBClient.cpp:105–151`. -/
def createColumnFamily (env : Env) (name : String) : ClientM (Option ColumnFamilyHandle) := do
  let s ← get
  match s.db with
  | none => throw .crash
  | some db =>
    let (status, cf, rocks) := s.rocks.createColumnFamily env.create s.openDir db name
    set { s with rocks := rocks }
    if status.OK then
      -- the log call reads cf->GetName()
      if cf = none then throw .crash
      let cfDescriptors ← getColumnFamalies env.list
      openAndCache env.reopen cfDescriptors
      return cf
    else throw (.exception ("Couldn't create columnFamily: " ++ name))

/-- `src/DbClient.cpp:302–312`. -/
def getOrCreateColumnFamily (env : Env) (name : String) :
    ClientM (Option ColumnFamilyHandle) := do
  let found ← getColumnFamily name
  if found.isSome then return found
  else
    let _ ← createColumnFamily env name
    getColumnFamily name

/-- `columnFamalies[folder]->lastUnique.fetch_add(1)`: a missing folder is a null entry. -/
def fetchAdd (folder : String) : ClientM UInt64 := do
  let s ← get
  match s.columnFamalies.lookup folder with
  | none => throw .crash
  | some data =>
    set (s.cache folder { data with lastUnique := data.lastUnique + 1 })
    return data.lastUnique

/-- The timestamp a message gets: the client's, or the clock's for zero. -/
def effectiveTs (env : Env) (ts : UInt64) : UInt64 := if ts = 0 then env.now else ts

/-- `src/DbClient.cpp:40–54`. -/
def generateId (env : Env) (folder : String) (ts : UInt64) : ClientM ID := do
  let timestamp := effectiveTs env ts
  let _ ← getOrCreateColumnFamily env folder
  let unique ← fetchAdd folder
  return { timestamp, unique }

/-- `src/DbClient.cpp:62–66`. A failed write stores nothing. Without its log (`wopt`) a write
is lost when the process ends before RocksDB has flushed it; no start of this model ends a
process so. -/
def put (io : Status) (_wopt : WriteOptions) (cf : Option ColumnFamilyHandle)
    (key val : Bytes) : ClientM Status := do
  let (handle, entries) ← deref cf
  if io.isOk then
    modify (·.writeFamily handle.name (OrderedStore.put IDComparator.compare key val entries))
  return io

/-- `src/DbClient.cpp:56–60`. -/
def get (cf : Option ColumnFamilyHandle) (key : Slice) : ClientM (Status × Bytes) := do
  let (_, entries) ← deref cf
  match OrderedStore.get IDComparator.compare key entries with
  | some val => return (.ok, val)
  | none => return (.failed "NotFound: ", [])

end DbClient
end TimeMachine.Client
