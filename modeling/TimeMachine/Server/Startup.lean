import TimeMachine.Server.Archive
import TimeMachine.Base.Strtol

/-!
# Coming up

`main` reads the configuration from the environment, constructs the client its
`BACKUP_PROVIDER` names and serves until it is told to stop; an exception on the way is
logged and ends it. It comes up exactly if three numbers parse, the provider is known and
reachable, the directory that is listed has all folders of the one that is opened, and
the HTTP server listens; no answer of RocksDB makes it crash. A gRPC server that cannot
listen goes unnoticed. No request arrives before the gRPC service is initialised.
-/

namespace TimeMachine.Server
open TimeMachine.Base TimeMachine.Base.StateError TimeMachine.Store TimeMachine.Client

/-- The variables that are set in the environment of the process. -/
abbrev Environment := String → Option String

/-- A `char *` to a text that ends in zero, or null. -/
abbrev CharPtr := Option String

/-- The configuration; `src/Config.h:13–45`. `debug` is not initialised unless `DEBUG` is set. -/
structure ServerConfig where
  keyid : CharPtr
  secret : CharPtr
  kRegion : CharPtr
  walProvider : CharPtr
  sourceLocalDir : CharPtr
  destinationLocalDir : CharPtr
  sourceBucket : CharPtr
  destBucket : CharPtr
  dbName : CharPtr
  useKinesis : Bool
  debug : Option Bool
  backupProvider : CharPtr
  gprc_port : CharPtr
  http_port : CharPtr
  http_timeout : Int32
  http_max_queued : Int32
  http_max_threads : Int32
  deriving DecidableEq, Repr

namespace ServerConfig

/-- `src/Config.cpp:16–20`. -/
def getEnvironmentVariableOrDefault (environ : Environment) (variable_name : String)
    (default_value : CharPtr) : CharPtr :=
  match environ variable_name with
  | some value => some value
  | none => default_value

/-- `src/Config.cpp:22–26`. -/
def getEnvironmentVariableOrDefaultInt (environ : Environment) (variable_name : String)
    (default_value : Int32) : Except String Int32 :=
  match environ variable_name with
  | some value =>
    match Strtol.stoi value with
    | some n => .ok n
    | none => .error "stoi"
  | none => .ok default_value

/-- `src/Config.cpp:48–90`. What `DB_NAME` says is overwritten, and so are the first values of
three other fields. -/
def ofEnvironment (environ : Environment) : Except String ServerConfig := do
  let debug := if (environ "DEBUG").isSome then some true else none
  let sourceLocalDir := getEnvironmentVariableOrDefault environ "SRC_LOCAL_DIR" (some "default")
  let dbName := getEnvironmentVariableOrDefault environ "AWS_BUCKET_NAME" (some "default")
  let keyid := getEnvironmentVariableOrDefault environ "AWS_ACCESS_KEY_ID" (some "none")
  let secret := getEnvironmentVariableOrDefault environ "AWS_SECRET_ACCESS_KEY" (some "none")
  let kRegion := getEnvironmentVariableOrDefault environ "AWS_DEFAULT_REGION" (some "us-west-2")
  let destinationLocalDir :=
    getEnvironmentVariableOrDefault environ "DST_LOCAL_DIR" (some "default")
  let sourceBucket := getEnvironmentVariableOrDefault environ "SRC_BUCKET" (some "default")
  let destBucket := getEnvironmentVariableOrDefault environ "DST_BUCKET" (some "default")
  let walProvider := getEnvironmentVariableOrDefault environ "WAL_PROVIDER" (some "none")
  let backupProvider := getEnvironmentVariableOrDefault environ "BACKUP_PROVIDER" (some "s3")
  let http_port := getEnvironmentVariableOrDefault environ "HTTP_PORT" (some "8080")
  let gprc_port := getEnvironmentVariableOrDefault environ "GRPC_PORT" (some "8081")
  let http_max_queued ← getEnvironmentVariableOrDefaultInt environ "HTTP_MAX_QUEUED" 100
  let http_max_threads ← getEnvironmentVariableOrDefaultInt environ "HTTP_MAX_THREADS" 4
  let http_timeout ← getEnvironmentVariableOrDefaultInt environ "HTTP_TIMEOUTS" 100000
  let useKinesis := walProvider = some "kinesis"
  if keyid = none ∨ secret = none ∨ kRegion = none ∨ dbName = none then
    throw ("Please set env variables AWS_BUCKET_NAME, AWS_DEFAULT_REGION, AWS_ACCESS_KEY_ID " ++
      "and AWS_SECRET_ACCESS_KEY with cloud credentials")
  return { keyid, secret, kRegion, walProvider, sourceLocalDir, destinationLocalDir, sourceBucket
           destBucket, dbName, useKinesis, debug, backupProvider, gprc_port, http_port
           http_timeout, http_max_queued, http_max_threads }

/-- What the client reads of the configuration. Neither pointer is null. -/
def client (cfg : ServerConfig) : Config where
  dbName := cfg.dbName.getD ""
  sourceLocalDir := cfg.sourceLocalDir.getD ""

end ServerConfig

/-- How an attempt to come up ends: the server serves, over gRPC only if it has an address there, or
logs why not and ends, or crashes. -/
inductive Startup where
  | serving (client : DbClient) (grpcAddress : Option String) (httpAddress : String)
  | closed (what : String)
  | crashed

/-- What the libraries answer on the way up. -/
structure Outcomes where
  /-- The status of `NewAwsEnv`. -/
  aws : Status := .ok
  /-- Whether `BuildAndStart` returns a server, rather than null. -/
  grpc : Bool := true
  /-- What becomes of `HTTPServer::start` until it serves: the parameters, the address, and the
  socket that is bound to it and listens; `src/HTTPServer.cpp:20–48`. -/
  http : Status := .ok

/-- `src/reqstore.cpp:78–115` up to where it serves. -/
def runServer (environ : Environment) (outcomes : Outcomes) (env : Env) (rocks : RocksDB) :
    Startup :=
  match ServerConfig.ofEnvironment environ with
  | .error what => .closed what
  | .ok cfg =>
    let construct (impl : Impl) : Startup :=
      match DbClient.start impl env cfg.client rocks with
      | .ok () client =>
        let server_address := "0.0.0.0:" ++ cfg.gprc_port.getD ""
        match outcomes.http with
        | .ok =>
          .serving client (if outcomes.grpc then some server_address else none)
            ("0.0.0.0:" ++ cfg.http_port.getD "")
        | .failed what => .closed what
      | .error (.exception what) _ => .closed what
      | .error .crash _ => .crashed
    let backupProvider := cfg.backupProvider.getD ""
    if backupProvider = "s3" then
      if outcomes.aws.isOk then construct .cloudDBClient else .closed "Failed to connect NewAwsEnv"
    else if backupProvider = "none" then construct .localDBClient
    else .closed ("Unknown BACKUP_PROVIDER: " ++ backupProvider)

/-! ### The constructors -/

section Constructors
open DbClient

private theorem openDB_refused {r : RocksDB} {dir : String} {names : List String}
    (hdefault : defaultName ∈ names)
    (h : ∃ n ∈ ((r.disk dir).getD Database.initial).names, n ∉ names) :
    r.openDB .ok dir names =
      ⟨.failed "Invalid argument: You have to open all column families.", [], none, r⟩ := by
  simp only [RocksDB.openDB, Status.isOk, Bool.true_eq_false, if_false, not_not.mpr hdefault]
  rw [if_pos h]

private theorem openDB_opened {r : RocksDB} {dir : String} {names : List String}
    (hdefault : defaultName ∈ names)
    (h : ∀ n ∈ ((r.disk dir).getD Database.initial).names, n ∈ names) :
    r.openDB .ok dir names =
      ⟨.ok, RocksDB.freshHandles r.nextHandle r.nextDb names, some r.nextDb,
        { disk := Function.update r.disk dir
            (some (((r.disk dir).getD Database.initial).createMissing names))
          nextDb := r.nextDb + 1
          nextHandle := r.nextHandle + names.length }⟩ := by
  have hall : ¬ ∃ n ∈ ((r.disk dir).getD Database.initial).names, n ∉ names :=
    fun ⟨n, hn, hn'⟩ ↦ hn' (h n hn)
  simp only [RocksDB.openDB, Status.isOk, Bool.true_eq_false, if_false, not_not.mpr hdefault]
  rw [if_neg hall]

/-- RocksDB opens the database with a list of folders. -/
def CanOpen (r : RocksDB) (io : Status) (dir : String) (names : List String) : Prop :=
  io = .ok ∧ ∀ n ∈ ((r.disk dir).getD Database.initial).names, n ∈ names

private theorem run_openAndCache_cases (s : DbClient) (io : Status) {names : List String}
    (hdefault : defaultName ∈ names) :
    (CanOpen s.rocks io s.openDir names ∧ ∃ t, (openAndCache io names).run s = .ok () t) ∨
      ¬ CanOpen s.rocks io s.openDir names ∧
        ∃ t, (openAndCache io names).run s = .error (.exception "Failed to connect to DB") t := by
  cases io with
  | failed text =>
    exact Or.inr ⟨fun h ↦ (nomatch h.1), _, run_openAndCache_failed s text names⟩
  | ok =>
    by_cases hall : ∀ n ∈ ((s.rocks.disk s.openDir).getD Database.initial).names, n ∈ names
    · refine Or.inl ⟨⟨rfl, hall⟩, ?_⟩
      rw [openAndCache, run_bind_of_ok (EStateM.run_get s)]
      simp only [openDB_opened hdefault hall, EStateM.run_bind, EStateM.run_set]
      rw [run_forM_cacheHandle]
      · exact ⟨_, rfl⟩
      · -- every handle is one of the open instance, and its folder was there or has been created
        intro g hg
        refine ⟨congrArg some (RocksDB.db_freshHandles hg).symm, ?_⟩
        have hn : g.name ∈ names := by
          rw [← RocksDB.map_name_freshHandles s.rocks.nextHandle s.rocks.nextDb names]
          exact List.mem_map_of_mem hg
        obtain ⟨es, hes⟩ := (Database.mem_names _ _).mp
          (((s.rocks.disk s.openDir).getD Database.initial).mem_createMissing hn)
        refine ⟨es, ?_⟩
        change (Function.update s.rocks.disk s.openDir _ s.openDir).bind _ = _
        rw [Function.update_self, Option.bind_some, hes]
    · refine Or.inr ⟨fun h ↦ hall h.2, ?_⟩
      simp only [not_forall, exists_prop] at hall
      rw [openAndCache, run_bind_of_ok (EStateM.run_get s)]
      simp only [openDB_refused hdefault hall, EStateM.run_bind, EStateM.run_set]
      exact ⟨_, rfl⟩

private theorem run_getColumnFamalies_cases (s : DbClient) (io : Status) :
    (∃ d, io = .ok ∧ s.rocks.disk s.cfg.dbName = some d ∧
        (getColumnFamalies io).run s = .ok d.names s) ∨
      (¬ (io = .ok ∧ (s.rocks.disk s.cfg.dbName).isSome) ∧
        (getColumnFamalies io).run s =
          .error (.exception "Unable to return ColumnFamaliesList") s) := by
  cases io with
  | failed text =>
    refine Or.inr ⟨fun h ↦ (nomatch h.1), ?_⟩
    simp [getColumnFamalies, RocksDB.listColumnFamilies, Status.isOk]
  | ok =>
    cases hd : s.rocks.disk s.cfg.dbName with
    | none =>
      refine Or.inr ⟨fun h ↦ by simp at h, ?_⟩
      simp [getColumnFamalies, RocksDB.listColumnFamilies, Status.isOk, hd]
    | some d => exact Or.inl ⟨d, rfl, rfl, run_getColumnFamalies_eq_ok.mpr ⟨rfl, rfl, d, hd, rfl⟩⟩

/-- What a constructor needs of the disk and of RocksDB: on one directory a database, or a trial
open that creates one; on two a database where it lists, with all folders of the one it opens. -/
def Startable (impl : Impl) (env : Env) (cfg : Config) (rocks : RocksDB) : Prop :=
  env.list = .ok ∧ env.reopen = .ok ∧
    if cfg.dbName = cfg.openDir impl then
      env.fakeOpen = .ok ∨ (rocks.disk (cfg.openDir impl)).isSome
    else
      ∃ d, rocks.disk cfg.dbName = some d ∧
        ∀ n ∈ ((rocks.disk (cfg.openDir impl)).getD Database.initial).names, n ∈ d.names

variable {impl : Impl} {env : Env} {cfg : Config} {rocks : RocksDB}

private theorem trialOpen_isSome_iff (rocks : RocksDB) (io : Status) (dir : String) :
    ((rocks.openDB io dir [defaultName]).rocks.disk dir).isSome ↔
      io = .ok ∨ (rocks.disk dir).isSome := by
  cases hd : rocks.disk dir with
  | some d =>
    rw [RocksDB.trialOpen_disk io hd]
    simp
  | none =>
    cases io with
    | ok =>
      rw [RocksDB.trialOpen_new hd rfl]
      simp
    | failed text => simp [RocksDB.openDB, Status.isOk, hd]

private theorem trialOpen_getD (rocks : RocksDB) (io : Status) (dir : String) :
    ((rocks.openDB io dir [defaultName]).rocks.disk dir).getD Database.initial =
      (rocks.disk dir).getD Database.initial := by
  cases hd : (rocks.openDB io dir [defaultName]).rocks.disk dir with
  | some d => rw [Option.getD_some, RocksDB.disk_of_trialOpen hd]
  | none =>
    have hnone : ¬ (rocks.disk dir).isSome := fun h ↦ by
      have hsome := (trialOpen_isSome_iff rocks io dir).mpr (Or.inr h)
      rw [hd] at hsome
      cases hsome
    rw [Option.not_isSome_iff_eq_none.mp hnone]

private theorem startable_iff :
    Startable impl env cfg rocks ↔ env.list = .ok ∧
      ∃ d, (tried impl env cfg rocks).rocks.disk cfg.dbName = some d ∧
        CanOpen (tried impl env cfg rocks).rocks env.reopen (cfg.openDir impl) d.names := by
  simp only [Startable, CanOpen, tried, trialOpen_getD]
  split
  · next hsame =>
    rw [hsame, ← trialOpen_isSome_iff, ← trialOpen_getD rocks env.fakeOpen]
    constructor
    · rintro ⟨hlist, hreopen, hsome⟩
      obtain ⟨d, hd⟩ := Option.isSome_iff_exists.mp hsome
      refine ⟨hlist, d, hd, hreopen, ?_⟩
      rw [hd]
      exact fun n hn ↦ hn
    · rintro ⟨hlist, d, hd, hreopen, -⟩
      exact ⟨hlist, hreopen, Option.isSome_of_eq_some hd⟩
  · next hne =>
    rw [RocksDB.openDB_disk_of_ne rocks env.fakeOpen [defaultName] hne]
    constructor
    · rintro ⟨hlist, hreopen, d, hd, hall⟩
      exact ⟨hlist, d, hd, hreopen, hall⟩
    · rintro ⟨hlist, d, hd, hreopen, hall⟩
      exact ⟨hlist, hreopen, d, hd, hall⟩

/-- A constructor succeeds exactly if it can start, and else throws one of two exceptions. -/
theorem start_cases (impl : Impl) (env : Env) (cfg : Config) (rocks : RocksDB) :
    (Startable impl env cfg rocks ∧ ∃ s, start impl env cfg rocks = .ok () s) ∨
      ¬ Startable impl env cfg rocks ∧ ∃ what s,
        start impl env cfg rocks = .error (.exception what) s ∧
        (what = "Unable to return ColumnFamaliesList" ∨ what = "Failed to connect to DB") := by
  rw [startable_iff, start_eq]
  rcases run_getColumnFamalies_cases (tried impl env cfg rocks) env.list with
    ⟨d, hlist, hd, hrun⟩ | ⟨hnot, hrun⟩
  · have hd' : (tried impl env cfg rocks).rocks.disk cfg.dbName = some d := hd
    rw [run_bind_of_ok hrun]
    rcases run_openAndCache_cases (tried impl env cfg rocks) env.reopen
        d.default_mem_names with ⟨hopen, t, ht⟩ | ⟨hopen, t, ht⟩
    · exact Or.inl ⟨⟨hlist, d, hd', hopen⟩, t, ht⟩
    · refine Or.inr ⟨?_, _, t, ht, Or.inr rfl⟩
      rintro ⟨-, e, he, hcan⟩
      rw [hd'] at he
      cases he
      exact hopen hcan
  · refine Or.inr ⟨?_, _, _, run_bind_of_error hrun, Or.inl rfl⟩
    rintro ⟨hlist, d, hd, -⟩
    exact hnot ⟨hlist, Option.isSome_of_eq_some hd⟩

end Constructors

/-! ### The configuration -/

/-- The three numbers of the configuration parse where they are set. -/
def Numeric (environ : Environment) : Prop :=
  ∀ name ∈ ["HTTP_MAX_QUEUED", "HTTP_MAX_THREADS", "HTTP_TIMEOUTS"], ∀ text ∈ environ name,
    (Strtol.stoi text).isSome

/-- The client that is constructed, if any. -/
def provider (environ : Environment) (aws : Status) : Option Impl :=
  match (environ "BACKUP_PROVIDER").getD "s3" with
  | "s3" => if aws = .ok then some .cloudDBClient else none
  | "none" => some .localDBClient
  | _ => none

/-- The directories the client is constructed with. -/
def directories (environ : Environment) : Config where
  dbName := (environ "AWS_BUCKET_NAME").getD "default"
  sourceLocalDir := (environ "SRC_LOCAL_DIR").getD "default"

/-- A text is read if it is set, and else the default. -/
theorem getEnvironmentVariableOrDefault_eq (environ : Environment) (name default_value : String) :
    ServerConfig.getEnvironmentVariableOrDefault environ name (some default_value) =
      some ((environ name).getD default_value) := by
  unfold ServerConfig.getEnvironmentVariableOrDefault
  cases environ name with
  | some value => rfl
  | none => rfl

/-- Reading a number fails exactly where it is set to a text that does not parse. -/
theorem getEnvironmentVariableOrDefaultInt_cases (environ : Environment) (name : String)
    (default_value : Int32) :
    ((∀ text ∈ environ name, (Strtol.stoi text).isSome) ∧ ∃ n,
      ServerConfig.getEnvironmentVariableOrDefaultInt environ name default_value = .ok n) ∨
    ¬ (∀ text ∈ environ name, (Strtol.stoi text).isSome) ∧
      ServerConfig.getEnvironmentVariableOrDefaultInt environ name default_value =
        .error "stoi" := by
  unfold ServerConfig.getEnvironmentVariableOrDefaultInt
  cases environ name with
  | none => exact Or.inl ⟨by simp, _, rfl⟩
  | some text =>
    cases hn : Strtol.stoi text with
    | some n => exact Or.inl ⟨by simp [hn], n, by simp [hn]⟩
    | none => exact Or.inr ⟨by simp [hn], by simp [hn]⟩

/-- The configuration can be read exactly if its numbers parse: the credentials are never missing.
All the client reads of it is where it lists and where it opens. -/
theorem ofEnvironment_cases (environ : Environment) :
    (Numeric environ ∧ ∃ cfg, ServerConfig.ofEnvironment environ = .ok cfg ∧
      cfg.client = directories environ ∧
      cfg.backupProvider = some ((environ "BACKUP_PROVIDER").getD "s3") ∧
      cfg.gprc_port = some ((environ "GRPC_PORT").getD "8081") ∧
      cfg.http_port = some ((environ "HTTP_PORT").getD "8080")) ∨
    ¬ Numeric environ ∧ ServerConfig.ofEnvironment environ = .error "stoi" := by
  have hnumeric : Numeric environ ↔
      (∀ text ∈ environ "HTTP_MAX_QUEUED", (Strtol.stoi text).isSome) ∧
      (∀ text ∈ environ "HTTP_MAX_THREADS", (Strtol.stoi text).isSome) ∧
      ∀ text ∈ environ "HTTP_TIMEOUTS", (Strtol.stoi text).isSome := by
    simp [Numeric]
  rw [hnumeric]
  simp only [ServerConfig.ofEnvironment, getEnvironmentVariableOrDefault_eq]
  rcases getEnvironmentVariableOrDefaultInt_cases environ "HTTP_MAX_QUEUED" 100 with
    ⟨hqueued, queued, hq⟩ | ⟨hqueued, hq⟩
  · rcases getEnvironmentVariableOrDefaultInt_cases environ "HTTP_MAX_THREADS" 4 with
      ⟨hthreads, threads, ht⟩ | ⟨hthreads, ht⟩
    · rcases getEnvironmentVariableOrDefaultInt_cases environ "HTTP_TIMEOUTS" 100000 with
        ⟨htimeout, timeout, ho⟩ | ⟨htimeout, ho⟩
      · rw [hq, ht, ho]
        exact Or.inl ⟨⟨hqueued, hthreads, htimeout⟩, _, rfl, rfl, rfl, rfl, rfl⟩
      · rw [hq, ht, ho]
        exact Or.inr ⟨fun h ↦ htimeout h.2.2, rfl⟩
    · rw [hq, ht]
      exact Or.inr ⟨fun h ↦ hthreads h.2.1, rfl⟩
  · rw [hq]
    exact Or.inr ⟨fun h ↦ hqueued h.1, rfl⟩

/-! ### The server -/

/-- The numbers parse, the constructor of a known provider that is reachable can start, and the HTTP
server listens. -/
def ComesUp (environ : Environment) (outcomes : Outcomes) (env : Env) (rocks : RocksDB) : Prop :=
  Numeric environ ∧ outcomes.http = .ok ∧
    ∃ impl ∈ provider environ outcomes.aws, Startable impl env (directories environ) rocks

private theorem provider_cases (environ : Environment) (aws : Status) :
    let backupProvider := (environ "BACKUP_PROVIDER").getD "s3"
    provider environ aws =
      if backupProvider = "s3" then if aws = .ok then some .cloudDBClient else none
      else if backupProvider = "none" then some .localDBClient
      else none := by
  simp only [provider]
  split
  · next h => rw [if_pos h]
  · next h => rw [h, if_neg (by decide), if_pos rfl]
  · next hs3 hnone => rw [if_neg hs3, if_neg hnone]

/-- Whatever is set in the environment, is on the disk and is answered by RocksDB and the other
libraries: where the server can come up it serves the configured ports with the client of its
provider, the one of gRPC only if it could listen there, and where it cannot it logs why not and
ends. It never crashes. -/
theorem runServer_cases (environ : Environment) (outcomes : Outcomes) (env : Env)
    (rocks : RocksDB) :
    (ComesUp environ outcomes env rocks → ∃ impl ∈ provider environ outcomes.aws, ∃ client,
      DbClient.start impl env (directories environ) rocks = .ok () client ∧
      runServer environ outcomes env rocks = .serving client
        (if outcomes.grpc then some ("0.0.0.0:" ++ (environ "GRPC_PORT").getD "8081") else none)
        ("0.0.0.0:" ++ (environ "HTTP_PORT").getD "8080")) ∧
    (¬ ComesUp environ outcomes env rocks →
      ∃ what, runServer environ outcomes env rocks = .closed what) := by
  have hprovider := provider_cases environ outcomes.aws
  simp only at hprovider
  rw [ComesUp, hprovider]
  rcases ofEnvironment_cases environ with
    ⟨hnumeric, cfg, hcfg, hclient, hbackup, hgrpc, hhttp⟩ | ⟨hnumeric, hcfg⟩
  · simp only [runServer, hcfg, hclient, hbackup, hgrpc, hhttp, Option.getD_some]
    generalize (environ "BACKUP_PROVIDER").getD "s3" = name
    -- the constructor that is run succeeds if it can start, and else throws
    have hconstruct (impl : Impl) := start_cases impl env (directories environ) rocks
    by_cases hs3 : name = "s3"
    · simp only [hs3, if_true]
      cases outcomes.aws with
      | ok =>
        rcases hconstruct .cloudDBClient with ⟨hstart, client, hrun⟩ | ⟨hstart, what, t, hrun, -⟩
        · cases outcomes.http with
          | ok => simp [Status.isOk, hnumeric, hstart, hrun]
          | failed text => simp [Status.isOk, hrun]
        · simp [Status.isOk, hnumeric, hstart, hrun]
      | failed text => simp [Status.isOk]
    · simp only [hs3, if_false]
      by_cases hnone : name = "none"
      · simp only [hnone, if_true]
        rcases hconstruct .localDBClient with ⟨hstart, client, hrun⟩ | ⟨hstart, what, t, hrun, -⟩
        · cases outcomes.http with
          | ok => simp [hnumeric, hstart, hrun]
          | failed text => simp [hrun]
        · simp [hnumeric, hstart, hrun]
      · simp [hnone]
  · simp [runServer, hcfg, hnumeric]

/-- On an empty disk it comes up exactly with the starts that the runs of the service begin with. -/
theorem comesUp_empty_iff (environ : Environment) (outcomes : Outcomes) (env : Env) :
    ComesUp environ outcomes env RocksDB.empty ↔ Numeric environ ∧ outcomes.http = .ok ∧
      ∃ impl ∈ provider environ outcomes.aws, FreshStart impl env (directories environ) := by
  have hstartable (impl : Impl) : Startable impl env (directories environ) RocksDB.empty ↔
      FreshStart impl env (directories environ) := by
    rw [Startable]
    constructor
    · rintro ⟨hlist, hreopen, h⟩
      split at h
      · next hsame =>
        have hfake : env.fakeOpen = .ok := h.resolve_right (by simp [RocksDB.empty])
        exact ⟨hsame, hfake, hlist, hreopen⟩
      · obtain ⟨d, hd, -⟩ := h
        cases hd
    · rintro ⟨hsame, hfake, hlist, hreopen⟩
      rw [if_pos hsame]
      exact ⟨hlist, hreopen, Or.inl hfake⟩
  simp only [ComesUp, hstartable]

end TimeMachine.Server
