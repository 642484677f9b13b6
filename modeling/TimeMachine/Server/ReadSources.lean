import TimeMachine.Server.Provenance
import TimeMachine.Server.RangeStreams
import TimeMachine.Server.Retrieval

/-!
# Where the messages that are read come from

A read looks a folder up under its name and passes on messages of its entries, so what it
tells was sent to that folder, in every run and whatever RocksDB answered along it. Only a
subsample has more to tell: for a number it does not find, the default message.
-/

namespace TimeMachine.Server
open TimeMachine.Base TimeMachine.Base.StateError TimeMachine.Store TimeMachine.Client DbClient

/-- The messages in an answer: that of a `Get` that succeeds, those written by a gRPC stream, those
whose frames are the stream of an HTTP response. -/
def Answer.Shows (messages : List Data) : Answer → Prop
  | .got status response =>
    if status.code = .OK then messages = [response] else messages = [] ∧ response = {}
  | .written _ sent => messages = sent
  | .http _ stream => stream = messageFrames messages
  | .saved .. | .closed => messages = []

/-- The message may be stored in the folder, under the identifier it carries. -/
def Carried (pb : Protobuf) (W : Writers) (folder : String) (data : Data) : Prop :=
  ∃ id, data.id = some id ∧ W folder (serializeID id, pb.serializeAsString data)

/-- Only messages may be stored, under the identifiers they carry. -/
def CarriesIDs (pb : Protobuf) (W : Writers) : Prop :=
  ∀ name e, W name e →
    ∃ data id, data.id = some id ∧ e = (serializeID id, pb.serializeAsString data)

variable {pb : Protobuf} {W : Writers} {r₀ : RocksDB} {folder : String}

/-- The message of an entry. -/
theorem CarriesIDs.carried (h : CarriesIDs pb W) {e : Slice × Bytes} (he : W folder e) :
    (pb.parseFromString e.2).id = some (deserializeID e.1) ∧
      Carried pb W folder (pb.parseFromString e.2) := by
  obtain ⟨data, id, hid, rfl⟩ := h folder e he
  rw [pb.parse_serialize, deserializeID_serializeID]
  exact ⟨hid, id, hid, he⟩

/-! ### One read -/

/-- A use of a handle finds entries that may be stored in the folder of its name. -/
theorem tracked_deref {cf : ColumnFamilyHandle} (hcf : cf.name = folder) :
    Yields (Tracked W r₀) (deref (some cf)) (fun p ↦ ∀ e ∈ p.2, W folder e) := by
  intro s hs
  have hread := readOnly_deref (some cf) s s rfl
  cases hr : (deref (some cf)).run s with
  | ok p t =>
    obtain ⟨rfl, hp, hf⟩ := run_deref_eq_ok hr
    cases hp
    exact ⟨hs, hs.sourced t.openDir folder p.2 (hcf ▸ hf)⟩
  | error failure t =>
    rw [hr] at hread
    exact hread ▸ hs

/-- A gRPC read of a folder. -/
theorem tracked_performIfExists {ρ : Type} {response : ρ}
    {fn : ColumnFamilyHandle → ClientM (GrpcStatus × ρ)} {Q : GrpcStatus × ρ → Prop}
    (hfn : ∀ cf, cf.name = folder → Yields (Tracked W r₀) (fn cf) Q)
    (hno : ∀ status : GrpcStatus, status.code ≠ .OK → Q (status, response)) :
    Yields (Tracked W r₀) (GRPCServer.performIfExists response folder fn) Q := by
  refine yields_tryCatch (yields_bind (tracked_getColumnFamily folder) (fun found hfound ↦ ?_)) ?_
  · cases found with
    | none => exact yields_pure (hno _ (by simp))
    | some cf => exact hfn cf (hfound cf rfl)
  · intro failure
    cases failure with
    | exception what => exact yields_pure (hno _ (by simp))
    | crash => exact yields_throw _

private theorem exists_of_get {es : ColumnFamily} (hes : ∀ e ∈ es, W folder e) {key : Slice}
    {val : Bytes} (h : OrderedStore.get IDComparator.compare key es = some val) :
    ∃ e, W folder e ∧ e.2 = val := by
  obtain ⟨e, he, rfl⟩ := Option.map_eq_some_iff.mp h
  exact ⟨e, hes e (OrderedStore.mem_of_find he), rfl⟩

private theorem tracked_get {cf : ColumnFamilyHandle} (hcf : cf.name = folder) (key : Slice) :
    Yields (Tracked W r₀) (DbClient.get (some cf) key)
      (fun r ↦ r.1.isOk = true → ∃ e, W folder e ∧ e.2 = r.2) := by
  refine yields_bind (tracked_deref hcf) (fun p hp ↦ ?_)
  cases hget : OrderedStore.get IDComparator.compare key p.2 with
  | none =>
    simp only [hget]
    exact yields_pure (fun hok ↦ by cases hok)
  | some val =>
    simp only [hget]
    exact yields_pure (fun _ ↦ exists_of_get hp hget)

/-- A lookup of a key. -/
theorem tracked_getAction (h : CarriesIDs pb W) (request : GetRequest)
    {cf : ColumnFamilyHandle} (hcf : cf.name = folder) :
    Yields (Tracked W r₀) (GRPCServer.getAction pb request cf)
      (fun r ↦ r.1.code = .OK ∧ Carried pb W folder r.2 ∨ r.1.code ≠ .OK ∧ r.2 = {}) := by
  refine yields_bind (tracked_get hcf _) (fun found hfound ↦ ?_)
  simp only
  split
  · exact yields_pure (Or.inr ⟨by simp, rfl⟩)
  · next hok =>
    obtain ⟨e, he, hval⟩ := hfound (Bool.eq_true_of_not_eq_false hok)
    exact yields_pure (Or.inl ⟨rfl, hval ▸ (h.carried he).2⟩)

/-- A scan. -/
theorem tracked_iter (h : CarriesIDs pb W) (request : RangeRequest) (fn : Callback)
    {cf : ColumnFamilyHandle} (hcf : cf.name = folder) :
    Yields (Tracked W r₀) (iter pb (some cf) request fn)
      (fun records ↦ ∀ r ∈ records, r.2.id = some r.1 ∧ Carried pb W folder r.2) := by
  refine yields_bind (tracked_deref hcf) (fun p hp ↦ yields_pure fun r hr ↦ ?_)
  obtain ⟨e, he, rfl⟩ := exists_entry_of_mem_scan hr
  exact h.carried (hp e he)

/-- The messages of a subsample. -/
def CarriedOrDefault (pb : Protobuf) (W : Writers) (folder : String) (data : Data) : Prop :=
  Carried pb W folder data ∨ data = pb.parseFromString []

/-- A batch lookup. -/
theorem tracked_getBatch (h : CarriesIDs pb W) {cf : ColumnFamilyHandle} (hcf : cf.name = folder)
    (keys : List Slice) :
    Yields (Tracked W r₀) (getBatch (some cf) keys)
      (fun statuses ↦ ∀ s ∈ statuses, CarriedOrDefault pb W folder (pb.parseFromString s.2)) := by
  refine yields_bind (tracked_deref hcf) (fun p hp ↦ yields_pure fun s hs ↦ ?_)
  obtain ⟨key, -, rfl⟩ := List.mem_map.mp hs
  rw [lookupKey]
  split
  · next hget =>
    obtain ⟨e, he, hval⟩ := exists_of_get hp hget
    exact Or.inl (hval ▸ (h.carried he).2)
  · exact Or.inr rfl

private theorem tracked_batchLoop (h : CarriesIDs pb W) {cf : ColumnFamilyHandle}
    (hcf : cf.name = folder) (draw : Rand → UInt64) (rand : Nat → Rand)
    (amount batchSize : UInt32) :
    Yields (Tracked W r₀) (batchLoop pb cf draw rand amount batchSize)
      (fun sent ↦ ∀ data ∈ sent, CarriedOrDefault pb W folder data) := by
  have hbatches (step : Nat) (is : List Int) (drawn : Nat) :
      Yields (Tracked W r₀) (batches pb cf draw rand step is drawn)
        (fun sent ↦ ∀ data ∈ sent, CarriedOrDefault pb W folder data) := by
    induction is generalizing drawn with
    | nil => exact yields_pure (by simp)
    | cons i rest ih =>
      rw [batches]
      split
      · refine yields_bind (tracked_getBatch h hcf _) (fun statuses hstatuses ↦ yields_bind (ih _)
          (fun later hlater ↦ yields_pure fun data hdata ↦ ?_))
        rcases List.mem_append.mp hdata with hdata | hdata
        · obtain ⟨s, hs, rfl⟩ := List.mem_map.mp hdata
          exact hstatuses s hs
        · exact hlater data hdata
      · exact yields_throw _
  unfold batchLoop
  simp only
  split
  · exact yields_throw _
  · exact hbatches _ _ 0

private theorem tracked_getSubsample (h : CarriesIDs pb W) (rnd : ℚ → ℚ) (rand : Nat → Rand)
    (request : SubsampleRequest) :
    Yields (Tracked W r₀) (GRPCServer.getSubsample pb rnd rand request)
      (fun r ↦ ∀ data ∈ r.2, CarriedOrDefault pb W request.folder data) := by
  refine tracked_performIfExists (fun cf hcf ↦ ?_) (fun _ _ ↦ by simp)
  refine yields_bind (yields_bind
    (yields_of_readOnly (GRPCServer.readOnly_sampledRange request cf))
    (fun _ _ ↦ tracked_batchLoop h hcf _ _ _ _)) (fun sent hsent ↦ yields_pure hsent)

private theorem tracked_getRange (h : CarriesIDs pb W) (context : GRPCServer.ServerContext)
    (request : RangeRequest) :
    Yields (Tracked W r₀) (GRPCServer.getRange pb context request)
      (fun r ↦ ∀ data ∈ r.2, Carried pb W request.folder data) := by
  refine tracked_performIfExists (fun cf hcf ↦ ?_) (fun _ _ ↦ by simp)
  refine yields_bind (tracked_iter h request _ hcf) (fun records hrecords ↦
    yields_pure fun data hdata ↦ ?_)
  obtain ⟨r, hr, rfl⟩ := List.mem_map.mp hdata
  exact (hrecords r hr).2

private theorem tracked_getRangeHandler (h : CarriesIDs pb W) (handler : GetRangeHandler) :
    Yields (Tracked W r₀) (handler.handleRequest pb)
      (fun r ↦ ∃ messages, r.2 = messageFrames messages ∧
        ∀ data ∈ messages, Carried pb W handler.name data) := by
  refine yields_bind (tracked_getColumnFamily handler.name) (fun found hfound ↦ ?_)
  cases found with
  | none => exact yields_pure ⟨[], rfl, by simp⟩
  | some cf =>
    refine yields_bind (tracked_iter h handler.request frameSize (hfound cf rfl))
      (fun records hrecords ↦ yields_pure ⟨records.map Prod.snd, ?_, fun data hdata ↦ ?_⟩)
    · exact (messageFrames_map_snd fun r hr ↦ (hrecords r hr).1).symm
    · obtain ⟨r, hr, rfl⟩ := List.mem_map.mp hdata
      exact (hrecords r hr).2

private theorem tracked_subsamplingHandler (h : CarriesIDs pb W) (rnd : ℚ → ℚ)
    (rand : Nat → Rand) (handler : SubsamplingHandler) :
    Yields (Tracked W r₀) (handler.handleRequest pb rnd rand)
      (fun r ↦ ∃ messages, r.2 = messageFrames messages ∧
        ∀ data ∈ messages, CarriedOrDefault pb W handler.name data) := by
  refine yields_bind (tracked_getColumnFamily handler.name) (fun found hfound ↦ ?_)
  cases found with
  | none => exact yields_pure ⟨[], rfl, by simp⟩
  | some cf =>
    refine yields_bind (yields_bind (yields_of_readOnly (handler.readOnly_sampledRange cf))
      (fun _ _ ↦ tracked_batchLoop h (hfound cf rfl) _ _ _ _))
      (fun sent hsent ↦ yields_pure ⟨sent, rfl, hsent⟩)

/-! ### Calls -/

/-- The calls that draw a subsample. -/
def Call.Samples : Call → Prop
  | .getSubsample .. => True
  | .http _ _ request _ =>
    match HandlerFactory.createRequestHandler request with
    | some (.subsampling _) => True
    | _ => False
  | .save .. | .get _ | .getRange .. => False

/-- An answer to a read shows messages of its folder, and for a subsample the default message. -/
def ShowsCarried (pb : Protobuf) (W : Writers) (folder : String) (c : Call) (a : Answer) : Prop :=
  ∃ messages, a.Shows messages ∧ ∀ data ∈ messages,
    Carried pb W folder data ∨ c.Samples ∧ data = pb.parseFromString []

/-- A read of a folder. -/
theorem tracked_read (lib : Libraries) (h : CarriesIDs lib.pb W) {c : Call}
    (hc : c.source = some folder) :
    Yields (Tracked W r₀) (c.serve lib) (ShowsCarried lib.pb W folder c) := by
  cases c with
  | save env request => cases hc
  | get request =>
    cases hc
    refine yields_bind (tracked_performIfExists (fun cf hcf ↦ tracked_getAction h request hcf)
      (fun status hstatus ↦ Or.inr ⟨hstatus, rfl⟩)) (fun r hr ↦ yields_pure ?_)
    rcases hr with ⟨hok, hr⟩ | ⟨hno, hr⟩
    · exact ⟨[r.2], by simp [Answer.Shows, hok], by simp [hr]⟩
    · exact ⟨[], by simp [Answer.Shows, hno, hr], by simp⟩
  | getRange context request =>
    cases hc
    exact yields_bind (tracked_getRange h context request) (fun r hr ↦
      yields_pure ⟨r.2, rfl, fun data hdata ↦ Or.inl (hr data hdata)⟩)
  | getSubsample rand request =>
    cases hc
    exact yields_bind (tracked_getSubsample h lib.rnd rand request) (fun r hr ↦
      yields_pure ⟨r.2, rfl, fun data hdata ↦ (hr data hdata).imp_right fun hd ↦ ⟨trivial, hd⟩⟩)
  | http env rand request body =>
    simp only [Call.source] at hc
    split at hc
    · next handler hh =>
      cases hc
      simp only [Call.serve, hh, Handler.handleRequest]
      refine yields_bind (tracked_getRangeHandler h handler) (fun r hr ↦ yields_pure ?_)
      obtain ⟨messages, hstream, hall⟩ := hr
      exact ⟨messages, hstream, fun data hdata ↦ Or.inl (hall data hdata)⟩
    · next handler hh =>
      cases hc
      simp only [Call.serve, hh, Handler.handleRequest]
      refine yields_bind (tracked_subsamplingHandler h lib.rnd rand handler)
        (fun r hr ↦ yields_pure ?_)
      obtain ⟨messages, hstream, hall⟩ := hr
      refine ⟨messages, hstream, fun data hdata ↦ (hall data hdata).imp_right fun hd ↦ ⟨?_, hd⟩⟩
      simp only [Call.Samples, hh]
    · cases hc

/-- So is the answer a server gives to a read. -/
theorem showsCarried_of_ask (lib : Libraries) (h : CarriesIDs lib.pb W) {client : DbClient}
    (hs : Tracked W r₀ client) {c : Call} (hc : c.source = some folder) {a : Answer}
    (hans : ((Process.running client).ask lib c).2 = .answer a) :
    ShowsCarried lib.pb W folder c a := by
  have hread := tracked_read lib h hc client hs
  simp only [Process.ask] at hans
  split at hans
  · next hr =>
    cases hans
    rw [hr] at hread
    exact hread.2
  · cases hans
  · cases hans

/-! ### Runs -/

private theorem carriesIDs_sends (pb : Protobuf) (c : Call) : CarriesIDs pb (c.Sends pb) := by
  intro name e h
  cases c with
  | save env request =>
    obtain ⟨-, -, id, -, rfl⟩ := h
    exact ⟨_, id, rfl, rfl⟩
  | http env rand request body =>
    simp only [Call.Sends] at h
    split at h
    · obtain ⟨-, -, id, -, rfl⟩ := h
      exact ⟨_, id, rfl, rfl⟩
    · exact h.elim
  | get request => exact h.elim
  | getRange context request => exact h.elim
  | getSubsample rand request => exact h.elim

/-- So is what the events of a run may store. -/
theorem sends_carriesIDs (pb : Protobuf) (events : List ServiceEvent) :
    CarriesIDs pb (fun name x ↦ ∃ e ∈ events, e.Sends pb name x) := by
  rintro name x ⟨e, -, he⟩
  cases e with
  | start impl env cfg => exact he.elim
  | call c => exact carriesIDs_sends pb c name x he

/-- In every run from an empty disk, whatever RocksDB answers and however often the server crashes
and is started, an answer to a read of a folder over gRPC or HTTP shows only messages that were sent
to the folder by an earlier `Save` or put whose write RocksDB reported as done, under the
identifiers they carry, or for a subsample the default message. -/
theorem read_was_sent (lib : Libraries) (events : List ServiceEvent) {c : Call} {folder : String}
    (hc : c.source = some folder) {a : Answer}
    (hans : (((Process.down RocksDB.empty).afterAll lib events).ask lib c).2 = .answer a) :
    ∃ messages, a.Shows messages ∧ ∀ data ∈ messages,
      (∃ id, data.id = some id ∧ ∃ e ∈ events,
        e.Sends lib.pb folder (serializeID id, lib.pb.serializeAsString data)) ∨
      c.Samples ∧ data = lib.pb.parseFromString [] := by
  have hcarries := sends_carriesIDs lib.pb events
  obtain ⟨r, hrun⟩ := tracked_from_empty lib events
  generalize (Process.down RocksDB.empty).afterAll lib events = p at hrun hans
  cases p with
  | down rocks => cases hans
  | running client => exact showsCarried_of_ask lib hcarries hrun hc hans

/-- A range read after a save that was refused and one that was written. -/
theorem read_was_sent_refused :
    let lib := Libraries.wire
    let env : Env := { now := 1, now_ne_zero := by decide }
    let events : List ServiceEvent :=
      [.start .localDBClient env {},
        .call (.save { env with put := .failed "IO error" } { folder := "f", data := [7] }),
        .call (.save env { folder := "f", data := [8] })]
    ∃ data id, (((Process.down RocksDB.empty).afterAll lib events).ask lib
        (.getRange ⟨fun _ ↦ false⟩ { folder := "f" })).2 = .answer (.written .OK [data]) ∧
      data.id = some id ∧ ∃ e ∈ events,
        e.Sends lib.pb "f" (serializeID id, lib.pb.serializeAsString data) := by
  intro lib env events
  have hans : (((Process.down RocksDB.empty).afterAll lib events).ask lib
      (.getRange ⟨fun _ ↦ false⟩ { folder := "f" })).2 =
        .answer (.written .OK [{ id := some ⟨1, 1⟩, data := [8] }]) := by decide +kernel
  obtain ⟨messages, rfl, hall⟩ := read_was_sent lib events rfl hans
  rcases hall _ (List.mem_singleton_self _) with ⟨id, hid, hsent⟩ | ⟨hno, -⟩
  · exact ⟨_, id, hans, hid, hsent⟩
  · exact hno.elim

end TimeMachine.Server
