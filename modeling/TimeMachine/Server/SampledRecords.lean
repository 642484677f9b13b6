import TimeMachine.Server.Sampling
import TimeMachine.Server.StoreInvariant
import TimeMachine.Server.Isolation

/-!
# What the messages of a subsample are

A lookup that finds a record leaves its message, a lookup that finds none leaves the
default message, and both are written. The default message is never stored, because
every stored message embeds an identifier; so a subsample whose batches have buffers is
made of stored messages exactly if each number it draws is found. A folder without
records has none to find, although the range drawn from is never empty.
-/

namespace TimeMachine.Server
open TimeMachine.Base TimeMachine.Base.StateError TimeMachine.Store TimeMachine.Client DbClient

/-- The messages stored in a folder. -/
def storedMessages (pb : Protobuf) (es : ColumnFamily) : List Data :=
  es.map fun e ↦ pb.parseFromString e.2

/-- A lookup that finds a record leaves a stored message. -/
theorem sampled_mem_of_found {es : ColumnFamily} {unique : UInt64}
    (h : IDComparator.Found es unique) (pb : Protobuf) :
    sampled pb es unique ∈ storedMessages pb es := by
  obtain ⟨e, he⟩ := Option.isSome_iff_exists.mp (IDComparator.isSome_find_iff.mpr h)
  rw [sampled, lookupKey, OrderedStore.get, he, Option.map_some]
  exact List.mem_map_of_mem (OrderedStore.mem_of_find he)

/-- A lookup that finds nothing leaves the default message. -/
theorem sampled_of_not_found {es : ColumnFamily} {unique : UInt64}
    (h : ¬ IDComparator.Found es unique) {pb : Protobuf} (hpb : pb.parseFromString [] = {}) :
    sampled pb es unique = {} := by
  rw [← IDComparator.isSome_find_iff, Option.not_isSome_iff_eq_none] at h
  rw [sampled, lookupKey, OrderedStore.get, h, Option.map_none]
  exact hpb

/-- The default message is not stored. -/
theorem default_notMem_storedMessages {pb : Protobuf} {es : ColumnFamily} (h : Stored pb es) :
    {} ∉ storedMessages pb es := by
  intro hmem
  obtain ⟨e, he, hdefault⟩ := List.mem_map.mp hmem
  have hid := h.embedded e he
  rw [hdefault] at hid
  cases hid

/-- What a lookup leaves is stored exactly if it finds something. -/
theorem sampled_mem_iff {pb : Protobuf} (hpb : pb.parseFromString [] = {}) {es : ColumnFamily}
    (h : Stored pb es) {unique : UInt64} :
    sampled pb es unique ∈ storedMessages pb es ↔ IDComparator.Found es unique := by
  refine ⟨fun hmem ↦ ?_, fun hfound ↦ sampled_mem_of_found hfound pb⟩
  by_contra hnot
  rw [sampled_of_not_found hnot hpb] at hmem
  exact default_notMem_storedMessages h hmem

/-- The records of a folder in use are stored as the server writes them. -/
theorem stored_of_records {pb : Protobuf} {s : DbClient} (h : Sound pb s) {name : String}
    {es : ColumnFamily} (hes : s.records name = some es) : Stored pb es := by
  obtain ⟨e, -, -, hfamily⟩ := records_eq_some.mp hes
  obtain ⟨d, hd, hes⟩ := Option.bind_eq_some_iff.mp hfamily
  exact h s.openDir d e.handle.name es hd hes

/-- What a run from an empty disk leaves in a folder is there for the client to use. -/
theorem exists_records (pb : Protobuf) (impl : Impl) (env : Env) (cfg : Config)
    (events : List Event) (name : String) (es : ColumnFamily)
    (hdir : cfg.dbName = cfg.openDir impl) (hopen : env.fakeOpen = .ok) (hlist : env.list = .ok)
    (hreopen : env.reopen = .ok) (h : ∀ e ∈ events, Durable impl cfg e)
    (hes : ((Process.down RocksDB.empty).after pb (.start impl env cfg :: events)).contents name =
      some es) :
    ∃ client, (Process.down RocksDB.empty).after pb (.start impl env cfg :: events) =
      .running client ∧ client.records name = some es := by
  obtain ⟨-, client, -, hserves, -, hclient⟩ := exists_running pb env hdir hopen hlist hreopen h
  rw [hclient] at hes
  obtain ⟨f, hf, rfl⟩ := view_of_family hserves hes
  exact ⟨client, hclient, records_of_view hserves hf⟩

/-- A folder with two records, for instance. -/
theorem exists_two_records :
    ∃ client, (Process.down RocksDB.empty).after Wire.wire
        [.start .localDBClient { now := 1, now_ne_zero := by decide } {},
          .save { now := 2, now_ne_zero := by decide } { folder := "f", timestamp := 5 },
          .save { now := 3, now_ne_zero := by decide } { folder := "f", timestamp := 7 }] =
        .running client ∧
      client.records "f" = some
        [(serializeID ⟨5, 0⟩, Wire.wire.serializeAsString { id := some ⟨5, 0⟩ }),
          (serializeID ⟨7, 1⟩, Wire.wire.serializeAsString { id := some ⟨7, 1⟩ })] :=
  exists_records Wire.wire .localDBClient _ {} _ "f" _ rfl rfl rfl rfl (by decide)
    (by decide +kernel)

/-- A gRPC subsample writes nothing but stored messages, and none for a lookup that finds
nothing. -/
def GRPCServer.WritesStored (pb : Protobuf) (rnd : ℚ → ℚ) (rand : Nat → Rand) (s : DbClient)
    (request : SubsampleRequest) (es : ColumnFamily) : Prop :=
  ∃ written, (GRPCServer.getSubsample pb rnd rand request).run s = .ok (.OK, written) s ∧
    (∀ message ∈ written, message ∈ storedMessages pb es) ∧
    written.length = (request.drawn rnd rand es).countP fun unique ↦
      (OrderedStore.find IDComparator.compare (serializeID { timestamp := 0, unique }) es).isSome

/-- In every state of a server that was started on an empty disk, a subsample of a folder in use
is made of messages stored there exactly if its batches have buffers and each unique number it
draws is the number of a record with only smaller ones before it. -/
theorem subsample_stored_iff {pb : Protobuf} (hpb : pb.parseFromString [] = {}) (rnd : ℚ → ℚ)
    (rand : Nat → Rand) {events : List Event} {client : DbClient}
    (hclient : (Process.down RocksDB.empty).after pb events = .running client)
    {request : SubsampleRequest} {es : ColumnFamily}
    (hes : client.records request.folder = some es) :
    GRPCServer.WritesStored pb rnd rand client request es ↔
      Buffered request.amount request.batchSize ∧
        ∀ unique ∈ request.drawn rnd rand es, IDComparator.Found es unique := by
  have hsound : StoreInvariant pb ((Process.down RocksDB.empty).after pb events).rocks :=
    storeInvariant_after (p := .down RocksDB.empty) storeInvariant_empty events
  rw [hclient] at hsound
  have hstored : Stored pb es := stored_of_records hsound hes
  rw [GRPCServer.WritesStored]
  by_cases hb : Buffered request.amount request.batchSize
  · rw [run_getSubsample pb rnd rand hes hb]
    constructor
    · rintro ⟨written, hrun, hmem, -⟩
      cases hrun
      exact ⟨hb, fun unique hunique ↦
        (sampled_mem_iff hpb hstored).mp (hmem _ (List.mem_map_of_mem hunique))⟩
    · rintro ⟨-, hfound⟩
      refine ⟨_, rfl, fun message hmessage ↦ ?_, ?_⟩
      · obtain ⟨unique, hunique, rfl⟩ := List.mem_map.mp hmessage
        exact sampled_mem_of_found (hfound unique hunique) pb
      · rw [SubsampleRequest.messages, List.length_map, eq_comm, List.countP_eq_length]
        exact fun unique hunique ↦ IDComparator.isSome_find_iff.mpr (hfound unique hunique)
  · rw [run_getSubsample_of_not_buffered pb rnd rand hes hb]
    refine iff_of_false ?_ (fun hboth ↦ hb hboth.1)
    rintro ⟨written, hrun, -⟩
    cases hrun

/-- A subsample of the one record of a folder. -/
theorem subsample_stored_one :
    ∃ client es, (Process.down RocksDB.empty).after Wire.wire
        [.start .localDBClient { now := 1, now_ne_zero := by decide } {},
          .save { now := 2, now_ne_zero := by decide } { folder := "f", data := [7] }] =
        .running client ∧ client.records "f" = some es ∧
      GRPCServer.WritesStored Wire.wire id (fun _ ↦ 0) client { amount := 3, folder := "f" } es := by
  let record : Slice × Bytes :=
    (serializeID ⟨2, 0⟩, Wire.wire.serializeAsString { id := some ⟨2, 0⟩, data := [7] })
  obtain ⟨client, hclient, hes⟩ := exists_records Wire.wire .localDBClient
    { now := 1, now_ne_zero := by decide } {}
    [.save { now := 2, now_ne_zero := by decide } { folder := "f", data := [7] }] "f" [record]
    rfl rfl rfl rfl (by decide) (by decide +kernel)
  refine ⟨client, _, hclient, hes, (subsample_stored_iff rfl id _ hclient hes).mpr ⟨by decide, ?_⟩⟩
  intro unique hunique
  have hdrawn : SubsampleRequest.drawn id (fun _ ↦ 0) { amount := 3, folder := "f" } [record] =
      List.replicate 3 0 := by
    decide +kernel
  rw [hdrawn] at hunique
  rw [List.eq_of_mem_replicate hunique]
  exact ⟨[], record, [], rfl, by decide, by simp⟩

/-- A subsample of the empty default folder consists of a message that is not stored. -/
theorem subsample_of_nothing :
    ¬ ∀ (pb : Protobuf) (rnd : ℚ → ℚ) (rand : Nat → Rand) (events : List Event) (client : DbClient)
        (request : SubsampleRequest) (es : ColumnFamily), pb.parseFromString [] = {} →
      (Process.down RocksDB.empty).after pb events = .running client →
      client.records request.folder = some es →
      GRPCServer.WritesStored pb rnd rand client request es := by
  intro hall
  let env : Env := { now := 1, now_ne_zero := by decide }
  obtain ⟨client, hstart⟩ := start_of_empty .localDBClient {} env rfl rfl rfl rfl
  have hclient : (Process.down RocksDB.empty).after Wire.wire [.start .localDBClient env {}] =
      .running client := by
    simp only [Process.after, List.foldl_cons, List.foldl_nil, Process.step, Process.rocks, hstart]
  have hes := records_start_empty hstart
  obtain ⟨written, hrun, hmem, -⟩ := hall Wire.wire id (fun _ ↦ 0) _ client
    { amount := 1, folder := defaultName } [] rfl hclient hes
  rw [run_getSubsample _ _ _ hes (by decide)] at hrun
  cases hrun
  exact absurd (hmem {} (by decide +kernel)) (by simp [storedMessages])

end TimeMachine.Server
