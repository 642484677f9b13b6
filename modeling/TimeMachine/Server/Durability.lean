import TimeMachine.Server.Requests
import TimeMachine.Base.Ledger
import TimeMachine.Base.Transition
import TimeMachine.Store.Wire
import Mathlib.Data.List.Induction

/-!
# Acknowledged messages

Whether every message a `Save` acknowledged can still be read, over runs of saves,
creations and restarts. The server is a ledger whose keys are folder and identifier;
opening the database again leaves what is held, but it sets each counter back to the
unique number of the last record, which was handed out already. A run keeps all its
promises exactly when no save writes over a record with another payload.
-/

namespace TimeMachine.Server
open TimeMachine.Base TimeMachine.Base.StateError TimeMachine.Store TimeMachine.Client
open TimeMachine.Client.DbClient

/-- A message under its folder and identifier. -/
abbrev Entry := (String × ID) × Data

/-- The message an answer promises to keep. -/
def acknowledged : Event → Reply → List Entry
  | .save _ request, .saved status id =>
    if status.code = .OK then [((request.folder, id), request.message id)] else []
  | _, _ => []

/-- The messages a run promises to keep. -/
def ackedBy (pb : Protobuf) (p : Process) (events : List Event) : List Entry :=
  (p.trace pb events).flatMap (fun x ↦ acknowledged x.1 x.2)

/-- A `Get` of the folder and the identifier returns the message. -/
def Readable (pb : Protobuf) (p : Process) (a : Entry) : Prop :=
  (p.step pb (.get { timestamp := a.1.2.timestamp, unique := a.1.2.unique, folder := a.1.1 })).2 =
    .got .OK a.2

instance (pb : Protobuf) (p : Process) (a : Entry) : Decidable (Readable pb p a) :=
  inferInstanceAs (Decidable (_ = _))

/-- A gRPC request, a creation or a restart, with a durable RocksDB. -/
def Clean (impl : Impl) (cfg : Config) : Event → Prop
  | .post .. => False
  | e => Durable impl cfg e

/-- A save that is going to be written finds no record with another payload under the key
made of its timestamp and the folder's counter. -/
def NoClash (pb : Protobuf) (p : Process) : Event → Prop
  | .save env request =>
    ∀ client, p = .running client → env.put = .ok → ∀ f, client.view request.folder = some f →
      ∀ val, (serializeID (request.nextID env f), val) ∈ f.records →
        (pb.parseFromString val).data = request.data
  | _ => True

/-! ### The ledger of a server -/

/-- The messages the folders hold. -/
def heldBy (pb : Protobuf) (F : Folders) : Set Entry :=
  {p | ∃ f val, F p.1.1 = some f ∧ (serializeID p.1.2, val) ∈ f.records ∧
    pb.parseFromString val = p.2}

variable {pb : Protobuf} {F : Folders}

/-- Opening again keeps what is held. -/
@[simp] theorem heldBy_reopen : heldBy pb F.reopen = heldBy pb F := by
  ext p
  simp only [heldBy, Set.mem_ofPred_eq, Folders.reopen, Option.map_eq_some_iff]
  constructor
  · rintro ⟨f, val, ⟨g, hg, rfl⟩, hmem, hval⟩
    exact ⟨g, val, hg, hmem, hval⟩
  · rintro ⟨f, val, hf, hmem, hval⟩
    exact ⟨f.reseed, val, ⟨f, hf, rfl⟩, hmem, hval⟩

/-- Making sure of a folder keeps what is held. -/
@[simp] theorem heldBy_touch (name : String) : heldBy pb (F.touch name) = heldBy pb F := by
  by_cases h : (F name).isSome
  · rw [Folders.touch_of_isSome h]
  · have hnone : F name = none := by simpa using h
    rw [Folders.touch_of_none hnone, ← heldBy_reopen (F := F)]
    ext p
    simp only [heldBy, Set.mem_ofPred_eq, Folders.create_apply]
    by_cases hn : p.1.1 = name
    · have hreopen : F.reopen name = none := by rw [Folders.reopen, hnone]; rfl
      simp [hn, hreopen]
    · simp [hn]

/-- Advancing a counter keeps what is held. -/
@[simp] theorem heldBy_issue (name : String) : heldBy pb (F.issue name) = heldBy pb F := by
  ext p
  simp only [heldBy, Set.mem_ofPred_eq]
  by_cases hn : p.1.1 = name
  · simp [Folders.issue, hn]
  · simp [Folders.issue_of_ne F hn]

variable (pb) in
/-- Writing a message under its identifier is a write of the ledger. -/
theorem heldBy_store (h : F.WellKept) {name : String} (hname : (F name).isSome) {id : ID}
    (hid : id.timestamp ≠ 0) (d : Data) (acked : List Entry) :
    (⟨heldBy pb (F.store name (serializeID id) (pb.serializeAsString d)),
        acked ++ [((name, id), d)]⟩ : Ledger (String × ID) Data) =
      (⟨heldBy pb F, acked⟩ : Ledger (String × ID) Data).write (name, id) d := by
  obtain ⟨f, hf⟩ := Option.isSome_iff_exists.mp hname
  have hmem := OrderedStore.mem_put IDComparator.dated_total (h name f hf)
    (IDComparator.dated_serializeID hid) (pb.serializeAsString d)
  rw [Ledger.write, Ledger.mk.injEq]
  refine ⟨?_, rfl⟩
  ext p
  rcases p with ⟨⟨folder, i⟩, m⟩
  simp only [heldBy, Set.mem_ofPred_eq]
  by_cases hn : folder = name
  · subst hn
    rw [Folders.store_self hf, hf]
    simp only [Option.some.injEq, exists_and_left, exists_eq_left', hmem, Prod.mk.injEq,
      serializeID_inj, ne_eq]
    constructor
    · rintro ⟨val, ⟨rfl, rfl⟩ | ⟨hold, hne⟩, rfl⟩
      · exact Or.inl ⟨⟨trivial, rfl⟩, pb.parse_serialize d⟩
      · exact Or.inr ⟨⟨val, hold, rfl⟩, fun he ↦ hne he.2⟩
    · rintro (⟨⟨-, rfl⟩, rfl⟩ | ⟨⟨val, hold, rfl⟩, hne⟩)
      · exact ⟨_, Or.inl ⟨rfl, rfl⟩, pb.parse_serialize m⟩
      · exact ⟨val, Or.inr ⟨hold, fun he ↦ hne ⟨trivial, he⟩⟩, rfl⟩
  · rw [Folders.store_of_ne F hn]
    simp [hn]

/-! ### One event -/

/-- A server between two events of a run of clean events: it runs a client that serves, its
folders are in key order, and its ledger is balanced and names each message by its own
identifier. -/
structure Auditing (pb : Protobuf) (impl : Impl) (cfg : Config) (client : DbClient)
    (acked : List Entry) : Prop where
  serves : Serves client
  impl_eq : client.impl = impl
  cfg_eq : client.cfg = cfg
  wellKept : client.view.WellKept
  balanced : (⟨heldBy pb client.view, acked⟩ : Ledger (String × ID) Data).Balanced
  named : ∀ a ∈ acked, a.1.2.timestamp ≠ 0 ∧ a.2.id = some a.1.2

/-- The promises of a server that are kept. -/
def AllHeld (pb : Protobuf) (client : DbClient) (acked : List Entry) : Prop :=
  (⟨heldBy pb client.view, acked⟩ : Ledger (String × ID) Data).Faithful

variable {impl : Impl} {cfg : Config} {client : DbClient} {acked : List Entry}

private theorem auditing_of_held (h : Auditing pb impl cfg client acked) {t : DbClient}
    (ht : Continues client t) (hkept : t.view.WellKept)
    (hheld : heldBy pb t.view = heldBy pb client.view) :
    Auditing pb impl cfg t acked ∧ (AllHeld pb t acked ↔ AllHeld pb client acked) := by
  refine ⟨⟨ht.serves, ht.impl.trans h.impl_eq, ht.cfg.trans h.cfg_eq, hkept, ?_, h.named⟩, ?_⟩
  · rw [hheld]
    exact h.balanced
  · rw [AllHeld, hheld, AllHeld]

private theorem agrees_iff_noClash (h : Auditing pb impl cfg client acked) {env : Env}
    (hput : env.put = .ok) {request : SaveRequest} {f : Folder}
    (hf : client.view.touch request.folder request.folder = some f) :
    (⟨heldBy pb (client.view.touch request.folder), acked⟩ : Ledger (String × ID) Data).Agrees
        (request.folder, request.nextID env f) (request.message (request.nextID env f)) ↔
      NoClash pb (.running client) (.save env request) := by
  constructor
  · rintro hagree client' hclient - f' hf' val hval
    cases hclient
    rw [Folders.touch_of_isSome (Option.isSome_of_eq_some hf'), hf'] at hf
    obtain rfl : f' = f := Option.some.inj hf
    have hheld : ((request.folder, request.nextID env f'), pb.parseFromString val) ∈
        heldBy pb (client.view.touch request.folder) := by
      rw [heldBy_touch]
      exact ⟨f', val, hf', hval, rfl⟩
    rw [hagree _ hheld]
    rfl
  · intro hclash w hw
    have hacked := h.balanced.backed _ (by rwa [heldBy_touch] at hw)
    have hid := (h.named _ hacked).2
    obtain ⟨g, val, hg, hval, rfl⟩ := hw
    obtain rfl : f = g := Option.some.inj (hf.symm.trans hg)
    cases hv : client.view request.folder with
    | none =>
      -- a folder that was just created holds nothing
      rw [Folders.touch_of_none hv, Folders.create_apply, if_pos rfl] at hf
      cases hf
      cases hval
    | some f' =>
      rw [Folders.touch_of_isSome (Option.isSome_of_eq_some hv), hv] at hf
      obtain rfl : f' = f := Option.some.inj hf
      have hdata := hclash client rfl hput f' hv val hval
      simp only at hid
      rw [SaveRequest.message, ← hid, ← hdata]

private theorem auditing_write (h : Auditing pb impl cfg client acked) {env : Env}
    (hput : env.put = .ok) {request : SaveRequest} {f : Folder}
    (hf : client.view.touch request.folder request.folder = some f) {t : DbClient}
    (ht : Continues client t)
    (hview : t.view = savedFolders pb env request f (client.view.touch request.folder)) :
    let promise : Entry :=
      ((request.folder, request.nextID env f), request.message (request.nextID env f))
    Auditing pb impl cfg t (acked ++ [promise]) ∧
      (AllHeld pb t (acked ++ [promise]) ↔
        AllHeld pb client acked ∧ NoClash pb (.running client) (.save env request)) := by
  intro promise
  have hkept := Folders.wellKept_issue
    (Folders.wellKept_touch h.wellKept request.folder) request.folder
  have hid := request.nextID_ne_zero env f
  have hsome : ((client.view.touch request.folder).issue request.folder
      request.folder).isSome := by
    rw [Folders.issue_self hf]
    rfl
  have hledger := heldBy_store pb hkept hsome hid
    (request.message (request.nextID env f)) acked
  rw [heldBy_issue] at hledger
  have hbal : (⟨heldBy pb (client.view.touch request.folder), acked⟩ :
      Ledger (String × ID) Data).Balanced := by
    rw [heldBy_touch]
    exact h.balanced
  rw [savedFolders_of_ok hput] at hview
  refine ⟨⟨ht.serves, ht.impl.trans h.impl_eq, ht.cfg.trans h.cfg_eq, ?_, ?_, ?_⟩, ?_⟩
  · rw [hview]
    exact Folders.wellKept_store hkept _ hid _
  · rw [hview, hledger]
    exact Ledger.balanced_write hbal _ _
  · intro a ha
    rcases List.mem_append.mp ha with ha | ha
    · exact h.named a ha
    · rw [List.mem_singleton.mp ha]
      exact ⟨hid, rfl⟩
  · rw [AllHeld, hview, hledger, Ledger.faithful_write_iff hbal, agrees_iff_noClash h hput hf,
      AllHeld, heldBy_touch]

private theorem auditing_save (h : Auditing pb impl cfg client acked) {env : Env}
    (henv : Healthy env) (request : SaveRequest) :
    ∃ t, ((Process.running client).step pb (.save env request)).1 = .running t ∧
      Auditing pb impl cfg t (acked ++ acknowledged (.save env request)
        ((Process.running client).step pb (.save env request)).2) ∧
      (AllHeld pb t (acked ++ acknowledged (.save env request)
          ((Process.running client).step pb (.save env request)).2) ↔
        AllHeld pb client acked ∧ NoClash pb (.running client) (.save env request)) := by
  obtain ⟨f, t, hf, hrun, ht, hview⟩ := run_save h.serves henv pb request
  have hstep : (Process.running client).step pb (.save env request) =
      (.running t, .saved (savedReply env.put (request.nextID env f)).1
        (savedReply env.put (request.nextID env f)).2) := by
    simp only [Process.step, Process.call, hrun]
  rw [hstep]
  refine ⟨t, rfl, ?_⟩
  cases hput : env.put with
  | failed text =>
    have hack : acknowledged (.save env request)
        (.saved (savedReply (.failed text) (request.nextID env f)).1
          (savedReply (.failed text) (request.nextID env f)).2) = [] := by
      simp [acknowledged, savedReply, Status.isOk]
    rw [savedFolders_of_failed hput] at hview
    have hkept : t.view.WellKept := by
      rw [hview]
      exact Folders.wellKept_issue (Folders.wellKept_touch h.wellKept _) _
    obtain ⟨haud, hheld⟩ := auditing_of_held h ht hkept
      (by rw [hview, heldBy_issue, heldBy_touch])
    rw [hack, List.append_nil, hheld]
    refine ⟨haud, (and_iff_left ?_).symm⟩
    intro client' _ hok
    rw [hput] at hok
    cases hok
  | ok =>
    have hack : acknowledged (.save env request)
        (.saved (savedReply .ok (request.nextID env f)).1
          (savedReply .ok (request.nextID env f)).2) =
        [((request.folder, request.nextID env f), request.message (request.nextID env f))] := by
      simp [acknowledged, savedReply, Status.isOk, GrpcStatus.OK]
    rw [hack]
    exact auditing_write h hput hf ht hview

/-- One clean event keeps the audit, and keeps all promises exactly if they were kept before
and the event does not clash. -/
theorem auditing_step (h : Auditing pb impl cfg client acked) {e : Event} (he : Clean impl cfg e) :
    ∃ t, ((Process.running client).step pb e).1 = .running t ∧
      Auditing pb impl cfg t
        (acked ++ acknowledged e ((Process.running client).step pb e).2) ∧
      (AllHeld pb t (acked ++ acknowledged e ((Process.running client).step pb e).2) ↔
        AllHeld pb client acked ∧ NoClash pb (.running client) e) := by
  have hquiet {t : DbClient} (ht : Continues client t) (hkept : t.view.WellKept)
      (hheld : heldBy pb t.view = heldBy pb client.view) :
      Auditing pb impl cfg t (acked ++ []) ∧
        (AllHeld pb t (acked ++ []) ↔ AllHeld pb client acked ∧ True) := by
    rw [List.append_nil, and_true]
    exact auditing_of_held h ht hkept hheld
  cases e with
  | save env request => exact auditing_save h he request
  | post env name query body => exact he.elim
  | start impl' env cfg' =>
    obtain ⟨rfl, rfl, henv⟩ := he
    obtain ⟨t, hrun, ht, hview, himpl, hcfg⟩ := run_restart h.serves henv
    rw [h.impl_eq, h.cfg_eq] at hrun
    simp only [Process.step, Process.rocks, hrun, acknowledged, NoClash]
    refine ⟨t, rfl, hquiet ⟨ht, himpl, hcfg⟩ ?_ ?_⟩
    · rw [hview]
      exact Folders.wellKept_reopen h.wellKept
    · rw [hview, heldBy_reopen]
  | create env name =>
    obtain ⟨cf, t, hrun, hobt⟩ := run_getOrCreate h.serves he name
    simp only [Process.step, Process.call, hrun, acknowledged, NoClash]
    refine ⟨t, rfl, hquiet ⟨hobt.serves, hobt.frame.1, hobt.frame.2⟩ ?_ ?_⟩
    · rw [hobt.view]
      exact Folders.wellKept_touch h.wellKept name
    · rw [hobt.view, heldBy_touch]
  | get request =>
    have hsame : ∃ r, (GRPCServer.get pb request).run client = .ok r client := by
      cases hv : client.view request.folder with
      | none => exact ⟨_, run_getRequest_of_none h.serves pb hv⟩
      | some f => exact ⟨_, run_getRequest h.serves pb request hv⟩
    obtain ⟨r, hrun⟩ := hsame
    simp only [Process.step, Process.call, hrun, acknowledged, NoClash]
    exact ⟨client, rfl, hquiet ⟨h.serves, rfl, rfl⟩ h.wellKept rfl⟩

/-- A promise can be read back exactly if it is held. -/
theorem readable_iff (h : Auditing pb impl cfg client acked) {a : Entry} (ha : a ∈ acked) :
    Readable pb (.running client) a ↔ a ∈ heldBy pb client.view := by
  rcases a with ⟨⟨folder, id⟩, m⟩
  have hid : id.timestamp ≠ 0 := (h.named _ ha).1
  obtain ⟨w, f, -, hf, -⟩ := h.balanced.covered _ ha
  have hget := run_getRequest h.serves pb
    ({ timestamp := id.timestamp, unique := id.unique, folder } : GetRequest) hf
  have hfind (val : Bytes) := OrderedStore.get_eq_some_iff IDComparator.dated_total
    (h.wellKept folder f hf) (IDComparator.dated_serializeID hid) val
  simp only [Readable, Process.step, Process.call, hget, heldBy, Set.mem_ofPred_eq, hf,
    Option.some.injEq, exists_and_left, exists_eq_left', ← hfind]
  cases hv : OrderedStore.get IDComparator.compare (serializeID id) f.records with
  | none => simp [GrpcStatus.OK]
  | some val => simp

/-! ### Runs -/

/-- A run of clean events from a server that audits. -/
theorem auditing_run {p : Process} (hp : ∃ client, p = .running client ∧
    Auditing pb impl cfg client [] ∧ AllHeld pb client []) (events : List Event)
    (hclean : ∀ e ∈ events, Clean impl cfg e) :
    ∃ client, p.after pb events = .running client ∧
      Auditing pb impl cfg client (ackedBy pb p events) ∧
      (AllHeld pb client (ackedBy pb p events) ↔
        AtEach (fun pre e ↦ NoClash pb (p.after pb pre) e) events) := by
  induction events using List.reverseRecOn with
  | nil =>
    obtain ⟨client, rfl, haud, hheld⟩ := hp
    exact ⟨client, rfl, haud, iff_of_true hheld (atEach_nil _)⟩
  | append_singleton events e ih =>
    obtain ⟨client, hafter, haud, hiff⟩ := ih (fun e he ↦ hclean e (List.mem_append_left _ he))
    obtain ⟨t, hstep, haud', hiff'⟩ := auditing_step haud
      (hclean e (List.mem_append_right _ (List.mem_singleton_self e)))
    have hacked : ackedBy pb p (events ++ [e]) =
        ackedBy pb p events ++ acknowledged e ((Process.running client).step pb e).2 := by
      rw [ackedBy, Process.trace_concat, List.flatMap_append, hafter]
      simp [ackedBy]
    refine ⟨t, ?_, ?_, ?_⟩
    · rw [Process.after_concat, hafter, hstep]
    · rw [hacked]
      exact haud'
    · rw [hacked, hiff', hiff, atEach_concat, hafter]

variable (pb) in
/-- A server just started on an empty disk has promised nothing. -/
theorem auditing_start {env : Env} (h : start impl env cfg RocksDB.empty = .ok () client) :
    Auditing pb impl cfg client [] ∧ AllHeld pb client [] := by
  have hdir := same_dir_of_start_empty h
  obtain ⟨i, hserv⟩ := start_serving hdir h
  obtain ⟨himpl, hcfg⟩ := frame_start hdir h
  refine ⟨⟨⟨i, _, hserv⟩, himpl, hcfg, ?_, ⟨?_, by simp⟩, by simp⟩,
    by simp [AllHeld, Ledger.Faithful]⟩
  · intro name f hf
    rw [view_start_empty h hf]
    exact OrderedStore.kept_nil
  · rintro p ⟨f, val, hf, hmem, -⟩
    rw [view_start_empty h hf] at hmem
    cases hmem

/-- From a start on an empty disk, a run of saves, reads, creations and restarts stays up, and
each message whose `Save` was acknowledged can be read back at the end, unaltered, exactly if
no save of the run clashes. -/
theorem acknowledged_readable_iff (pb : Protobuf) {env : Env} {cfg : Config} {client : DbClient}
    (hstart : newLocalDBClient env cfg RocksDB.empty = .ok () client) {events : List Event}
    (hclean : ∀ e ∈ events, Clean .localDBClient cfg e) :
    (∃ t, (Process.running client).after pb events = .running t) ∧
    ((∀ a ∈ ackedBy pb (.running client) events,
        Readable pb ((Process.running client).after pb events) a) ↔
      AtEach (fun pre e ↦ NoClash pb ((Process.running client).after pb pre) e) events) := by
  obtain ⟨haud, hheld⟩ := auditing_start pb hstart
  obtain ⟨t, hafter, haudit, hiff⟩ := auditing_run ⟨client, rfl, haud, hheld⟩ events hclean
  refine ⟨⟨t, hafter⟩, ?_⟩
  rw [← hiff, hafter]
  constructor
  · intro h a ha
    exact (readable_iff haudit ha).mp (h a ha)
  · intro h a ha
    exact (readable_iff haudit ha).mpr (h a ha)

/-- One save, read back. -/
theorem acknowledged_readable_once :
    ∃ client, newLocalDBClient { now := 1, now_ne_zero := by decide } {} RocksDB.empty =
        .ok () client ∧
      ∀ a ∈ ackedBy Wire.wire (.running client)
          [.save { now := 2, now_ne_zero := by decide } { folder := "f", data := [7] }],
        Readable Wire.wire ((Process.running client).after Wire.wire
          [.save { now := 2, now_ne_zero := by decide } { folder := "f", data := [7] }]) a := by
  obtain ⟨client, hstart⟩ := start_of_empty .localDBClient {}
    { now := 1, now_ne_zero := by decide } rfl rfl rfl rfl
  refine ⟨client, hstart, (acknowledged_readable_iff Wire.wire hstart ?_).2.mpr ?_⟩
  · intro e he
    rw [List.mem_singleton.mp he]
    exact ⟨rfl, rfl, rfl⟩
  · rw [← List.nil_append [_], atEach_concat]
    refine ⟨atEach_nil _, ?_⟩
    intro client' hclient _ f hf val hval
    obtain rfl : client = client' := Process.running.inj hclient
    rw [view_start_empty hstart hf] at hval
    cases hval

/-- Saving, creating another folder and saving again with the same timestamp loses the first
message: its identifier is handed out a second time. -/
theorem acknowledged_overwritten :
    ¬ ∀ (pb : Protobuf) (env : Env) (cfg : Config) (client : DbClient) (events : List Event),
      newLocalDBClient env cfg RocksDB.empty = .ok () client →
      (∀ e ∈ events, Clean .localDBClient cfg e) →
      ∀ a ∈ ackedBy pb (.running client) events,
        Readable pb ((Process.running client).after pb events) a := by
  intro hall
  let env : Env := { now := 1, now_ne_zero := by decide }
  let events : List Event :=
    [.save env { folder := "f", data := [1], timestamp := 5 }, .create env "g",
      .save env { folder := "f", data := [2], timestamp := 5 }]
  obtain ⟨client, hstart⟩ := start_of_empty .localDBClient {} env rfl rfl rfl rfl
  have hrun : ((Process.down RocksDB.empty).step Wire.wire (.start .localDBClient env {})).1 =
      .running client := by
    simp only [Process.step, Process.rocks, hstart]
  have hclean : ∀ e ∈ events, Clean .localDBClient {} e := by
    intro e he
    simp only [events, List.mem_cons, List.not_mem_nil, or_false] at he
    rcases he with rfl | rfl | rfl <;> exact ⟨rfl, rfl, rfl⟩
  have hlost := hall Wire.wire env {} client events hstart hclean
    (("f", ⟨5, 0⟩), { id := some ⟨5, 0⟩, data := [1] })
  rw [← hrun] at hlost
  revert hlost
  decide +kernel

end TimeMachine.Server
