import TimeMachine.Server.SampleStreams
import TimeMachine.Server.Retrieval
import TimeMachine.Client.Numbers

/-!
# Sampling an archive that was written in order

Where subsampling does what it is for: in a run in which no write to a folder goes back in
time and RocksDB takes each, the numbers of the folder leave none out, whatever is created
and restarted in between. A subsample of the whole folder then is made of last writes,
over gRPC and over HTTP alike, and none of the numbers is out of its reach.
-/

namespace TimeMachine.Server
open TimeMachine.Base TimeMachine.Base.StateError TimeMachine.Store TimeMachine.Client DbClient

/-! ### The writes of a run -/

/-- The save an event stands for, with what it finds in its environment. -/
def Event.request : Event → Option (Env × SaveRequest)
  | .save env request => some (env, request)
  | .post env name query body =>
    let h := createSaveHandler name query
    some (env, { folder := h.name, data := body, timestamp := h.timestamp })
  | .start .. | .create .. | .get _ => none

/-- The saves to a folder in a run of the process. -/
def savesIn (name : String) (events : List Event) : List (Env × SaveRequest) :=
  (events.filterMap Event.request).filter fun w ↦ w.2.folder = name

/-- The saves to a folder in a run of the service. -/
def savesTo (name : String) (events : List ServiceEvent) : List (Env × SaveRequest) :=
  savesIn name (events.filterMap ServiceEvent.event)

/-- The timestamp a save is written under. -/
def stamp (w : Env × SaveRequest) : UInt64 := effectiveTs w.1 w.2.timestamp

/-- The saves do not go back in time, and RocksDB takes each. -/
structure InOrder (saves : List (Env × SaveRequest)) : Prop where
  sorted : (saves.map stamp).Pairwise (· ≤ ·)
  taken : ∀ w ∈ saves, w.1.put = .ok

/-- An event that saves nothing. -/
theorem savesIn_of_none (name : String) {e : Event} (h : e.request = none) :
    savesIn name [e] = [] := by
  rw [savesIn, List.filterMap_cons_none h, List.filterMap_nil, List.filter_nil]

/-- An event that saves. -/
theorem savesIn_of_some (name : String) {e : Event} {w : Env × SaveRequest}
    (h : e.request = some w) : savesIn name [e] = if w.2.folder = name then [w] else [] := by
  rw [savesIn, List.filterMap_cons_some h, List.filterMap_nil, List.filter_singleton,
    Bool.cond_decide]

section Runs
variable {s : DbClient} {impl : Impl} {cfg : Config} {name : String} {stamps : List UInt64}

/-- What a durable event does to the folders: it saves, or it opens the database again, or makes
sure of a folder, or does nothing to them. -/
theorem view_step (hs : Serves s) (pb : Protobuf) {e : Event} (he : Durable s.impl s.cfg e) :
    ∃ t, ((Process.running s).step pb e).1 = .running t ∧ Continues s t ∧
      match e.request with
      | some (env, request) => ∃ f, s.view.touch request.folder request.folder = some f ∧
          t.view = savedFolders pb env request f (s.view.touch request.folder)
      | none => t.view = s.view ∨ t.view = s.view.reopen ∨
          ∃ other, t.view = s.view.touch other := by
  cases e with
  | start impl env cfg =>
    obtain ⟨rfl, rfl, henv⟩ := he
    obtain ⟨t, hrun, ht, hview, himpl, hcfg⟩ := run_restart hs henv
    exact ⟨t, by simp only [Process.step, Process.rocks, hrun], ⟨ht, himpl, hcfg⟩,
      Or.inr (Or.inl hview)⟩
  | save env request =>
    obtain ⟨f, t, hf, hrun, ht, hview⟩ := run_save hs he pb request
    exact ⟨t, by simp only [Process.step, Process.call, hrun], ht, f, hf, hview⟩
  | post env name query body =>
    obtain ⟨f, t, hf, hrun, ht, hview⟩ :=
      run_handleRequest hs he pb (createSaveHandler name query) body
    exact ⟨t, by simp only [Process.step, Process.call, hrun], ht, f, hf, hview⟩
  | create env name =>
    obtain ⟨cf, t, hrun, ht⟩ := run_getOrCreate hs he name
    exact ⟨t, by simp only [Process.step, Process.call, hrun],
      ⟨ht.serves, ht.frame.1, ht.frame.2⟩, Or.inr (Or.inr ⟨name, ht.view⟩)⟩
  | get request =>
    have hsame : ∃ r, (GRPCServer.get pb request).run s = .ok r s := by
      cases hv : s.view request.folder with
      | none => exact ⟨_, run_getRequest_of_none hs pb hv⟩
      | some f => exact ⟨_, run_getRequest hs pb _ hv⟩
    obtain ⟨r, hrun⟩ := hsame
    exact ⟨s, by simp only [Process.step, Process.call, hrun], ⟨hs, rfl, rfl⟩, Or.inl rfl⟩

private theorem savedFolders_of_ne {request : SaveRequest} (h : name ≠ request.folder)
    (pb : Protobuf) (env : Env) (f : Folder) (F : Folders) :
    savedFolders pb env request f F name = F name := by
  simp only [savedFolders]
  split
  · rw [Folders.store_of_ne _ h, Folders.issue_of_ne _ h]
  · rw [Folders.issue_of_ne _ h]

/-- A durable event keeps a folder in order, with the timestamps it writes under. -/
theorem inOrder_step (hs : Serves s) (pb : Protobuf) {e : Event} (he : Durable s.impl s.cfg e)
    (h : s.view.InOrder stamps name) (hin : InOrder (savesIn name [e]))
    (hlate : ∀ t ∈ stamps, ∀ w ∈ savesIn name [e], t ≤ stamp w)
    (hlen : stamps.length + (savesIn name [e]).length < 2 ^ 64) :
    ∃ t, ((Process.running s).step pb e).1 = .running t ∧ Continues s t ∧
      t.view.InOrder (stamps ++ (savesIn name [e]).map stamp) name := by
  obtain ⟨t, hstep, ht, hview⟩ := view_step hs pb he
  refine ⟨t, hstep, ht, ?_⟩
  cases hreq : e.request with
  | none =>
    rw [hreq] at hview
    rw [savesIn_of_none name hreq, List.map_nil, List.append_nil]
    rcases hview with hview | hview | ⟨other, hview⟩
    · rwa [hview]
    · rw [hview]
      exact h.reopen
    · rw [hview]
      exact h.touch other
  | some w =>
    obtain ⟨env, request⟩ := w
    rw [hreq] at hview
    obtain ⟨f, hf, hview⟩ := hview
    have htouch := h.touch request.folder
    rw [savesIn_of_some name hreq] at hin hlate hlen ⊢
    by_cases hn : request.folder = name
    · rw [if_pos hn] at hin hlate hlen ⊢
      subst hn
      have hput : env.put = .ok := hin.taken (env, request) List.mem_cons_self
      rw [savedFolders_of_ok hput] at hview
      intro g hg
      rw [hview, Option.mem_def, Folders.store_self (Folders.issue_self hf)] at hg
      cases hg
      exact (htouch f hf).saved (request.nextID_ne_zero env f)
        (fun t ht ↦ hlate t ht (env, request) List.mem_cons_self) hlen _
    · rw [if_neg hn, List.map_nil, List.append_nil]
      intro g hg
      rw [hview, Option.mem_def, savedFolders_of_ne (Ne.symm hn)] at hg
      exact htouch g hg

/-- The saves of two runs, one after the other. -/
theorem savesIn_append (name : String) (events later : List Event) :
    savesIn name (events ++ later) = savesIn name events ++ savesIn name later := by
  rw [savesIn, List.filterMap_append, List.filter_append]
  rfl

/-- Durable events keep a folder in order, with the timestamps they write under. -/
theorem inOrder_run {p : Process} (hp : ∃ s, p = .running s ∧ Serves s ∧ s.impl = impl ∧
    s.cfg = cfg ∧ s.view.InOrder [] name) (pb : Protobuf) {events : List Event}
    (he : ∀ e ∈ events, Durable impl cfg e) (hin : InOrder (savesIn name events))
    (hlen : (savesIn name events).length < 2 ^ 64) :
    ∃ t, p.after pb events = .running t ∧ Serves t ∧ t.impl = impl ∧ t.cfg = cfg ∧
      t.view.InOrder ((savesIn name events).map stamp) name := by
  induction events using List.reverseRecOn with
  | nil => exact hp
  | append_singleton events e ih =>
    rw [savesIn_append] at hin hlen ⊢
    have hsorted := hin.sorted
    rw [List.map_append, List.pairwise_append] at hsorted
    have hold : InOrder (savesIn name events) :=
      ⟨hsorted.1, fun w hw ↦ hin.taken w (List.mem_append_left _ hw)⟩
    have hnew : InOrder (savesIn name [e]) :=
      ⟨hsorted.2.1, fun w hw ↦ hin.taken w (List.mem_append_right _ hw)⟩
    obtain ⟨s, hafter, hs, rfl, rfl, hview⟩ :=
      ih (fun e' he' ↦ he e' (List.mem_append_left _ he')) hold (by
        rw [List.length_append] at hlen
        omega)
    obtain ⟨t, hstep, ht, hview'⟩ := inOrder_step hs pb
      (he e (List.mem_append_right _ (List.mem_singleton_self e))) hview hnew
      (fun t ht w hw ↦ hsorted.2.2 t ht (stamp w) (List.mem_map_of_mem hw))
      (by rwa [List.length_map, ← List.length_append])
    refine ⟨t, ?_, ht.serves, ht.impl, ht.cfg, ?_⟩
    · rw [Process.after_concat, hafter, hstep]
    · rwa [List.map_append]

end Runs

/-! ### The writes in the archive -/

/-- The timestamps of the writes to a folder. -/
def Archive.stamps (a : Archive) (name : String) : List UInt64 :=
  ((a name).getD []).map fun x ↦ x.1.timestamp

section Stamps
variable {lib : Libraries} {a b : Archive} {name : String}

/-- Only writes to the folder add to them. -/
theorem Archive.stamps_append (a : Archive) (other name : String) (records : List (ID × Data)) :
    (a.append other records).stamps name =
      a.stamps name ++ if other = name then records.map (fun x ↦ x.1.timestamp) else [] := by
  rw [stamps, append_apply]
  by_cases h : name = other
  · rw [if_pos h, if_pos h.symm, Option.getD_some, List.map_append, h]
    rfl
  · rw [if_neg h, if_neg (Ne.symm h), List.append_nil]
    rfl

/-- What tells an answer does not write. -/
theorem not_writes_of_tells {C : Contents} {answer : Answer} {c : Call} (h : Tells lib C answer c) :
    ¬ c.Writes := by
  cases c with
  | save env request => exact h.elim
  | get request => exact id
  | getRange context request => exact id
  | getSubsample rand request => exact id
  | http env rand request body =>
    intro hroute
    simp only [Tells, HandlerFactory.createRequestHandler_of_put hroute, Handler.Tells] at h

/-- What does not write saves nothing. -/
theorem savesTo_of_not_writes {c : Call} (h : ¬ c.Writes) : savesTo name [.call c] = [] := by
  cases c with
  | save env request => exact absurd trivial h
  | get request => rfl
  | getRange context request => rfl
  | getSubsample rand request => rfl
  | http env rand request body =>
    have hevent : (ServiceEvent.call (.http env rand request body)).event = none := by
      simp only [ServiceEvent.event, Call.event]
      split
      · next hroute => exact absurd hroute h
      · rfl
    rw [savesTo, List.filterMap_cons_none hevent]
    rfl

/-- A put saves its body. -/
theorem savesTo_of_put {env : Env} {rand : Nat → Rand} {request : HTTPServerRequest} {body : Bytes}
    (hroute : HandlerFactory.route request = .put) :
    savesTo name [.call (.http env rand request body)] =
      let h := createSaveHandler (request.path.get 0) request.queryParameters
      if h.name = name then [(env, { folder := h.name, data := body, timestamp := h.timestamp })]
      else [] := by
  have hevent : (ServiceEvent.call (.http env rand request body)).event =
      some (.post env (request.path.get 0) request.queryParameters body) := by
    simp only [ServiceEvent.event, Call.event, hroute]
  rw [savesTo, List.filterMap_cons_some hevent, List.filterMap_nil]
  exact savesIn_of_some name
    (e := .post env (request.path.get 0) request.queryParameters body) rfl

/-- A step of the archive writes under the timestamp of the save it answers. -/
theorem stamps_step {e : ServiceEvent} {r : Response} (h : Archive.Step lib a e r b)
    (htaken : ∀ w ∈ savesTo name [e], w.1.put = .ok) :
    b.stamps name = a.stamps name ++ (savesTo name [e]).map stamp := by
  cases h with
  | start impl env cfg => exact (List.append_nil _).symm
  | read h =>
    rw [savesTo_of_not_writes (not_writes_of_tells h)]
    exact (List.append_nil _).symm
  | @saved env request id hput hts =>
    have hone : savesTo name [.call (.save env request)] = _ := savesIn_of_some name rfl
    rw [Archive.stamps_append, hone]
    split
    · rw [List.map_singleton, List.map_singleton, hts]
      rfl
    · rfl
  | @refused env request text hput =>
    have hone : savesTo name [.call (.save env request)] = _ := savesIn_of_some name rfl
    rw [hone] at htaken
    rw [Archive.stamps_append, hone]
    split
    · next hn =>
      rw [if_pos hn] at htaken
      have hok := htaken _ List.mem_cons_self
      rw [hput] at hok
      cases hok
    · rfl
  | @posted env rand request body h id hhandler hts =>
    have hroute := HandlerFactory.route_of_save hhandler
    rw [HandlerFactory.createRequestHandler_of_put hroute] at hhandler
    cases hhandler
    rw [savesTo_of_put hroute] at htaken
    rw [Archive.stamps_append, savesTo_of_put hroute]
    dsimp only at htaken ⊢
    split
    · next hn =>
      rw [if_pos hn] at htaken
      have hok : env.put.isOk = true := by
        rw [show env.put = .ok from htaken _ List.mem_cons_self]
        rfl
      rw [if_pos hok, List.map_singleton, List.map_singleton, hts]
      rfl
    · rfl

/-- A run of the archive writes under the timestamps of its saves. -/
theorem stamps_run {l : List (ServiceEvent × Response)} (h : Archive.Run lib a l b)
    (htaken : ∀ w ∈ savesTo name (l.map Prod.fst), w.1.put = .ok) :
    b.stamps name = a.stamps name ++ (savesTo name (l.map Prod.fst)).map stamp := by
  induction h with
  | nil a => exact (List.append_nil _).symm
  | @cons a b c e r rest hstep hrest ih =>
    have hsplit : savesTo name (e :: rest.map Prod.fst) =
        savesTo name [e] ++ savesTo name (rest.map Prod.fst) := by
      rw [savesTo, ← List.singleton_append, List.filterMap_append, savesIn_append]
      rfl
    rw [List.map_cons, hsplit] at htaken ⊢
    rw [ih fun w hw ↦ htaken w (List.mem_append_right _ hw),
      stamps_step hstep fun w hw ↦ htaken w (List.mem_append_left _ hw), List.map_append,
      List.append_assoc]

end Stamps

/-! ### A folder and its log -/

/-- A folder of a server that was written in order, fewer than 2^31 times, and the log of what was
written. -/
structure WrittenInOrder (lib : Libraries) (s : DbClient) (name : String) (log : List (ID × Data))
    (f : Folder) : Prop where
  serves : Serves s
  view : s.view name = some f
  dated : Archive.DatedLog log
  records : f.records = OrderedStore.replay IDComparator.compare (log.map (Archive.entry lib.pb))
  nonempty : log ≠ []
  short : log.length < 2 ^ 31
  inOrder : f.InOrder (log.map fun x ↦ x.1.timestamp)

namespace WrittenInOrder
variable {lib : Libraries} {s : DbClient} {name : String} {log : List (ID × Data)} {f : Folder}
  (h : WrittenInOrder lib s name log f)

include h

/-- Each write of the log left a record under its identifier. -/
theorem exists_entry {x : ID × Data} (hx : x ∈ log) :
    ∃ e ∈ f.records, deserializeID e.1 = x.1 :=
  h.records ▸ exists_entry_of_mem lib.pb h.dated hx

/-- The log left records. -/
theorem records_ne_nil : f.records ≠ [] := by
  obtain ⟨x, hx⟩ := List.exists_mem_of_ne_nil log h.nonempty
  obtain ⟨e, he, -⟩ := h.exists_entry hx
  exact List.ne_nil_of_mem he

/-- The record under an identifier is its last write. -/
theorem lastWrite_entry {e : Slice × Bytes} (he : e ∈ f.records) :
    lastWrite (deserializeID e.1) log = some (lib.pb.parseFromString e.2) := by
  have hmem : entryRecord lib.pb e ∈ allRecords lib.pb f.records := List.mem_map_of_mem he
  rw [h.records] at hmem
  exact (mem_records_replay lib.pb h.dated _).mp hmem

/-- A lookup by number that finds a record leaves its message, the last write under the
identifier it carries. -/
theorem sampled_of_find {unique : UInt64} {e : Slice × Bytes}
    (he : OrderedStore.find IDComparator.compare (serializeID ⟨0, unique⟩) f.records = some e) :
    (sampled lib.pb f.records unique).id = some (deserializeID e.1) ∧
      lastWrite (deserializeID e.1) log = some (sampled lib.pb f.records unique) := by
  have hlast := h.lastWrite_entry (OrderedStore.mem_of_find he)
  have hsampled : sampled lib.pb f.records unique = lib.pb.parseFromString e.2 := by
    rw [sampled, lookupKey, OrderedStore.get, he, Option.map_some]
  rw [hsampled]
  exact ⟨(h.dated _ (mem_of_lastWrite hlast)).2, hlast⟩

/-- A number up to the last is looked up with success. -/
theorem exists_find {unique : UInt64} (hu : unique ≤ (uniqueRange f.records).till) :
    ∃ e, OrderedStore.find IDComparator.compare (serializeID ⟨0, unique⟩) f.records = some e := by
  have hfound := h.inOrder.found h.records_ne_nil hu
  exact Option.isSome_iff_exists.mp (IDComparator.isSome_find_iff.mpr hfound)

/-- The range of the folder is from zero to an `int`. -/
theorem uniqueRange_small : (uniqueRange f.records).from' = 0 ∧
    (uniqueRange f.records).till.toNat ≤ log.length := by
  have hle := (h.inOrder.till_le h.records_ne_nil).trans h.inOrder.lastUnique_le
  rw [List.length_map] at hle
  exact ⟨h.inOrder.from_eq_zero h.records_ne_nil, hle⟩

/-- A range in order that ends with the folder is narrow. -/
theorem narrow_of_le {range : UniqueRange} (hle : range.from' ≤ range.till)
    (htill : range.till ≤ (uniqueRange f.records).till) : UniqueRange.Narrow range := by
  have hsmall := Nat.lt_of_le_of_lt h.uniqueRange_small.2 h.short
  rw [UInt64.le_iff_toNat_le] at htill
  have hle' := UInt64.le_iff_toNat_le.mp hle
  exact ⟨hle, by omega, by omega⟩

/-- The range of the folder is narrow. -/
theorem narrow : UniqueRange.Narrow (uniqueRange f.records) := by
  refine h.narrow_of_le ?_ (UInt64.le_refl _)
  rw [h.uniqueRange_small.1]
  exact UInt64.zero_le

/-- A subsample from a narrow range of the folder, over gRPC and over HTTP. -/
theorem ask_subsample (hrnd : RoundsToDouble lib.rnd) (rand : Nat → Rand)
    {handler : SubsamplingHandler} (hname : handler.name = name)
    (hnarrow : UniqueRange.Narrow (handler.range f.records))
    (hb : Buffered handler.amount handler.batchSize) {request : SubsampleRequest}
    (hrequest : handler.subsampleRequest = request) :
    (Process.running s).ask lib (.getSubsample rand request) = (.running s,
        .answer (.written .OK (request.messages lib.pb lib.rnd rand f.records))) ∧
      ∀ env' request' body,
        HandlerFactory.createRequestHandler request' = some (.subsampling handler) →
        (Process.running s).ask lib (.http env' rand request' body) = (.running s,
          .answer (.http (({} : HTTPServerResponse).send.setStatus 200)
            (messageFrames (request.messages lib.pb lib.rnd rand f.records)))) := by
  subst hrequest
  have hC : s.view.contents name = some f.records := by
    rw [Folders.contents, h.view, Option.map_some]
  constructor
  · obtain ⟨answer, hans, htells⟩ := run_serve_of_not_writes
      (c := .getSubsample rand handler.subsampleRequest) h.serves lib id hb
    have hfolder : handler.subsampleRequest.folder = name := hname
    simp only [Tells, hfolder, hC, GRPCServer.fromFolder] at htells
    rw [ask_of_run hans, htells]
  · intro env' request' body hhandler
    have hnot : ¬ (Call.http env' rand request' body).Writes := by
      intro hroute
      have hput := HandlerFactory.createRequestHandler_of_put hroute
      rw [hhandler] at hput
      cases hput
    have hbuffered : (Call.http env' rand request' body).Buffered := by
      intro handler' hh
      rw [hhandler] at hh
      cases hh
      exact hb
    obtain ⟨answer, hans, htells⟩ := run_serve_of_not_writes h.serves lib hnot hbuffered
    simp only [Tells, hhandler, Handler.Tells, hname, hC, httpFromFolder] at htells
    rw [ask_of_run hans, htells, SubsamplingHandler.messages_eq lib.pb rand hrnd hnarrow,
      subsampleStream]
    rfl

end WrittenInOrder

/-- A run of an archive from nothing has the writes of its saves. -/
theorem stamps_of_run {lib : Libraries} {p : Process} {events : List ServiceEvent} {b : Archive}
    (hrun : Archive.Run lib Archive.initial (p.log lib events) b) {name : String}
    (htaken : ∀ w ∈ savesTo name events, w.1.put = .ok) :
    b.stamps name = (savesTo name events).map stamp := by
  have hfst := map_fst_log lib p events
  rw [stamps_run hrun (by rwa [hfst]), hfst, Archive.stamps, Archive.initial,
    Function.update_apply]
  split
  · rfl
  · rfl

/-- A durable run from an empty disk that writes to a folder in order ends with the folder in
order. -/
theorem FreshStart.inOrder (lib : Libraries) {impl : Impl} {env : Env} {cfg : Config}
    {events : List ServiceEvent} {name : String} (hstart : FreshStart impl env cfg)
    (he : ∀ e ∈ events, e.Durable impl cfg) (hin : InOrder (savesTo name events))
    (hlen : (savesTo name events).length < 2 ^ 64) :
    ∃ client, (Process.down RocksDB.empty).afterAll lib (.start impl env cfg :: events) =
        .running client ∧ client.view.InOrder ((savesTo name events).map stamp) name := by
  obtain ⟨first, hfirst⟩ :=
    start_of_empty impl cfg env hstart.same_dir hstart.fakeOpen hstart.list hstart.reopen
  obtain ⟨i, hserv⟩ := start_serving hstart.same_dir hfirst
  obtain ⟨himpl, hcfg⟩ := frame_start hstart.same_dir hfirst
  -- the run of the process behind the run of the service ends with the same client
  obtain ⟨client, hall, -, hafter, -⟩ := serve_refines lib ⟨i, _, hserv⟩
    (by rwa [himpl, hcfg] : ∀ e ∈ events, e.Durable first.impl first.cfg)
  have hempty : first.view.InOrder [] name := by
    intro f hf
    rw [view_start_empty hfirst hf]
    exact Folder.InOrder.created []
  have hdurable : ∀ e' ∈ events.filterMap ServiceEvent.event, Durable impl cfg e' := by
    intro e' he'
    obtain ⟨e, hmem, hevent⟩ := List.mem_filterMap.mp he'
    exact (he e hmem).event e' hevent
  obtain ⟨t, hafter', -, -, -, hview⟩ :=
    inOrder_run ⟨first, rfl, ⟨i, _, hserv⟩, himpl, hcfg, hempty⟩ lib.pb hdurable hin hlen
  obtain rfl : t = client := Process.running.inj (hafter'.symm.trans hafter)
  refine ⟨t, ?_, hview⟩
  rw [Process.afterAll, List.foldl_cons]
  simp only [Process.serve, Process.rocks, hfirst]
  exact hall

/-- After every durable run from an empty disk that writes to a folder in order, fewer than 2^31
times, which is the run of an archive. -/
theorem FreshStart.writtenInOrder (lib : Libraries) {impl : Impl} {env : Env} {cfg : Config}
    {events : List ServiceEvent} {name : String} (hstart : FreshStart impl env cfg)
    (he : ∀ e ∈ events, e.Durable impl cfg) (hin : InOrder (savesTo name events))
    (hne : savesTo name events ≠ []) (hlen : (savesTo name events).length < 2 ^ 31) :
    ∃ client b log f, (Process.down RocksDB.empty).afterAll lib (.start impl env cfg :: events) =
        .running client ∧
      Archive.Run lib Archive.initial
        ((Process.down RocksDB.empty).log lib (.start impl env cfg :: events)) b ∧
      b name = some log ∧ log.map (fun x ↦ x.1.timestamp) = (savesTo name events).map stamp ∧
      WrittenInOrder lib client name log f := by
  obtain ⟨client, b, hall, hserves, -, -, hrun, hb⟩ := hstart.archived lib he
  obtain ⟨client', hall', hview⟩ := hstart.inOrder lib he hin (Nat.lt_trans hlen (by decide))
  obtain rfl : client' = client := Process.running.inj (hall'.symm.trans hall)
  have hstamps : b.stamps name = (savesTo name events).map stamp := stamps_of_run hrun hin.taken
  cases hlog : b name with
  | none =>
    rw [Archive.stamps, hlog] at hstamps
    exact absurd (List.map_eq_nil_iff.mp hstamps.symm) hne
  | some log =>
    rw [Archive.stamps, hlog, Option.getD_some] at hstamps
    have hC : client'.view.contents name = some (OrderedStore.replay IDComparator.compare
        (log.map (Archive.entry lib.pb))) := by
      rw [hb, Archive.contents, hlog, Option.map_some]
    obtain ⟨f, hf, hrecords⟩ := Option.map_eq_some_iff.mp hC
    have hlength : log.length = (savesTo name events).length := by
      have hsame := congrArg List.length hstamps
      rwa [List.length_map, List.length_map] at hsame
    have hnonempty : log ≠ [] := by
      rintro rfl
      exact hne (List.length_eq_zero_iff.mp hlength.symm)
    exact ⟨client', b, log, f, hall, hrun, hlog, hstamps, hserves, hf,
      Archive.dated_run hrun Archive.dated_initial name log hlog, hrecords, hnonempty,
      hlength ▸ hlen, hstamps ▸ hview f hf⟩

/-! ### The whole folder -/

/-- Each message is the last write under the identifier it carries. -/
def LastWrites (log : List (ID × Data)) (messages : List Data) : Prop :=
  ∀ m ∈ messages, ∃ id, m.id = some id ∧ lastWrite id log = some m

namespace WrittenInOrder
variable {lib : Libraries} {s : DbClient} {name : String} {log : List (ID × Data)} {f : Folder}
  (h : WrittenInOrder lib s name log f) (hrnd : RoundsToDouble lib.rnd)

include h hrnd

/-- A subsample of the whole folder is made of last writes. -/
theorem lastWrites_messages (rand : Nat → Rand) {request : SubsampleRequest}
    (hrange : request.range f.records = uniqueRange f.records) :
    LastWrites log (request.messages lib.pb lib.rnd rand f.records) := by
  intro m hm
  obtain ⟨unique, hunique, rfl⟩ := List.mem_map.mp hm
  obtain ⟨k, -, rfl⟩ := List.mem_map.mp hunique
  rw [hrange, h.narrow.draw_eq hrnd]
  obtain ⟨e, he⟩ := h.exists_find (h.narrow.draw_mem hrnd (rand k)).2
  exact ⟨_, h.sampled_of_find he⟩

/-- Under each number that was written there is a message that comes up for some result of
`rand()`, as long as the writes are half as many as its results. -/
theorem exists_messages_eq (hhalf : log.length < 2 ^ 30) {x : ID × Data} (hx : x ∈ log) :
    ∃ r id m, m.id = some id ∧ id.unique = x.1.unique ∧
      SubsampleRequest.messages lib.pb lib.rnd (fun _ ↦ r) { amount := 1, folder := name }
        f.records = [m] := by
  obtain ⟨d, hd, hid⟩ := h.exists_entry hx
  obtain ⟨hfrom, htill⟩ := h.uniqueRange_small
  have hu : x.1.unique ≤ (uniqueRange f.records).till :=
    hid ▸ h.inOrder.le_till (Set.mem_image_of_mem _ hd)
  have hwidth : 2 * ((uniqueRange f.records).till.toNat - (uniqueRange f.records).from'.toNat) ≤
      randMax := by
    rw [hfrom, randMax]
    change 2 * ((uniqueRange f.records).till.toNat - 0) ≤ _
    omega
  obtain ⟨r, hr⟩ := h.narrow.exists_draw_eq hrnd hwidth (hfrom ▸ UInt64.zero_le) hu
  obtain ⟨e, he⟩ := h.exists_find hu
  obtain ⟨-, -, -, hunique, -⟩ := IDComparator.split_of_find he
  have hone : drawnCount 1 0 = 1 := by decide
  refine ⟨r, _, _, (h.sampled_of_find he).1, hunique, ?_⟩
  rw [SubsampleRequest.messages, SubsampleRequest.drawn, hone, List.range_one, List.map_singleton,
    List.map_singleton]
  exact congrArg (fun u ↦ [sampled lib.pb f.records u]) hr

end WrittenInOrder

/-- After every durable run from an empty disk with writes to a folder that do not go back in time
and are all taken, fewer than 2^31 of them, a subsample of the folder whose batches have buffers is
made of last writes, the same over gRPC and over HTTP, whatever is drawn; and of fewer than 2^30
writes each has its number under a message that comes up for some result of `rand()`. -/
theorem sampled_in_order (lib : Libraries) {impl : Impl} {env : Env} {cfg : Config}
    {events : List ServiceEvent} {name : String} (hrnd : RoundsToDouble lib.rnd)
    (hstart : FreshStart impl env cfg) (he : ∀ e ∈ events, e.Durable impl cfg)
    (hin : InOrder (savesTo name events)) (hne : savesTo name events ≠ [])
    (hlen : (savesTo name events).length < 2 ^ 31) :
    ∃ client b log, (Process.down RocksDB.empty).afterAll lib (.start impl env cfg :: events) =
        .running client ∧
      Archive.Run lib Archive.initial
        ((Process.down RocksDB.empty).log lib (.start impl env cfg :: events)) b ∧
      b name = some log ∧ log.map (fun x ↦ x.1.timestamp) = (savesTo name events).map stamp ∧
      (∀ rand amount batchSize, Buffered amount batchSize → ∃ messages,
        messages.length = drawnCount amount batchSize ∧ LastWrites log messages ∧
        (Process.running client).ask lib
            (.getSubsample rand { amount, folder := name, batchSize }) =
          (.running client, .answer (.written .OK messages)) ∧
        ∀ env' request body, HandlerFactory.createRequestHandler request =
            some (.subsampling { name, amount, batchSize }) →
          (Process.running client).ask lib (.http env' rand request body) =
            (.running client, .answer (.http (({} : HTTPServerResponse).send.setStatus 200)
              (messageFrames messages)))) ∧
      (log.length < 2 ^ 30 → ∀ x ∈ log, ∃ r id m, m.id = some id ∧ id.unique = x.1.unique ∧
        (Process.running client).ask lib
            (.getSubsample (fun _ ↦ r) { amount := 1, folder := name }) =
          (.running client, .answer (.written .OK [m]))) := by
  obtain ⟨client, b, log, f, hall, hrun, hlog, hstamps, h⟩ :=
    hstart.writtenInOrder lib he hin hne hlen
  have htotal (amount batchSize : UInt32) :
      UniqueRange.Narrow (SubsamplingHandler.range { name, amount, batchSize } f.records) := by
    rw [SubsamplingHandler.range, if_pos ⟨rfl, rfl⟩]
    exact h.narrow
  refine ⟨client, b, log, hall, hrun, hlog, hstamps, fun rand amount batchSize hb ↦ ?_,
    fun hhalf x hx ↦ ?_⟩
  · let request : SubsampleRequest := { amount, folder := name, batchSize }
    exact ⟨_, request.length_messages lib.pb lib.rnd rand f.records,
      h.lastWrites_messages hrnd rand rfl,
      h.ask_subsample hrnd rand rfl (htotal amount batchSize) hb rfl⟩
  · obtain ⟨r, id', m, hid, hunique, hm⟩ := h.exists_messages_eq hrnd hhalf hx
    refine ⟨r, id', m, hid, hunique, ?_⟩
    rw [← hm]
    exact (h.ask_subsample hrnd (fun _ ↦ r) rfl (htotal 1 0) (show Buffered 1 0 by decide)
      rfl).1

/-- Two saves with a new folder and a restart between them: the second gets the number of the first
again. -/
theorem sampled_in_order_twice :
    let lib := Libraries.wire
    let env : Env := { now := 1, now_ne_zero := by decide }
    let later : Env := { now := 2, now_ne_zero := by decide }
    let events : List ServiceEvent :=
      [.call (.save env { folder := "f", data := [7] }),
        .call (.save env { folder := "g", data := [8], timestamp := 9 }),
        .start .localDBClient env {},
        .call (.save later { folder := "f", data := [9] })]
    ∃ client b log, (Process.down RocksDB.empty).afterAll lib
          (.start .localDBClient env {} :: events) = .running client ∧
      Archive.Run lib Archive.initial
        ((Process.down RocksDB.empty).log lib (.start .localDBClient env {} :: events)) b ∧
      b "f" = some log ∧ log.map (fun x ↦ x.1.timestamp) = [1, 2] ∧
      ∃ messages, LastWrites log messages ∧
        (Process.running client).ask lib
            (.getSubsample (fun _ ↦ 0) { amount := 3, folder := "f" }) =
          (.running client, .answer (.written .OK messages)) := by
  intro lib env later events
  obtain ⟨client, b, log, hall, hrun, hlog, hstamps, hsampled, -⟩ :=
    sampled_in_order lib roundsToDouble_id
      (⟨rfl, rfl, rfl, rfl⟩ : FreshStart .localDBClient env {}) (show ∀ e ∈ events, _ by decide)
      (show InOrder (savesTo "f" events) from ⟨by decide, by decide⟩) (by decide) (by decide)
  obtain ⟨messages, -, hlast, hask, -⟩ := hsampled (fun _ ↦ 0) 3 0 (by decide)
  exact ⟨client, b, log, hall, hrun, hlog, hstamps, messages, hlast, hask⟩

end TimeMachine.Server
