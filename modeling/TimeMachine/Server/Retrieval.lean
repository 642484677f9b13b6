import TimeMachine.Server.Archive
import TimeMachine.Client.Ranges

/-!
# Retrieval

What the reads of an archive return: a lookup the last write under its identifier, a
forward range read the last writes in its range, in the order of their identifiers and
up to its limits. A folder exists if it was written to, or asked to be.
-/

namespace TimeMachine.Server
open TimeMachine.Base TimeMachine.Base.StateError TimeMachine.Store TimeMachine.Client DbClient
open Archive (DatedLog)

/-- The last writes of a log in a range of timestamps, in the order of their identifiers. -/
structure LastIn (log : List (ID × Data)) (from' till : UInt64) (M : List (ID × Data)) : Prop where
  sorted : M.Pairwise (fun a b ↦ IDComparator.LexLt a.1 b.1)
  mem_iff : ∀ r, r ∈ M ↔ lastWrite r.1 log = some r.2 ∧ from' ≤ r.1.timestamp ∧
    (till = 0 ∨ r.1.timestamp ≤ till)

/-- The identifier is not after the start of a timestamp. -/
def NotAfter (t : UInt64) (id : ID) : Prop :=
  id.timestamp < t ∨ (id.timestamp = t ∧ id.unique = 0)

/-- The last writes of a log that a reverse read reaches, newest first: all after the lower bound
that are not after the start of the upper one, or all of them if no write is that early. -/
structure LastBack (log : List (ID × Data)) (from' till : UInt64) (M : List (ID × Data)) :
    Prop where
  sorted : M.Pairwise (fun a b ↦ IDComparator.LexLt b.1 a.1)
  mem_iff : ∀ r, r ∈ M ↔ lastWrite r.1 log = some r.2 ∧ (from' = 0 ∨ from' < r.1.timestamp) ∧
    (till = 0 ∨ NotAfter till r.1 ∨ ∀ x ∈ log, ¬ NotAfter till x.1)

/-- The records are the longest prefix of `M` whose records all come after fewer than `maxmessages`
others, and after others of less than `maxbytes` in total. Zero is no limit, and both are counted
modulo 2^64. -/
def CutOff (maxmessages maxbytes : UInt64) (size : ID × Data → Nat) (M N : List (ID × Data)) :
    Prop :=
  LongestPrefix (fun i ↦ (maxmessages ≠ 0 → i % 2 ^ 64 < maxmessages.toNat) ∧
    (maxbytes ≠ 0 → ((M.take i).map size).sum % 2 ^ 64 < maxbytes.toNat)) N M

variable (pb : Protobuf) {log : List (ID × Data)}

/-- The keys of a dated log are dated. -/
theorem dated_entries (h : DatedLog log) :
    ∀ e ∈ log.map (Archive.entry pb), IDComparator.Dated e.1 := by
  intro e he
  obtain ⟨r, hr, rfl⟩ := List.mem_map.mp he
  exact IDComparator.dated_serializeID (h r hr).1

/-- The last write under a key is the last write under its identifier. -/
theorem lastWrite_entries (id : ID) :
    lastWrite (serializeID id) (log.map (Archive.entry pb)) =
      (lastWrite id log).map pb.serializeAsString :=
  lastWrite_map (fun _ _ h ↦ serializeID_inj.mp h) _ id log

/-- The records of a replayed log are its last writes. -/
theorem mem_records_replay (h : DatedLog log) (r : ID × Data) :
    r ∈ allRecords pb (OrderedStore.replay IDComparator.compare (log.map (Archive.entry pb))) ↔
      lastWrite r.1 log = some r.2 := by
  have hdated := dated_entries pb h
  have hmem := OrderedStore.mem_replay IDComparator.dated_total hdated
  rw [allRecords, List.mem_map]
  constructor
  · rintro ⟨e, he, rfl⟩
    have hkey := (OrderedStore.kept_replay IDComparator.dated_total hdated).keys e he
    have hlast := (hmem e).mp he
    rw [← serializeID_deserializeID e.1 hkey.1, lastWrite_entries, Option.map_eq_some_iff] at hlast
    obtain ⟨d, hd, hval⟩ := hlast
    simp only [entryRecord]
    rw [hd, ← hval, pb.parse_serialize]
  · intro hlast
    refine ⟨Archive.entry pb r, (hmem _).mpr ?_, ?_⟩
    · change lastWrite (serializeID r.1) _ = some (pb.serializeAsString r.2)
      rw [lastWrite_entries, hlast]
      rfl
    · rw [entryRecord, Archive.entry, Prod.map, deserializeID_serializeID, pb.parse_serialize]

/-- Each write of a log left a record under its identifier. -/
theorem exists_entry_of_mem (h : DatedLog log) {x : ID × Data} (hx : x ∈ log) :
    ∃ e ∈ OrderedStore.replay IDComparator.compare (log.map (Archive.entry pb)),
      deserializeID e.1 = x.1 := by
  obtain ⟨m, hm⟩ := exists_lastWrite_of_mem hx
  obtain ⟨e, he, heq⟩ := List.mem_map.mp ((mem_records_replay pb h (x.1, m)).mpr hm)
  exact ⟨e, he, congrArg Prod.fst heq⟩

/-- Two logs leave the same records exactly if they end in the same write under each identifier. -/
theorem replay_entries_eq_iff {log' : List (ID × Data)} (h : DatedLog log) (h' : DatedLog log') :
    OrderedStore.replay IDComparator.compare (log.map (Archive.entry pb)) =
        OrderedStore.replay IDComparator.compare (log'.map (Archive.entry pb)) ↔
      ∀ id, lastWrite id log = lastWrite id log' := by
  rw [OrderedStore.replay_eq_iff IDComparator.dated_total (dated_entries pb h)
    (dated_entries pb h')]
  constructor
  · intro hkeys id
    have hkey := hkeys (serializeID id)
    rw [lastWrite_entries, lastWrite_entries] at hkey
    have hinj : Function.Injective pb.serializeAsString :=
      Function.LeftInverse.injective pb.parse_serialize
    exact Option.map_injective hinj hkey
  · intro hids k
    by_cases hk : ∃ id, serializeID id = k
    · obtain ⟨id, rfl⟩ := hk
      rw [lastWrite_entries, lastWrite_entries, hids]
    · -- under other keys nothing was written
      have hnone (l : List (ID × Data)) : lastWrite k (l.map (Archive.entry pb)) = none := by
        apply Option.eq_none_iff_forall_ne_some.mpr
        intro v hv
        obtain ⟨r, -, hr⟩ := List.mem_map.mp (mem_of_lastWrite hv)
        exact hk ⟨r.1, congrArg Prod.fst hr⟩
      rw [hnone, hnone]

/-- What a range selects from a replayed log. -/
theorem lastIn_rangeRecords (h : DatedLog log) (request : RangeRequest) :
    LastIn log request.from' request.till (rangeRecords pb request
      (OrderedStore.replay IDComparator.compare (log.map (Archive.entry pb)))) := by
  have hchron := chronological_of_kept
    (OrderedStore.kept_replay IDComparator.dated_total (dated_entries pb h))
  constructor
  · rw [rangeRecords, List.pairwise_map]
    exact hchron.sorted.filter _
  · intro r
    rw [← mem_records_replay pb h, rangeRecords, allRecords, List.mem_map, List.mem_map]
    constructor
    · rintro ⟨e, he, rfl⟩
      obtain ⟨he, hin⟩ := List.mem_filter.mp he
      exact ⟨⟨e, he, rfl⟩, of_decide_eq_true hin⟩
    · rintro ⟨⟨e, he, rfl⟩, hin⟩
      exact ⟨e, List.mem_filter.mpr ⟨he, decide_eq_true hin⟩, rfl⟩

/-- Without limits nothing is cut off. -/
theorem CutOff.eq {size : ID × Data → Nat} {M N : List (ID × Data)} (h : CutOff 0 0 size M N) :
    N = M :=
  h.isPrefix.eq_of_length_le
    (h.longest M List.prefix_rfl fun _ _ ↦ ⟨absurd rfl, absurd rfl⟩).length_le

/-- What a scan cuts off of the records it selects. -/
theorem cutOff_emitted (request : RangeRequest) (fn : Callback) (M : List (ID × Data)) :
    CutOff request.maxmessages request.maxbytes fn.size M (request.emitted fn 0 0 M) := by
  have hlongest := Quota.limit_longest request.allows fn.size 0 0 M
  have hlimit : request.emitted fn 0 0 M = Quota.limit request.allows fn.size 0 0 M :=
    request.emitted_eq_limit_allows fn 0 0 M
  simp only [RangeRequest.allows, Nat.zero_add, decide_eq_true_eq, not_and, UInt64.not_le,
    UInt64.lt_iff_toNat_lt, UInt64.toNat_ofNat'] at hlongest
  rw [hlimit, CutOff]
  simpa only [and_comm] using hlongest

/-- A forward scan of a replayed log passes on its last writes in the range, cut off by the
limits. -/
theorem scan_replay (h : DatedLog log) (fn : Callback) (request : RangeRequest)
    (hr : request.reverse = false) :
    ∃ M, LastIn log request.from' request.till M ∧
      CutOff request.maxmessages request.maxbytes fn.size M (scan pb request fn
        (OrderedStore.replay IDComparator.compare (log.map (Archive.entry pb)))) := by
  have hchron := chronological_of_kept
    (OrderedStore.kept_replay IDComparator.dated_total (dated_entries pb h))
  refine ⟨_, lastIn_rangeRecords pb h request, ?_⟩
  rw [hchron.scan_forward pb fn hr]
  exact cutOff_emitted request fn _

/-- What a reverse read reaches in a replayed log. -/
theorem lastBack_reached (h : DatedLog log) (request : RangeRequest) :
    LastBack log request.from' request.till
      (((OrderedStore.replay IDComparator.compare (log.map (Archive.entry pb))).filter
        (Reached request
          (OrderedStore.replay IDComparator.compare (log.map (Archive.entry pb))))).reverse.map
        (entryRecord pb)) := by
  have hmem := mem_records_replay pb h
  have hentry := fun x hx ↦ exists_entry_of_mem pb h (x := x) hx
  have hchron := chronological_of_kept
    (OrderedStore.kept_replay IDComparator.dated_total (dated_entries pb h))
  generalize OrderedStore.replay IDComparator.compare (log.map (Archive.entry pb)) = es at *
  -- no write is early exactly if no record is
  have hnone : (∀ d ∈ es, ¬ AtMost request.till d) ↔ ∀ x ∈ log, ¬ NotAfter request.till x.1 := by
    constructor
    · intro hall x hx hat
      obtain ⟨e, he, heq⟩ := hentry x hx
      exact hall e he (by rw [AtMost, entryTs, heq]; exact hat)
    · intro hall d hd
      have hlast := (hmem (entryRecord pb d)).mp (List.mem_map_of_mem hd)
      exact hall _ (mem_of_lastWrite hlast)
  constructor
  · rw [List.map_reverse, List.pairwise_reverse, List.pairwise_map]
    exact hchron.sorted.filter _
  · intro r
    rw [← hmem, allRecords, ← hnone, List.mem_map, List.mem_map]
    constructor
    · rintro ⟨e, he, rfl⟩
      obtain ⟨he, hreached⟩ := List.mem_filter.mp (List.mem_reverse.mp he)
      obtain ⟨htill, hfrom⟩ := of_decide_eq_true hreached
      exact ⟨⟨e, he, rfl⟩, hfrom, htill⟩
    · rintro ⟨⟨e, he, rfl⟩, hfrom, htill⟩
      exact ⟨e, List.mem_reverse.mpr (List.mem_filter.mpr ⟨he, decide_eq_true ⟨htill, hfrom⟩⟩), rfl⟩

/-- A reverse scan of a replayed log passes on the last writes it reaches, cut off by the
limits. -/
theorem scan_replay_reverse (h : DatedLog log) (fn : Callback) (request : RangeRequest)
    (hr : request.reverse = true) :
    ∃ M, LastBack log request.from' request.till M ∧
      CutOff request.maxmessages request.maxbytes fn.size M (scan pb request fn
        (OrderedStore.replay IDComparator.compare (log.map (Archive.entry pb)))) := by
  have hchron := chronological_of_kept
    (OrderedStore.kept_replay IDComparator.dated_total (dated_entries pb h))
  refine ⟨_, lastBack_reached pb h request, ?_⟩
  rw [hchron.scan_reverse pb fn hr]
  exact cutOff_emitted request fn _

/-! ### The answers -/

/-- What a lookup of an identifier with a timestamp is answered from a log. -/
def lookedUp (folder : String) (id : ID) : Option (List (ID × Data)) → GrpcStatus × Data :=
  fun log ↦ match log with
  | none =>
    ({ code := .NOT_FOUND
       message := "Column family with name " ++ folder ++ " doesn't exists" }, {})
  | some log =>
    match lastWrite id log with
    | some d => (.OK, d)
    | none => ({ code := .INTERNAL, message := "Something wrong :( NotFound: " }, {})

/-- A lookup in an archive finds the last write. -/
theorem fromFolder_lookup {a : Archive} (ha : a.Dated) (folder : String) {id : ID}
    (hid : id.timestamp ≠ 0) :
    GRPCServer.fromFolder {} folder (lookupAnswer pb (serializeID id)) (a.contents pb folder) =
      lookedUp folder id (a folder) := by
  rw [Archive.contents]
  cases hlog : a folder with
  | none => rfl
  | some log =>
    have hget := OrderedStore.get_replay IDComparator.dated_total
      (dated_entries pb (ha folder log hlog)) (IDComparator.dated_serializeID hid)
    rw [lastWrite_entries] at hget
    simp only [Option.map_some, GRPCServer.fromFolder, lookupAnswer, lookedUp, hget]
    cases lastWrite id log with
    | none => rfl
    | some d => simp only [Option.map_some, pb.parse_serialize]

/-- The folder a call writes to. -/
def Call.target : Call → Option String
  | .save _ request => some request.folder
  | .http _ _ request _ =>
    match HandlerFactory.createRequestHandler request with
    | some (.save h) => some h.name
    | _ => none
  | .get _ | .getRange .. | .getSubsample .. => none

/-- The folder a call reads. -/
def Call.source : Call → Option String
  | .get request => some request.folder
  | .getRange _ request => some request.folder
  | .getSubsample _ request => some request.folder
  | .http _ _ request _ =>
    match HandlerFactory.createRequestHandler request with
    | some (.getRange h) => some h.name
    | some (.subsampling h) => some h.name
    | _ => none
  | .save .. => none

/-- The event is a call that writes to the folder. -/
def ServiceEvent.Targets (name : String) : ServiceEvent → Prop
  | .start .. => False
  | .call c => c.target = some name

/-- A call that only reads writes to no folder. -/
theorem target_of_tells {lib : Libraries} {C : Contents} {a : Answer} {c : Call}
    (h : Tells lib C a c) : c.target = none := by
  cases c with
  | save env request => exact h.elim
  | get request => rfl
  | getRange context request => rfl
  | getSubsample rand request => rfl
  | http env rand request body =>
    simp only [Tells] at h
    simp only [Call.target]
    cases hh : HandlerFactory.createRequestHandler request with
    | none => rfl
    | some handler =>
      rw [hh] at h
      cases handler with
      | save save => exact h.elim
      | info | status | subsampling | getRange | health | notFound => rfl

/-- A read is answered from the folder it reads: a folder with the same records gives the same
answer, and no other. -/
theorem tells_iff_of_source {lib : Libraries} {C C' : Contents} {a a' : Answer} {c : Call}
    {name : String} (hc : c.source = some name) (hC : C name = C' name) (h : Tells lib C a c) :
    Tells lib C' a' c ↔ a' = a := by
  cases c with
  | save env request => cases hc
  | get request =>
    cases hc
    simp only [Tells] at h ⊢
    rw [h, hC]
  | getRange context request =>
    cases hc
    simp only [Tells] at h ⊢
    rw [h, hC]
  | getSubsample rand request =>
    cases hc
    simp only [Tells] at h ⊢
    rw [h, hC]
  | http env rand request body =>
    simp only [Tells] at h ⊢
    simp only [Call.source] at hc
    cases hh : HandlerFactory.createRequestHandler request with
    | none => simp [hh] at hc
    | some handler =>
      rw [hh] at h hc
      cases handler with
      | getRange handler =>
        cases hc
        simp only [Handler.Tells] at h ⊢
        rw [h, hC]
      | subsampling handler =>
        cases hc
        simp only [Handler.Tells] at h ⊢
        rw [h, hC]
      | save | info | status | health | notFound => cases hc

/-! ### Runs -/

section Runs
variable {lib : Libraries} {a b : Archive}

/-- A step leaves the other folders alone. -/
theorem step_other {e : ServiceEvent} {r : Response} (h : Archive.Step lib a e r b) {name : String}
    (hname : ¬ e.Targets name) : b name = a name := by
  cases h with
  | start impl env cfg => rfl
  | read htells => rfl
  | @saved env request id hput hts =>
    rw [Archive.append_apply, if_neg fun he ↦ hname (congrArg some he.symm)]
  | @refused env request text hput =>
    rw [Archive.append_apply, if_neg fun he ↦ hname (congrArg some he.symm)]
  | @posted env rand request body h id hhandler hts =>
    have htarget : (Call.http env rand request body).target = some h.name := by
      simp only [Call.target, hhandler]
    rw [Archive.append_apply, if_neg fun he ↦ hname (htarget.trans (congrArg some he.symm))]

/-- A step that writes to a folder leaves it existing. -/
theorem step_target {e : ServiceEvent} {r : Response} (h : Archive.Step lib a e r b) {name : String}
    (hname : e.Targets name) : (b name).isSome := by
  cases h with
  | start impl env cfg => exact hname.elim
  | read htells =>
    have hnone := target_of_tells htells
    have hsome : _ = some name := hname
    rw [hnone] at hsome
    cases hsome
  | @saved env request id hput hts =>
    obtain rfl : request.folder = name := Option.some.inj hname
    rw [Archive.append_apply, if_pos rfl, Option.isSome_some]
  | @refused env request text hput =>
    obtain rfl : request.folder = name := Option.some.inj hname
    rw [Archive.append_apply, if_pos rfl, Option.isSome_some]
  | @posted env rand request body h id hhandler hts =>
    have htarget : (Call.http env rand request body).target = some h.name := by
      simp only [Call.target, hhandler]
    obtain rfl : h.name = name := Option.some.inj (htarget.symm.trans hname)
    rw [Archive.append_apply, if_pos rfl, Option.isSome_some]

/-- A run leaves the folders alone that none of its events writes to. -/
theorem run_other {l : List (ServiceEvent × Response)} (h : Archive.Run lib a l b) {name : String}
    (hname : ∀ x ∈ l, ¬ x.1.Targets name) : b name = a name := by
  induction h with
  | nil a => rfl
  | cons hstep _ ih =>
    rw [ih fun x hx ↦ hname x (List.mem_cons_of_mem _ hx),
      step_other hstep (hname _ List.mem_cons_self)]

/-- After a run there are the folders that were there before, and those its events wrote to. -/
theorem run_isSome_iff {l : List (ServiceEvent × Response)} (h : Archive.Run lib a l b)
    (name : String) : (b name).isSome ↔ (a name).isSome ∨ ∃ x ∈ l, x.1.Targets name := by
  induction h with
  | nil a => simp
  | @cons a b c e r rest hstep _ ih =>
    rw [ih, List.exists_mem_cons_iff, ← or_assoc]
    apply or_congr_left
    by_cases ht : e.Targets name
    · exact iff_of_true (step_target hstep ht) (Or.inr ht)
    · rw [step_other hstep ht]
      exact (or_iff_left ht).symm

/-- The log has the events of the run. -/
theorem map_fst_log (lib : Libraries) (p : Process) (events : List ServiceEvent) :
    (p.log lib events).map Prod.fst = events := by
  induction events generalizing p with
  | nil => rfl
  | cons e rest ih => exact congrArg (e :: ·) (ih _)

/-- An event of the run is in its log. -/
theorem exists_mem_log_iff (lib : Libraries) (p : Process) (events : List ServiceEvent)
    (P : ServiceEvent → Prop) : (∃ x ∈ p.log lib events, P x.1) ↔ ∃ e ∈ events, P e := by
  have hmap := map_fst_log lib p events
  constructor
  · rintro ⟨x, hx, hP⟩
    exact ⟨x.1, hmap ▸ List.mem_map_of_mem hx, hP⟩
  · rintro ⟨e, he, hP⟩
    rw [← hmap] at he
    obtain ⟨x, hx, rfl⟩ := List.mem_map.mp he
    exact ⟨x, hx, hP⟩

/-- A folder that an event of the run was for is in the archive. -/
theorem exists_log_of_targets {p : Process} {events : List ServiceEvent} {a b : Archive}
    (hrun : Archive.Run lib a (p.log lib events) b) {e : ServiceEvent} (he : e ∈ events)
    {name : String} (ht : e.Targets name) : ∃ log, b name = some log := by
  have hsome : (b name).isSome := by
    rw [run_isSome_iff hrun, exists_mem_log_iff lib _ _ (ServiceEvent.Targets name)]
    exact Or.inr ⟨e, he, ht⟩
  exact Option.isSome_iff_exists.mp hsome

end Runs

/-- A call of a server that answers it without writing. -/
theorem ask_of_run {lib : Libraries} {s : DbClient} {c : Call} {answer : Answer}
    (hrun : (c.serve lib).run s = .ok answer s) :
    (Process.running s).ask lib c = (.running s, .answer answer) := by
  simp only [Process.ask, hrun]

section
variable (lib : Libraries) {s : DbClient} (hs : Serves s) {a : Archive}
  (hC : s.view.contents = a.contents lib.pb) (ha : a.Dated)

include hs hC ha

/-- A server with the contents of an archive answers a `Get` with a timestamp by the last write. -/
theorem ask_get {request : GetRequest} (hts : request.timestamp ≠ 0) :
    let r := lookedUp request.folder
      { timestamp := request.timestamp, unique := request.unique } (a request.folder)
    (Process.running s).ask lib (.get request) = (.running s, .answer (.got r.1 r.2)) := by
  obtain ⟨answer, hans, htells⟩ := run_serve_of_not_writes (c := .get request) hs lib id trivial
  simp only [Tells, hC] at htells
  rw [fromFolder_lookup lib.pb ha request.folder hts] at htells
  rw [ask_of_run hans, htells]

/-- It answers a forward `GetRange` by the last writes in the range, cut off by the limits. -/
theorem ask_getRange (context : GRPCServer.ServerContext) {request : RangeRequest}
    (hr : request.reverse = false) {log : List (ID × Data)} (hlog : a request.folder = some log) :
    ∃ M N, LastIn log request.from' request.till M ∧ CutOff request.maxmessages request.maxbytes
        (GRPCServer.rangeCallback lib.pb context).size M N ∧
      (Process.running s).ask lib (.getRange context request) =
        (.running s, .answer (.written .OK (N.map Prod.snd))) := by
  obtain ⟨answer, hans, htells⟩ :=
    run_serve_of_not_writes (c := .getRange context request) hs lib id trivial
  obtain ⟨M, hM, hcut⟩ := scan_replay lib.pb (ha _ log hlog)
    (GRPCServer.rangeCallback lib.pb context) request hr
  refine ⟨M, _, hM, hcut, ?_⟩
  simp only [Tells, hC, Archive.contents, hlog, Option.map_some, GRPCServer.fromFolder] at htells
  rw [ask_of_run hans, htells]

/-- It answers a reverse `GetRange` by the last writes it reaches, newest first, cut off by the
limits. -/
theorem ask_getRange_reverse (context : GRPCServer.ServerContext) {request : RangeRequest}
    (hr : request.reverse = true) {log : List (ID × Data)} (hlog : a request.folder = some log) :
    ∃ M N, LastBack log request.from' request.till M ∧ CutOff request.maxmessages request.maxbytes
        (GRPCServer.rangeCallback lib.pb context).size M N ∧
      (Process.running s).ask lib (.getRange context request) =
        (.running s, .answer (.written .OK (N.map Prod.snd))) := by
  obtain ⟨answer, hans, htells⟩ :=
    run_serve_of_not_writes (c := .getRange context request) hs lib id trivial
  obtain ⟨M, hM, hcut⟩ := scan_replay_reverse lib.pb (ha _ log hlog)
    (GRPCServer.rangeCallback lib.pb context) request hr
  refine ⟨M, _, hM, hcut, ?_⟩
  simp only [Tells, hC, Archive.contents, hlog, Option.map_some, GRPCServer.fromFolder] at htells
  rw [ask_of_run hans, htells]

end

/-! ### After any run -/

variable (lib : Libraries) {impl : Impl} {env : Env} {cfg : Config} {events : List ServiceEvent}

/-- After every durable run from an empty disk, which is the run of an archive, a `Get` with a
timestamp answers the last write under its identifier, and a forward `GetRange` writes the last
writes in its range in the order of their identifiers, cut off by its limits. -/
theorem reads_last_writes (hstart : FreshStart impl env cfg)
    (he : ∀ e ∈ events, e.Durable impl cfg) :
    ∃ client b, (Process.down RocksDB.empty).afterAll lib (.start impl env cfg :: events) =
        .running client ∧
      Archive.Run lib Archive.initial
        ((Process.down RocksDB.empty).log lib (.start impl env cfg :: events)) b ∧
      (∀ request : GetRequest, request.timestamp ≠ 0 →
        let r := lookedUp request.folder
          { timestamp := request.timestamp, unique := request.unique } (b request.folder)
        (Process.running client).ask lib (.get request) =
          (.running client, .answer (.got r.1 r.2))) ∧
      ∀ context (request : RangeRequest) log, request.reverse = false →
        b request.folder = some log →
        ∃ M N, LastIn log request.from' request.till M ∧
          CutOff request.maxmessages request.maxbytes
            (GRPCServer.rangeCallback lib.pb context).size M N ∧
          (Process.running client).ask lib (.getRange context request) =
            (.running client, .answer (.written .OK (N.map Prod.snd))) := by
  obtain ⟨client, b, hall, hserves, -, -, hrun, hb⟩ := hstart.archived lib he
  have hdated := Archive.dated_run hrun Archive.dated_initial
  exact ⟨client, b, hall, hrun, fun request hts ↦ ask_get lib hserves hb hdated hts,
    fun context request log hr hlog ↦ ask_getRange lib hserves hb hdated context hr hlog⟩

/-- Two saves under one timestamp. -/
theorem reads_last_writes_saved :
    let lib := Libraries.wire
    let env : Env := { now := 1, now_ne_zero := by decide }
    let events : List ServiceEvent :=
      [.call (.save env { folder := "f", data := [7], timestamp := 5 }),
        .call (.save env { folder := "f", data := [8], timestamp := 5 })]
    ∃ client b, (Process.down RocksDB.empty).afterAll lib
        (.start .localDBClient env {} :: events) = .running client ∧
      Archive.Run lib Archive.initial
        ((Process.down RocksDB.empty).log lib (.start .localDBClient env {} :: events)) b ∧
      let r := lookedUp "f" ⟨5, 1⟩ (b "f")
      (Process.running client).ask lib (.get { folder := "f", timestamp := 5, unique := 1 }) =
        (.running client, .answer (.got r.1 r.2)) := by
  intro lib env events
  obtain ⟨client, b, hall, hrun, hget, -⟩ := reads_last_writes lib
    (⟨rfl, rfl, rfl, rfl⟩ : FreshStart .localDBClient env {}) (show ∀ e ∈ events, _ by decide)
  exact ⟨client, b, hall, hrun, hget { folder := "f", timestamp := 5, unique := 1 } (by decide)⟩

/-- After every durable run from an empty disk, a reverse `GetRange` writes the last writes it
reaches, from the newest back, cut off by its limits. -/
theorem reverse_reads_last_writes (hstart : FreshStart impl env cfg)
    (he : ∀ e ∈ events, e.Durable impl cfg) :
    ∃ client b, (Process.down RocksDB.empty).afterAll lib (.start impl env cfg :: events) =
        .running client ∧
      Archive.Run lib Archive.initial
        ((Process.down RocksDB.empty).log lib (.start impl env cfg :: events)) b ∧
      ∀ context (request : RangeRequest) log, request.reverse = true →
        b request.folder = some log →
        ∃ M N, LastBack log request.from' request.till M ∧
          CutOff request.maxmessages request.maxbytes
            (GRPCServer.rangeCallback lib.pb context).size M N ∧
          (Process.running client).ask lib (.getRange context request) =
            (.running client, .answer (.written .OK (N.map Prod.snd))) := by
  obtain ⟨client, b, hall, hserves, -, -, hrun, hb⟩ := hstart.archived lib he
  have hdated := Archive.dated_run hrun Archive.dated_initial
  exact ⟨client, b, hall, hrun, fun context request log hr hlog ↦
    ask_getRange_reverse lib hserves hb hdated context hr hlog⟩

/-- The newest message of a folder with two. -/
theorem reverse_reads_last_writes_newest :
    let lib := Libraries.wire
    let env : Env := { now := 1, now_ne_zero := by decide }
    let events : List ServiceEvent :=
      [.call (.save env { folder := "f", data := [7], timestamp := 5 }),
        .call (.save env { folder := "f", data := [8], timestamp := 6 })]
    ∃ client b, (Process.down RocksDB.empty).afterAll lib
        (.start .localDBClient env {} :: events) = .running client ∧
      Archive.Run lib Archive.initial
        ((Process.down RocksDB.empty).log lib (.start .localDBClient env {} :: events)) b ∧
      ∃ log M N, b "f" = some log ∧ LastBack log 0 0 M ∧
        CutOff 1 0 (GRPCServer.rangeCallback lib.pb ⟨fun _ ↦ false⟩).size M N ∧
        (Process.running client).ask lib
            (.getRange ⟨fun _ ↦ false⟩ { folder := "f", reverse := true, maxmessages := 1 }) =
          (.running client, .answer (.written .OK (N.map Prod.snd))) := by
  intro lib env events
  obtain ⟨client, b, hall, hrun, hreads⟩ := reverse_reads_last_writes lib
    (⟨rfl, rfl, rfl, rfl⟩ : FreshStart .localDBClient env {}) (show ∀ e ∈ events, _ by decide)
  obtain ⟨log, hlog⟩ := exists_log_of_targets hrun
    (List.mem_cons_of_mem _ List.mem_cons_self) rfl
  obtain ⟨M, N, hM, hcut, hask⟩ := hreads ⟨fun _ ↦ false⟩
    { folder := "f", reverse := true, maxmessages := 1 } log rfl hlog
  exact ⟨client, b, hall, hrun, log, M, N, hlog, hM, hcut, hask⟩

/-- After every durable run from an empty disk, the status lists, each once, the default folder
and the folders that some `Save` or put of the run was for, written or not. -/
theorem status_lists (hstart : FreshStart impl env cfg)
    (he : ∀ e ∈ events, e.Durable impl cfg) {env' : Env} {rand : Nat → Rand}
    {request : HTTPServerRequest} {body : Bytes}
    (hhandler : HandlerFactory.createRequestHandler request = some .status) :
    ∃ names, (((Process.down RocksDB.empty).afterAll lib (.start impl env cfg :: events)).ask lib
        (.http env' rand request body)).2 =
        .answer (.http (statusResponse lib.quote names) []) ∧ names.Nodup ∧
      ∀ name, name ∈ names ↔ name = defaultName ∨ ∃ e ∈ events, e.Targets name := by
  obtain ⟨client, b, hall, hserves, -, -, hrun, hb⟩ := hstart.archived lib he
  have hnot : ¬ (Call.http env' rand request body).Writes := by
    intro hroute
    have hput := HandlerFactory.createRequestHandler_of_put hroute
    rw [hhandler] at hput
    cases hput
  have hbuffered : (Call.http env' rand request body).Buffered := by
    intro handler hh
    rw [hhandler] at hh
    cases hh
    trivial
  obtain ⟨answer, hans, htells⟩ := run_serve_of_not_writes hserves lib hnot hbuffered
  simp only [Tells, hhandler] at htells
  obtain ⟨names, hlists, rfl⟩ := htells
  refine ⟨names, ?_, hlists.nodup, fun name ↦ ?_⟩
  · rw [hall, ask_of_run hans]
  · have hinit : (Archive.initial name).isSome ↔ name = defaultName := by
      rw [Archive.initial, Function.update_apply]
      split
      · next hn => simp [hn]
      · next hn => simp [hn]
    have hevents : (∃ e ∈ ServiceEvent.start impl env cfg :: events, e.Targets name) ↔
        ∃ e ∈ events, e.Targets name := by
      rw [List.exists_mem_cons_iff]
      exact or_iff_right id
    rw [hlists.mem_iff, hb, Archive.contents, Option.isSome_map, run_isSome_iff hrun, hinit,
      exists_mem_log_iff lib _ _ (ServiceEvent.Targets name), hevents]

/-- The status after a save that was refused. -/
theorem status_lists_refused :
    let lib := Libraries.wire
    let env : Env := { now := 1, now_ne_zero := by decide }
    let request : HTTPServerRequest :=
      { method := "GET", uri := "/status", path := { dirs := [], name := "status" } }
    let events : List ServiceEvent :=
      [.call (.save { env with put := .failed "IO error" } { folder := "f", data := [7] })]
    ∃ names, (((Process.down RocksDB.empty).afterAll lib
        (.start .localDBClient env {} :: events)).ask lib (.http env (fun _ ↦ 0) request [])).2 =
        .answer (.http (statusResponse lib.quote names) []) ∧ names.Nodup ∧
      ∀ name, name ∈ names ↔ name = defaultName ∨ ∃ e ∈ events, e.Targets name :=
  status_lists _ ⟨rfl, rfl, rfl, rfl⟩ (by decide) (by decide)

/-- A read of a folder, whose batches have buffers if it is a subsample, is answered as it would
have been before any number of durable events that do not write to the folder: reads, writes to
other folders, new folders and restarts. -/
theorem read_unaffected (hstart : FreshStart impl env cfg)
    (he : ∀ e ∈ events, e.Durable impl cfg) {later : List ServiceEvent}
    (hlater : ∀ e ∈ later, e.Durable impl cfg)
    {c : Call} {name : String} (hc : c.source = some name) (hb : c.Buffered)
    (hname : ∀ e ∈ later, ¬ e.Targets name) :
    (((Process.down RocksDB.empty).afterAll lib (.start impl env cfg :: events ++ later)).ask lib
        c).2 =
      (((Process.down RocksDB.empty).afterAll lib (.start impl env cfg :: events)).ask lib
        c).2 := by
  obtain ⟨client, b, hall, hserves, himpl, hcfg, -, hcontents⟩ := hstart.archived lib he
  obtain ⟨t, b', hall', ht, hrun, hcontents'⟩ := archived_run lib hserves hcontents
    (by rwa [himpl, hcfg] : ∀ e ∈ later, e.Durable client.impl client.cfg)
  have hsame : b' name = b name := by
    apply run_other hrun
    intro x hx
    apply hname
    have hmem := List.mem_map_of_mem (f := Prod.fst) hx
    rwa [map_fst_log] at hmem
  have hnot : ¬ c.Writes := by
    intro hw
    cases c with
    | save env request => cases hc
    | get request => exact hw
    | getRange context request => exact hw
    | getSubsample rand request => exact hw
    | http env rand request body =>
      simp only [Call.source, HandlerFactory.createRequestHandler_of_put hw] at hc
      cases hc
  obtain ⟨answer, hans, htells⟩ := run_serve_of_not_writes hserves lib hnot hb
  obtain ⟨answer', hans', htells'⟩ := run_serve_of_not_writes ht.serves lib hnot hb
  have heq : client.view.contents name = t.view.contents name := by
    rw [hcontents, hcontents', Archive.contents, Archive.contents, hsame]
  have htwo := (tells_iff_of_source hc heq htells).mp htells'
  rw [Process.afterAll_append, hall, hall', ask_of_run hans, ask_of_run hans', htwo]

/-- A read of one folder before and after a save to another. -/
theorem read_unaffected_saved :
    let lib := Libraries.wire
    let env : Env := { now := 1, now_ne_zero := by decide }
    let events : List ServiceEvent := [.call (.save env { folder := "f", data := [7] })]
    let later : List ServiceEvent :=
      [.call (.save env { folder := "g", data := [8] }), .start .localDBClient env {}]
    let c : Call := .getRange ⟨fun _ ↦ false⟩ { folder := "f" }
    (((Process.down RocksDB.empty).afterAll lib
        (.start .localDBClient env {} :: events ++ later)).ask lib c).2 =
      (((Process.down RocksDB.empty).afterAll lib
        (.start .localDBClient env {} :: events)).ask lib c).2 := by
  intro lib env events later c
  have hname : ∀ e ∈ later, ¬ e.Targets "f" := by
    simp [later, ServiceEvent.Targets, Call.target]
  exact read_unaffected lib (⟨rfl, rfl, rfl, rfl⟩ : FreshStart .localDBClient env {})
    (show ∀ e ∈ events, _ by decide) (show ∀ e ∈ later, _ by decide) rfl
    trivial hname

end TimeMachine.Server
