import TimeMachine.Concurrent.Local
import Mathlib.Data.Multiset.MapFold

/-!
# Saves while the database stays open

From a folder that is empty with its counter at zero on, and as long as the database is
not opened again, the numbers given out are zero, one, two and so on to the end of the
counter; whatever is given out is outstanding or belongs to a save that has ended; and
while numbers do not repeat, every write adds a record.
-/

namespace TimeMachine.Concurrent
open TimeMachine.Base TimeMachine.Store TimeMachine.Client TimeMachine.Server

/-- A folder since it was empty with its counter at zero: the identifiers generated and the saves
ended since. -/
structure Session (pb : Protobuf) (a : Local) (f : Folder) (ids : List ID) (done : List Saved) :
    Prop where
  folder : a.folder = some f
  numbers : ids.map (·.unique) = (List.range ids.length).map UInt64.ofNat
  counter : f.lastUnique = UInt64.ofNat ids.length
  dated : ∀ id ∈ ids, id.timestamp ≠ 0
  accounted : a.outstanding + (done.map (·.id) : List ID) = ids
  kept : OrderedStore.Kept IDComparator.compare IDComparator.Dated f.records
  keys : ∀ e ∈ f.records, ∃ id ∈ ids, e.1 = serializeID id
  records : (∀ d ∈ done, d.status = .ok) → ids.length ≤ 2 ^ 64 →
    f.records.Perm (done.map (·.entry pb))

variable {pb : Protobuf} {a b : Local} {f : Folder} {ids : List ID} {done : List Saved}

private theorem toNat_ofNat {i n : Nat} (hn : n ≤ 2 ^ 64) (hi : i < n) :
    (UInt64.ofNat i).toNat = i := UInt64.toNat_ofNat_of_lt' (Nat.lt_of_lt_of_le hi hn)

/-- The numbers given out are counted up to the end of the counter. -/
theorem Session.uniques (h : Session pb a f ids done) (hn : ids.length ≤ 2 ^ 64) :
    ids.map (·.unique.toNat) = List.range ids.length := by
  have hcount : ids.map (·.unique.toNat) = (ids.map (·.unique)).map UInt64.toNat := by
    rw [List.map_map]
    rfl
  rw [hcount, h.numbers, List.map_map]
  conv_rhs => rw [← List.map_id (List.range ids.length)]
  exact List.map_congr_left fun i hi ↦ toNat_ofNat hn (List.mem_range.mp hi)

/-- The numbers given out increase up to the end of the counter. -/
theorem Session.increasing (h : Session pb a f ids done) (hn : ids.length ≤ 2 ^ 64) :
    ids.Pairwise (fun x y ↦ x.unique < y.unique) := by
  have hrange : ((List.range ids.length).map UInt64.ofNat).Pairwise (· < ·) := by
    rw [List.pairwise_map]
    refine List.pairwise_lt_range.imp_of_mem ?_
    intro i j _ hj hij
    have hj := List.mem_range.mp hj
    rwa [UInt64.lt_iff_toNat_lt, toNat_ofNat hn (hij.trans hj), toNat_ofNat hn hj]
  rw [← h.numbers, List.pairwise_map] at hrange
  exact hrange

/-- The identifiers given out are distinct up to the end of the counter. -/
theorem Session.nodup (h : Session pb a f ids done) (hn : ids.length ≤ 2 ^ 64) : ids.Nodup := by
  refine List.nodup_iff_pairwise_ne.mpr ((h.increasing hn).imp ?_)
  rintro x y hxy rfl
  exact UInt64.lt_irrefl _ hxy

/-- Generating an identifier. -/
theorem Session.issue (h : Session pb a f ids done) {id : ID} (hts : id.timestamp ≠ 0)
    (hu : id.unique = f.lastUnique) :
    Session pb
      { a with
        folder := some { f with lastUnique := f.lastUnique + 1 }
        outstanding := id ::ₘ a.outstanding
        issued := a.issued ++ [id] }
      { f with lastUnique := f.lastUnique + 1 } (ids ++ [id]) done := by
  refine ⟨rfl, ?_, ?_, ?_, ?_, h.kept, ?_, ?_⟩
  · rw [List.map_append, h.numbers, List.length_append, List.length_singleton, List.range_succ,
      List.map_append, List.map_singleton, List.map_singleton, hu, h.counter]
  · rw [List.length_append, List.length_singleton, UInt64.ofNat_add, h.counter]
    rfl
  · intro x hx
    rcases List.mem_append.mp hx with hx | hx
    · exact h.dated x hx
    · rwa [List.mem_singleton.mp hx]
  · rw [Multiset.cons_add, h.accounted]
    exact (Multiset.coe_eq_coe.mpr (List.perm_append_singleton id ids)).symm
  · intro e he
    obtain ⟨x, hx, hkey⟩ := h.keys e he
    exact ⟨x, List.mem_append_left _ hx, hkey⟩
  · intro hok hn
    rw [List.length_append] at hn
    exact h.records hok (by omega)

/-- The end of a save. -/
theorem Session.write (h : Session pb a f ids done) {d : Saved} {os : Multiset ID}
    {rs : Multiset SaveRequest} (hos : a.outstanding = d.id ::ₘ os) :
    Session pb
      { a with
        folder := a.folder.map (d.apply pb)
        outstanding := os
        saving := rs
        finished := a.finished ++ [d] } (d.apply pb f) ids (done ++ [d]) := by
  have haccounted : d.id ::ₘ (os + (done.map (·.id) : List ID)) = ids := by
    rw [← Multiset.cons_add, ← hos, h.accounted]
  have hmem : d.id ∈ ids := by
    rw [← Multiset.mem_coe, ← haccounted]
    exact Multiset.mem_cons_self _ _
  have hdated := IDComparator.dated_serializeID (h.dated _ hmem)
  refine ⟨by rw [h.folder]; rfl, h.numbers, ?_, h.dated, ?_, ?_, ?_, ?_⟩
  · rw [Saved.apply]
    split <;> exact h.counter
  · rw [List.map_append, ← Multiset.coe_add, ← haccounted, ← Multiset.add_assoc,
      Multiset.add_comm]
    rfl
  · rw [Saved.apply]
    split
    · exact OrderedStore.kept_put IDComparator.dated_total h.kept hdated _
    · exact h.kept
  · intro e he
    rw [Saved.apply] at he
    split at he
    · rcases OrderedStore.eq_or_mem_of_mem_put he with rfl | he
      · exact ⟨d.id, hmem, rfl⟩
      · exact h.keys e he
    · exact h.keys e he
  · intro hok hn
    have hd : d.status.isOk = true :=
      Status.isOk_iff.mpr (hok d (List.mem_append_right _ (List.mem_singleton_self d)))
    have hperm := h.records (fun c hc ↦ hok c (List.mem_append_left _ hc)) hn
    have hfresh : ∀ e ∈ f.records, e.1 ≠ serializeID d.id := by
      intro e he hkey
      obtain ⟨c, hc, rfl⟩ := List.mem_map.mp (hperm.mem_iff.mp he)
      have hnodup := h.nodup hn
      rw [← Multiset.coe_nodup, ← haccounted, Multiset.nodup_cons] at hnodup
      refine hnodup.1 (Multiset.mem_add.mpr (Or.inr ?_))
      rw [← serializeID_inj.mp hkey]
      exact List.mem_map_of_mem hc
    rw [Saved.apply, if_pos hd, List.map_append]
    refine (OrderedStore.put_perm_cons IDComparator.dated_total h.kept hdated _ hfresh).trans ?_
    exact (hperm.cons _).trans (List.perm_append_singleton _ _).symm

/-- Every save to a folder, in progress or ended. -/
def Local.requests (a : Local) : Multiset SaveRequest :=
  a.saving + (a.finished.map (·.request) : List SaveRequest)

private theorem requests_step (h : Local.Step pb a b) : b.requests = a.requests := by
  cases h with
  | issue => rfl
  | write _ hrs =>
    simp only [Local.requests, List.map_append, ← Multiset.coe_add, hrs]
    rw [← Multiset.add_assoc, Multiset.add_comm, Multiset.cons_add]
    rfl

variable {M M' M₀ : Model}

/-- The saves to a folder over a run are those there were and those that arrived. -/
theorem requests_run {ls : List Label} (hrun : run (Model.step pb) M ls = some M') (x : String) :
    (M'.toLocal x).requests =
      (M.toLocal x).requests + (ls.flatMap (·.arrivals x) : List SaveRequest) := by
  induction ls generalizing M with
  | nil =>
    cases hrun
    exact (Multiset.add_zero _).symm
  | cons l ls ih =>
    obtain ⟨M₁, hstep, hrest⟩ := run_cons_eq_some.mp hrun
    obtain ⟨o, -, h⟩ := toLocal_step hstep x
    have hone : (M₁.toLocal x).requests = (M.toLocal x).requests + (l.arrivals x : List _) := by
      have hprepare : ((M.toLocal x).prepare o (l.arrivals x)).requests =
          (M.toLocal x).requests + (l.arrivals x : List _) := by
        simp only [Local.requests, Local.prepare]
        rw [Multiset.add_assoc, Multiset.add_comm (l.arrivals x : Multiset SaveRequest),
          ← Multiset.add_assoc]
      rcases h with h | h
      · rw [h, hprepare]
      · rw [requests_step h, hprepare]
    rw [ih hrest, hone, List.flatMap_cons, ← Multiset.coe_add, Multiset.add_assoc]

/-- A folder over a run: the session so far, and what it has added to the records of the model. -/
def InSession (pb : Protobuf) (a₀ a : Local) : Prop :=
  ∃ f ids done, Session pb a f ids done ∧ a.issued = a₀.issued ++ ids ∧
    a.finished = a₀.finished ++ done

private theorem inSession_step {a₀ : Local} {x : String} {l : Label}
    (hstep : M.step pb l = some M') (hl : ¬ M.Reopens l) (h : InSession pb a₀ (M.toLocal x)) :
    InSession pb a₀ (M'.toLocal x) := by
  obtain ⟨f, ids, done, hsess, hissued, hfinished⟩ := h
  obtain ⟨o, ho, h⟩ := toLocal_step hstep x
  have hprepare : Session pb ((M.toLocal x).prepare o (l.arrivals x)) f ids done := by
    rw [ho.eq_of_not hl]
    exact ⟨hsess.folder, hsess.numbers, hsess.counter, hsess.dated, hsess.accounted, hsess.kept,
      hsess.keys, hsess.records⟩
  rcases h with h | h
  · rw [h]
    exact ⟨f, ids, done, hprepare, hissued, hfinished⟩
  · generalize M'.toLocal x = b at h
    cases h with
    | @issue g id hg hts hu =>
      cases hprepare.folder.symm.trans hg
      refine ⟨_, ids ++ [id], done, hprepare.issue hts hu, ?_, hfinished⟩
      rw [← List.append_assoc, ← hissued]
      rfl
    | @write d os rs hos hrs =>
      refine ⟨_, ids, done ++ [d], hprepare.write hos, hissued, ?_⟩
      rw [← List.append_assoc, ← hfinished]
      rfl

/-- A run from a state where the folder is empty with its counter at zero, as opening the database
leaves an empty folder, during which the database is not opened again. -/
structure OpenStretch (pb : Protobuf) (folder : String) (s₀ : System) (labels : List Label)
    (s : System) : Prop where
  reached : ∃ impl env cfg client before,
    DbClient.start impl env cfg RocksDB.empty = .ok () client ∧
    (∀ l ∈ before, l.Durable) ∧ run (System.step pb) (.started client) before = some s₀
  empty : s₀.client.view folder = some ⟨[], 0⟩
  idle : ∀ t ∈ s₀.threads, t.idIn folder = none
  durable : ∀ l ∈ labels, l.Durable
  stays : Along (System.step pb) (fun s l ↦ ¬ s.Reopens l) s₀ labels
  ends : run (System.step pb) s₀ labels = some s

/-- The saves in progress to a folder. -/
def System.savesIn (s : System) (folder : String) : List SaveRequest :=
  s.threads.filterMap (Thread.saveIn folder)

/-- The saves to a folder. -/
def savesTo (folder : String) (done : List Saved) : List Saved :=
  done.filter (·.request.folder = folder)

/-- The saves to a folder that there are or that arrive. -/
def System.requestsTo (s : System) (folder : String) (labels : List Label) : List SaveRequest :=
  s.savesIn folder ++ labels.flatMap (·.arrivals folder)

private theorem saving_model (s : System) (folder : String) :
    (s.model.toLocal folder).saving = s.savesIn folder := by
  simp [Model.toLocal, System.model, System.savesIn, List.filterMap_map]

private theorem outstanding_model (s : System) (folder : String) :
    (s.model.toLocal folder).outstanding = s.threads.filterMap (Thread.idIn folder) := by
  simp [Model.toLocal, System.model, List.filterMap_map]

private theorem idIn_of_saveIn {H : Type} {folder : String} {t : Thread H}
    (h : t.saveIn folder = none) : t.idIn folder = none := by
  rw [Thread.saveIn] at h
  rw [Thread.idIn]
  split
  · next hf =>
    rw [if_pos hf] at h
    cases t <;> first | rfl | cases h
  · rfl

/-- When no save to the folder is in progress, nothing is outstanding. -/
theorem outstanding_of_savesIn {s : System} {folder : String} (h : s.savesIn folder = []) :
    (s.model.toLocal folder).outstanding = 0 := by
  rw [outstanding_model, Multiset.coe_eq_zero, List.filterMap_eq_nil_iff]
  exact fun t ht ↦ idIn_of_saveIn (List.filterMap_eq_nil_iff.mp h t ht)

section Stretch
variable {folder : String} {s₀ s : System} {labels : List Label}

/-- A stretch begins in a sound state. -/
theorem OpenStretch.sound (h : OpenStretch pb folder s₀ labels s) : s₀.Sound := by
  obtain ⟨impl, env, cfg, client, before, hstart, hbefore, hrun⟩ := h.reached
  exact (run_simulates (sound_started (DbClient.same_dir_of_start_empty hstart) hstart) pb
    hbefore).2 s₀ hrun

/-- The stretch in the model. -/
theorem OpenStretch.run_model (h : OpenStretch pb folder s₀ labels s) :
    run (Model.step pb) s₀.model labels = some s.model := by
  rw [← (run_simulates h.sound pb h.durable).1, h.ends, Option.map_some]

/-- A stretch goes on as its model does. -/
theorem OpenStretch.extend (h : OpenStretch pb folder s₀ labels s) {more : List Label}
    (hmore : ∀ l ∈ more, l.Durable) (hrun : run (Model.step pb) s.model more = some M)
    (hstays : Along (Model.step pb) (fun M l ↦ ¬ M.Reopens l) s.model more) :
    ∃ t, OpenStretch pb folder s₀ (labels ++ more) t ∧ t.model = M := by
  have hsound := (run_simulates h.sound pb h.durable).2 s h.ends
  have hmodel := (run_simulates hsound pb hmore).1
  rw [hrun] at hmodel
  obtain ⟨t, ht, rfl⟩ := Option.map_eq_some_iff.mp hmodel
  refine ⟨t, ⟨h.reached, h.empty, h.idle, ?_, ?_, run_append_eq_some.mpr ⟨s, h.ends, ht⟩⟩, rfl⟩
  · intro l hl
    exact (List.mem_append.mp hl).elim (h.durable l) (hmore l)
  · refine (along_append h.ends).mpr ⟨h.stays, ?_⟩
    exact (along_simulates (D := fun M l ↦ ¬ M.Reopens l)
      (fun s l ↦ not_congr (reopens_iff s l)) hsound hmore).mpr hstays

/-- Over the stretch the folder is in session. -/
theorem OpenStretch.session (h : OpenStretch pb folder s₀ labels s) :
    InSession pb (s₀.model.toLocal folder) (s.model.toLocal folder) := by
  have hstays := (along_simulates (D := fun M l ↦ ¬ M.Reopens l)
    (fun s l ↦ not_congr (reopens_iff s l)) h.sound h.durable).mp h.stays
  refine run_invariant_along
    (I := fun M ↦ InSession pb (s₀.model.toLocal folder) (M.toLocal folder))
    (fun _ _ _ ↦ inSession_step) h.run_model hstays
    ⟨⟨[], 0⟩, [], [], ?_, (List.append_nil _).symm, (List.append_nil _).symm⟩
  have hidle : (s₀.model.toLocal folder).outstanding = 0 := by
    rw [outstanding_model, Multiset.coe_eq_zero, List.filterMap_eq_nil_iff]
    exact h.idle
  refine ⟨h.empty, rfl, rfl, by simp, ?_, OrderedStore.kept_nil, by simp, fun _ _ ↦ ?_⟩
  · rw [hidle]
    rfl
  · exact List.Perm.refl _

variable (folder) in
/-- The saves to the folder that end over the stretch. -/
theorem savesTo_of_finished {done : List Saved} (hdone : s.finished = s₀.finished ++ done) :
    (s.model.toLocal folder).finished =
      (s₀.model.toLocal folder).finished ++ savesTo folder done := by
  simp only [Model.toLocal, System.model, hdone, List.filter_append, savesTo]

/-- When all saves to the folder have ended, each was served once. -/
theorem OpenStretch.served (h : OpenStretch pb folder s₀ labels s)
    (hall : s.savesIn folder = []) {done : List Saved} (hdone : s.finished = s₀.finished ++ done) :
    ((savesTo folder done).map (·.request)).Perm (s₀.requestsTo folder labels) := by
  have hrun := requests_run h.run_model folder
  simp only [Local.requests, saving_model, hall, savesTo_of_finished folder hdone, List.map_append,
    ← Multiset.coe_add] at hrun
  rw [System.requestsTo, ← Multiset.coe_eq_coe, ← Multiset.coe_add]
  rw [Multiset.coe_nil, Multiset.zero_add,
    Multiset.add_comm (s₀.savesIn folder : Multiset SaveRequest), Multiset.add_assoc] at hrun
  exact Multiset.add_right_inj.mp hrun

end Stretch

/-! ### Saves in turn -/

/-- A save and its three steps, when no other request is in progress. -/
def savingOnce (request : SaveRequest) (env : Env) : List Label :=
  [.arrive (.save request), .run 0 env, .run 0 env, .run 0 env]

/-- RocksDB does what a save asks of it. -/
theorem durable_savingOnce {request : SaveRequest} {env : Env} (henv : DbClient.Healthy env) :
    ∀ l ∈ savingOnce request env, l.Durable := by
  intro l hl
  simp only [savingOnce, List.mem_cons, List.not_mem_nil, or_false] at hl
  rcases hl with rfl | rfl | rfl | rfl
  exacts [trivial, henv, henv, henv]

variable (pb) in
/-- A save with no other request in progress. -/
theorem run_savingOnce {request : SaveRequest} {env : Env} (hput : env.put = .ok)
    (htasks : M.tasks = []) {f : Folder} (hf : M.folders request.folder = some f) :
    run (Model.step pb) M (savingOnce request env) = some
        { folders := (M.folders.issue request.folder).store request.folder
            (serializeID (request.nextID env f))
            (pb.serializeAsString (request.message (request.nextID env f)))
          issued := M.issued ++ [(request.folder, request.nextID env f)]
          finished := M.finished ++ [⟨request, request.nextID env f, .ok⟩] } ∧
      Along (Model.step pb) (fun M l ↦ ¬ M.Reopens l) M (savingOnce request env) := by
  obtain ⟨F, tasks, issued, finished⟩ := M
  subst htasks
  have hf : F request.folder = some f := hf
  have htouch : F.touch request.folder = F := Folders.touch_of_isSome (Option.isSome_of_eq_some hf)
  have hnum : numbering F request.folder = f := by rw [numbering, htouch, hf, Option.getD_some]
  refine ⟨?_, ?_⟩
  · simp [savingOnce, run, Model.step, Request.thread, advanceTask, Thread.creates, Thread.opens,
      hf, htouch, hnum, hput, Status.isOk, Pool.replace, expireIf]
  · simp [savingOnce, Along, Model.step, Model.Reopens, Request.thread, advanceTask,
      Thread.creates, Thread.opens, hf, htouch, hnum, Pool.replace, expireIf]

/-- A save again and again, each after the one before. -/
def savingInTurn (request : SaveRequest) (env : Env) (n : Nat) : List Label :=
  (List.replicate n (savingOnce request env)).flatten

/-- One more save at the end. -/
theorem savingInTurn_succ (request : SaveRequest) (env : Env) (n : Nat) :
    savingInTurn request env (n + 1) = savingInTurn request env n ++ savingOnce request env := by
  rw [savingInTurn, List.replicate_succ', List.flatten_append, List.flatten_singleton,
    savingInTurn]

/-- The saves that were made in turn. -/
def savedInTurn (request : SaveRequest) (env : Env) (first : UInt64) (n : Nat) : List Saved :=
  (List.range n).map fun k ↦
    ⟨request, ⟨DbClient.effectiveTs env request.timestamp, first + UInt64.ofNat k⟩, .ok⟩

/-- As many saves as were made. -/
theorem length_savedInTurn (request : SaveRequest) (env : Env) (first : UInt64) (n : Nat) :
    (savedInTurn request env first n).length = n := by
  rw [savedInTurn, List.length_map, List.length_range]

/-- All saves made in turn are writes to one folder. -/
theorem mem_savedInTurn {request : SaveRequest} {env : Env} {first : UInt64} {n : Nat} {d : Saved}
    (h : d ∈ savedInTurn request env first n) :
    d.request = request ∧ d.status = .ok ∧
      d.id.timestamp = DbClient.effectiveTs env request.timestamp := by
  obtain ⟨k, -, rfl⟩ := List.mem_map.mp h
  exact ⟨rfl, rfl, rfl⟩

/-- They are all saves to the folder. -/
theorem savesTo_savedInTurn (request : SaveRequest) (env : Env) (first : UInt64) (n : Nat) :
    savesTo request.folder (savedInTurn request env first n) =
      savedInTurn request env first n :=
  List.filter_eq_self.mpr fun _ hd ↦ decide_eq_true (by rw [(mem_savedInTurn hd).1])

variable (pb) in
/-- Saves in turn take the numbers in turn. -/
theorem run_savingInTurn {request : SaveRequest} {env : Env} (hput : env.put = .ok)
    (htasks : M.tasks = []) {f : Folder} (hf : M.folders request.folder = some f) (n : Nat) :
    ∃ M', run (Model.step pb) M (savingInTurn request env n) = some M' ∧ M'.tasks = [] ∧
      (∃ f', M'.folders request.folder = some f' ∧
        f'.lastUnique = f.lastUnique + UInt64.ofNat n) ∧
      M'.issued = M.issued ++
        (savedInTurn request env f.lastUnique n).map (fun d ↦ (request.folder, d.id)) ∧
      M'.finished = M.finished ++ savedInTurn request env f.lastUnique n ∧
      Along (Model.step pb) (fun M l ↦ ¬ M.Reopens l) M (savingInTurn request env n) := by
  induction n with
  | zero =>
    exact ⟨M, rfl, htasks, ⟨f, hf, (UInt64.add_zero _).symm⟩, (List.append_nil _).symm,
      (List.append_nil _).symm, trivial⟩
  | succ n ih =>
    obtain ⟨M', hrun, htasks', ⟨f', hf', hcounter⟩, hissued, hfinished, halong⟩ := ih
    obtain ⟨honce, hstays⟩ := run_savingOnce pb hput htasks' hf'
    have hid : request.nextID env f' =
        ⟨DbClient.effectiveTs env request.timestamp, f.lastUnique + UInt64.ofNat n⟩ := by
      rw [SaveRequest.nextID, hcounter]
    rw [savingInTurn_succ]
    refine ⟨_, run_append_eq_some.mpr ⟨M', hrun, honce⟩, rfl, ?_, ?_, ?_,
      (along_append hrun).mpr ⟨halong, hstays⟩⟩
    · refine ⟨_, Folders.store_self (Folders.issue_self hf') _ _, ?_⟩
      simp only [hcounter, UInt64.add_assoc, UInt64.ofNat_add]
      rfl
    · simp only [savedInTurn, List.range_succ, List.map_append, hissued, hid, List.append_assoc]
      rfl
    · simp only [savedInTurn, List.range_succ, List.map_append, hfinished, hid, List.append_assoc]
      rfl

variable (pb) in
/-- A server just started on an empty disk can serve any number of saves in turn. -/
theorem stretch_savingInTurn {impl : Impl} {env₀ env : Env} {cfg : Config} {client : DbClient}
    (hstart : DbClient.start impl env₀ cfg RocksDB.empty = .ok () client)
    (henv : DbClient.Healthy env) (hput : env.put = .ok) {request : SaveRequest}
    (hfolder : (client.view request.folder).isSome) (n : Nat) :
    ∃ s, OpenStretch pb request.folder (.started client) (savingInTurn request env n) s ∧
      s.threads = [] ∧
      s.issued = (savedInTurn request env 0 n).map (fun d ↦ (request.folder, d.id)) ∧
      s.finished = savedInTurn request env 0 n := by
  obtain ⟨f, hf⟩ := Option.isSome_iff_exists.mp hfolder
  obtain rfl := DbClient.view_start_empty hstart hf
  have hbegin : OpenStretch pb request.folder (.started client) [] (.started client) :=
    ⟨⟨impl, env₀, cfg, client, [], hstart, by simp, rfl⟩, hf, by simp [System.started], by simp,
      trivial, rfl⟩
  have hdurable : ∀ l ∈ savingInTurn request env n, l.Durable := by
    intro l hl
    obtain ⟨ls, hls, hl⟩ := List.mem_flatten.mp hl
    rw [(List.mem_replicate.mp hls).2] at hl
    exact durable_savingOnce henv l hl
  obtain ⟨M', hrun, htasks, -, hissued, hfinished, hstays⟩ :=
    run_savingInTurn pb (M := (System.started client).model) hput rfl hf n
  obtain ⟨s, hs, rfl⟩ := hbegin.extend hdurable hrun hstays
  exact ⟨s, hs, List.map_eq_nil_iff.mp htasks, hissued, hfinished⟩

end TimeMachine.Concurrent
