import TimeMachine.Concurrent.Local
import TimeMachine.Store.Wire
import Mathlib.Data.Multiset.MapFold

/-!
# Numbers taken twice

While the database stays open the counter of a folder is ahead of every number that is
stored or outstanding. Opening it again sets the counter to the number of the last
record, which is handed out a second time, and forgets what is outstanding. So the
numbers of a folder stay apart as long as nothing was generated when the database is
opened again.
-/

namespace TimeMachine.Concurrent
open TimeMachine.Base TimeMachine.Base.StateError TimeMachine.Store TimeMachine.Client
open TimeMachine.Server TimeMachine.Client.DbClient

/-- The identifiers under which saves to the folder were written. -/
def written (finished : List Saved) (folder : String) : List ID :=
  (finished.filter (fun d ↦ d.request.folder = folder ∧ d.status = .ok)).map (·.id)

/-- No number is taken twice: the saves written to a folder have distinct numbers, and the next
identifier of a folder has a number that none of its records has. -/
structure System.UniqueNumbers (s : System) : Prop where
  distinct : ∀ folder, ((written s.finished folder).map (·.unique)).Nodup
  fresh : ∀ folder env ts id client, (generateId env folder ts).run s.client = .ok id client →
    Healthy env → ∀ entries, s.client.family folder = some entries →
    ∀ e ∈ entries, (deserializeID e.1).unique ≠ id.unique

/-- If the step opens the database again, nothing was stored or is outstanding. -/
def System.KeepsNumbers (s : System) (l : Label) : Prop :=
  s.Reopens l → (∀ folder, ∀ f ∈ s.client.view folder, f.records = []) ∧
    ∀ t ∈ s.threads, t.id = none

/-- The counters are far from their end. -/
def System.CountersBelow (s : System) : Prop :=
  ∀ folder, ∀ f ∈ s.client.view folder, f.lastUnique.toNat < 2 ^ 63

instance System.decidableKeepsNumbers (s : System) (l : Label) : Decidable (s.KeepsNumbers l) :=
  inferInstanceAs (Decidable (s.Reopens l →
    (∀ folder, ∀ f ∈ s.client.view folder, f.records = []) ∧ ∀ t ∈ s.threads, t.id = none))

instance System.decidableCountersBelow (s : System) : Decidable s.CountersBelow :=
  inferInstanceAs (Decidable (∀ folder, ∀ f ∈ s.client.view folder, f.lastUnique.toNat < 2 ^ 63))

/-- The same of the model. -/
def Model.KeepsNumbers (M : Model) (l : Label) : Prop :=
  M.Reopens l → (∀ folder, ∀ f ∈ M.folders folder, f.records = []) ∧ ∀ t ∈ M.tasks, t.id = none

/-- The same of the model. -/
def Model.CountersBelow (M : Model) : Prop :=
  ∀ folder, ∀ f ∈ M.folders folder, f.lastUnique.toNat < 2 ^ 63

private theorem keepsNumbers_iff (s : System) (l : Label) :
    s.KeepsNumbers l ↔ s.model.KeepsNumbers l := by
  simp [System.KeepsNumbers, Model.KeepsNumbers, reopens_iff, System.model]

/-- The identifiers under which saves were written. -/
def Local.written (a : Local) : List ID := (a.finished.filter (·.status = .ok)).map (·.id)

/-- The identifiers that are outstanding or written. -/
def Local.taken (a : Local) : Multiset ID := a.outstanding + a.written

/-- The numbers taken are distinct and below the counter, and the records are what was
written. -/
structure Numbered (a : Local) : Prop where
  nodup : (a.taken.map (·.unique)).Nodup
  below : ∀ f, a.folder = some f → ∀ id ∈ a.taken, id.unique < f.lastUnique
  records : ∀ f, a.folder = some f → ∀ e ∈ f.records, ∃ id ∈ a.written, e.1 = serializeID id
  stored : ∀ f, a.folder = some f → f.records = [] → a.written = []
  absent : a.folder = none → a.taken = 0

variable {pb : Protobuf} {M M' : Model} {a b : Local}

private theorem mem_taken {id : ID} : id ∈ a.taken ↔ id ∈ a.outstanding ∨ id ∈ a.written :=
  Multiset.mem_add

private theorem numbered_blank (hrecords : ∀ f, a.folder = some f → f.records = [])
    (htaken : a.taken = 0) : Numbered a := by
  refine ⟨by simp [htaken], ?_, ?_, fun _ _ _ ↦ ?_, fun _ ↦ htaken⟩
  · intro f hf id hid
    simp [htaken] at hid
  · intro f hf e he
    rw [hrecords f hf] at he
    cases he
  · apply List.eq_nil_iff_forall_not_mem.mpr
    intro id hid
    have h := mem_taken.mpr (Or.inr hid)
    simp [htaken] at h

private theorem numbered_prepare {reopens : Prop} {o o' : Option Folder} (ha : Numbered a)
    (hfolder : a.folder = o) (ho : Reopened reopens o o')
    (hblank : reopens → (∀ f, a.folder = some f → f.records = []) ∧ a.outstanding = 0)
    (rs : Multiset SaveRequest) : Numbered (a.prepare o' rs) := by
  have htaken (h : reopens) : a.taken = 0 := by
    obtain ⟨hrecords, hout⟩ := hblank h
    cases hf : a.folder with
    | none => exact ha.absent hf
    | some f => simp [Local.taken, hout, ha.stored f hf (hrecords f hf)]
  cases ho with
  | kept =>
    subst hfolder
    exact ⟨ha.nodup, ha.below, ha.records, ha.stored, ha.absent⟩
  | reseeded h =>
    refine numbered_blank (fun f hf ↦ ?_) (htaken h)
    obtain ⟨g, hg, rfl⟩ := Option.map_eq_some_iff.mp hf
    exact (hblank h).1 g (hfolder.trans hg)
  | created h =>
    refine numbered_blank (fun f hf ↦ ?_) (htaken h)
    cases hf
    rfl

private theorem below_reopened {reopens : Prop} {o o' : Option Folder} (ho : Reopened reopens o o')
    (hblank : reopens → ∀ f, o = some f → f.records = [])
    (hbelow : ∀ f, o = some f → f.lastUnique.toNat < 2 ^ 63) :
    ∀ f, o' = some f → f.lastUnique.toNat < 2 ^ 63 := by
  intro f hf
  cases ho with
  | kept => exact hbelow f hf
  | reseeded h =>
    obtain ⟨g, hg, rfl⟩ := Option.map_eq_some_iff.mp hf
    simp [Folder.reseed, hblank h g hg, uniqueRange, OrderedStore.seekToLast]
  | created =>
    cases hf
    decide

private theorem lt_add_one {n : UInt64} (h : n.toNat < 2 ^ 63) {m : UInt64} (hm : m ≤ n) :
    m < n + 1 := by
  rw [UInt64.lt_iff_toNat_lt, UInt64.toNat_add]
  have := UInt64.le_iff_toNat_le.mp hm
  simp
  omega

private theorem numbered_issue {f : Folder} {id : ID} (hf : a.folder = some f)
    (hu : id.unique = f.lastUnique) (ha : Numbered a) (hbelow : f.lastUnique.toNat < 2 ^ 63) :
    Numbered
      { a with
        folder := some { f with lastUnique := f.lastUnique + 1 }
        outstanding := id ::ₘ a.outstanding
        issued := a.issued ++ [id] } := by
  have hlt := ha.below f hf
  have htaken (x : ID) (o : Option Folder) (issued : List ID) :
      Local.taken { a with folder := o, outstanding := x ::ₘ a.outstanding, issued } =
        x ::ₘ a.taken := Multiset.cons_add _ _ _
  refine ⟨?_, ?_, ?_, ?_, ?_⟩
  · rw [htaken, Multiset.map_cons, Multiset.nodup_cons]
    refine ⟨?_, ha.nodup⟩
    rw [Multiset.mem_map, hu]
    rintro ⟨id', hid', he⟩
    exact UInt64.ne_of_lt (hlt id' hid') he
  · rintro f' ⟨rfl⟩ id' hid'
    rw [htaken, Multiset.mem_cons] at hid'
    apply lt_add_one hbelow
    rcases hid' with rfl | hid'
    · exact UInt64.le_of_eq hu
    · exact UInt64.le_of_lt (hlt id' hid')
  · rintro f' ⟨rfl⟩ e he
    exact ha.records f hf e he
  · rintro f' ⟨rfl⟩ hnil
    exact ha.stored f hf hnil
  · rintro ⟨⟩

private theorem written_write (a : Local) (o : Option Folder) (os : Multiset ID)
    (rs : Multiset SaveRequest) (d : Saved) :
    Local.written
        { a with folder := o, outstanding := os, saving := rs, finished := a.finished ++ [d] } =
      a.written ++ if d.status = .ok then [d.id] else [] := by
  simp only [Local.written, List.filter_append, List.map_append]
  split <;> simp [*]

private theorem taken_write_le {d : Saved} {os : Multiset ID} (hos : a.outstanding = d.id ::ₘ os)
    (o : Option Folder) (rs : Multiset SaveRequest) :
    Local.taken
        { a with folder := o, outstanding := os, saving := rs, finished := a.finished ++ [d] } ≤
      a.taken := by
  have hle : ((if d.status = .ok then [d.id] else [] : List ID) : Multiset ID) ≤ {d.id} := by
    split <;> simp
  calc Local.taken
        { a with folder := o, outstanding := os, saving := rs, finished := a.finished ++ [d] }
      = os + (a.written + (if d.status = .ok then [d.id] else [] : List ID)) := by
        rw [Local.taken, written_write, Multiset.coe_add]
    _ ≤ os + (a.written + {d.id}) :=
        Multiset.add_le_add_left (Multiset.add_le_add_left hle)
    _ = a.taken := by
        rw [Local.taken, hos, ← Multiset.singleton_add, ← Multiset.add_assoc,
          Multiset.add_comm, ← Multiset.add_assoc]

private theorem numbered_write {d : Saved} {os : Multiset ID} {rs : Multiset SaveRequest}
    (hos : a.outstanding = d.id ::ₘ os) (ha : Numbered a) :
    Numbered
      { a with
        folder := a.folder.map (d.apply pb)
        outstanding := os
        saving := rs
        finished := a.finished ++ [d] } := by
  have htaken := taken_write_le hos (a.folder.map (d.apply pb)) rs
  refine ⟨Multiset.nodup_of_le (Multiset.map_le_map htaken) ha.nodup, ?_, ?_, ?_, ?_⟩
  · intro f' hf' id hid
    obtain ⟨f, hf, rfl⟩ := Option.map_eq_some_iff.mp hf'
    have hlt := ha.below f hf id (Multiset.mem_of_le htaken hid)
    rw [Saved.apply]
    split <;> exact hlt
  · intro f' hf' e he
    obtain ⟨f, hf, rfl⟩ := Option.map_eq_some_iff.mp hf'
    rw [Saved.apply] at he
    rw [written_write]
    split at he
    · next hok =>
      rcases OrderedStore.eq_or_mem_of_mem_put he with rfl | he
      · exact ⟨d.id, by simp [Status.isOk_iff.mp hok], rfl⟩
      · obtain ⟨id, hid, hkey⟩ := ha.records f hf e he
        exact ⟨id, List.mem_append_left _ hid, hkey⟩
    · obtain ⟨id, hid, hkey⟩ := ha.records f hf e he
      exact ⟨id, List.mem_append_left _ hid, hkey⟩
  · intro f' hf' hnil
    obtain ⟨f, hf, rfl⟩ := Option.map_eq_some_iff.mp hf'
    rw [Saved.apply] at hnil
    split at hnil
    · exact absurd hnil (OrderedStore.put_ne_nil _ _ _)
    · next hno =>
      rw [written_write, ha.stored f hf hnil, if_neg (fun h ↦ hno (Status.isOk_iff.mpr h))]
      rfl
  · intro hnone
    rw [ha.absent (Option.map_eq_none_iff.mp hnone)] at htaken
    exact Multiset.le_zero.mp htaken

private theorem numbered_model_step {l : Label} (hstep : M.step pb l = some M')
    (hc : M.KeepsNumbers l ∧ M.CountersBelow) (hM : ∀ x, Numbered (M.toLocal x)) :
    ∀ x, Numbered (M'.toLocal x) := by
  intro x
  obtain ⟨o, ho, h⟩ := toLocal_step hstep x
  have hblank (hr : M.Reopens l) : ∀ f, M.folders x = some f → f.records = [] :=
    fun f hf ↦ (hc.1 hr).1 x f hf
  have hout (hr : M.Reopens l) : (M.toLocal x).outstanding = 0 := by
    refine (Multiset.coe_eq_zero _).mpr (List.filterMap_eq_nil_iff.mpr fun t ht ↦ ?_)
    rw [Thread.idIn, (hc.1 hr).2 t ht, ite_self]
  have hprepare := numbered_prepare (hM x) rfl ho (fun hr ↦ ⟨hblank hr, hout hr⟩) (l.arrivals x)
  rcases h with h | h
  · rwa [h]
  · generalize M'.toLocal x = b at h
    cases h with
    | issue hf hts hu =>
      exact numbered_issue hf hu hprepare (below_reopened ho hblank (hc.2 x) _ hf)
    | write hos hrs => exact numbered_write hos hprepare

private theorem uniqueNumbers_of_numbered {s : System} (hs : s.Sound)
    (h : ∀ x, Numbered (s.model.toLocal x)) : s.UniqueNumbers := by
  have hwritten (folder : String) :
      (s.model.toLocal folder).written = written s.finished folder := by
    simp only [Local.written, Model.toLocal, System.model, written, List.filter_filter]
    congr 2
    funext d
    simp [Bool.and_comm]
  refine ⟨fun folder ↦ ?_, ?_⟩
  · have hle : ((written s.finished folder : Multiset ID)).map (·.unique) ≤
        (s.model.toLocal folder).taken.map (·.unique) := by
      rw [Local.taken, hwritten]
      exact Multiset.map_le_map (Multiset.le_add_left _ _)
    exact Multiset.coe_nodup.mp (Multiset.nodup_of_le hle (h folder).nodup)
  · intro folder env ts id client hrun henv entries hentries e he
    obtain ⟨f, hf, rfl⟩ := view_of_family hs.serves hentries
    obtain ⟨cf, r, g, t, -, hg, hgen, -⟩ := run_generateId hs.serves henv folder ts
    rw [Folders.touch_of_isSome (Option.isSome_of_eq_some hf), hf] at hg
    cases hg
    rw [hgen] at hrun
    cases hrun
    obtain ⟨id, hid, hkey⟩ := (h folder).records f hf e he
    rw [hkey, deserializeID_serializeID]
    exact UInt64.ne_of_lt ((h folder).below f hf id (mem_taken.mpr (Or.inr hid)))

private theorem view_of_reopens {s s' : System} (hs : s.Sound) {l : Label} (hl : l.Durable)
    (hstep : s.step pb l = some s') (hreopens : s.Reopens l) {folder : String} {f : Folder}
    (hf : s.client.view folder = some f) : s'.client.view folder = some f.reseed := by
  have hmodel := (step_simulates hs pb hl).1
  rw [hstep, Option.map_some] at hmodel
  change s'.model.folders folder = _
  rw [reopens_iff] at hreopens
  cases l with
  | arrive request => cases hreopens
  | run i env =>
    obtain ⟨t, ht, hM⟩ := Model.step_run.mp hmodel.symm
    obtain ⟨u, hu, hcreates⟩ := hreopens
    obtain rfl : t = u := Option.some.inj (ht.symm.trans hu)
    obtain ⟨hne, hopened⟩ := opened_of_creates hcreates hf
    rw [hM]
    exact (advanceTask_of_ne pb env hne _).trans hopened
  | restart env =>
    obtain ⟨-, hM⟩ := Model.step_restart.mp hmodel.symm
    rw [hM]
    exact congrArg (Option.map Folder.reseed) hf

/-- Opening the database again with a record stored hands out a number a second time. -/
theorem number_repeats {s s' : System} (hs : s.Sound) {l : Label} (hl : l.Durable)
    (hstep : s.step pb l = some s') (hreopens : s.Reopens l) {folder : String} {f : Folder}
    (hf : s.client.view folder = some f) (hrecords : f.records ≠ []) : ¬ s'.UniqueNumbers := by
  intro hunique
  have hview := view_of_reopens hs hl hstep hreopens hf
  have hserves := ((step_simulates hs pb hl).2 s' hstep).serves
  have henv : Healthy { now := 1, now_ne_zero := by decide } := ⟨rfl, rfl, rfl⟩
  obtain ⟨cf, r, g, t, -, hg, hgen, -⟩ := run_generateId hserves henv folder 0
  rw [Folders.touch_of_isSome (Option.isSome_of_eq_some hview), hview] at hg
  cases hg
  have hlast : OrderedStore.seekToLast f.records = some (f.records.getLast hrecords) :=
    List.getLast?_eq_some_getLast hrecords
  apply hunique.fresh folder _ 0 _ _ hgen henv _ (family_of_view hview) _
    (List.getLast_mem hrecords)
  simp only [Folder.reseed, uniqueRange, hlast]

/-- From a start on an empty disk, whatever requests run side by side: no number of a folder is
taken twice, as long as nothing is stored or outstanding whenever the database is opened
again. -/
theorem unique_numbers (pb : Protobuf) {impl : Impl} {env : Env} {cfg : Config}
    {client : DbClient} (hstart : start impl env cfg RocksDB.empty = .ok () client)
    {labels : List Label} (hlabels : ∀ l ∈ labels, l.Durable)
    (hcounters : Along (System.step pb) (fun s _ ↦ s.CountersBelow) (.started client) labels)
    (hkeeps : Along (System.step pb) System.KeepsNumbers (.started client) labels)
    {s : System} (hrun : run (System.step pb) (.started client) labels = some s) :
    s.UniqueNumbers := by
  have hsound := sound_started (same_dir_of_start_empty hstart) hstart
  obtain ⟨hmodel, hkept⟩ := run_simulates hsound pb hlabels
  rw [hrun, Option.map_some] at hmodel
  have hc := along_and ((along_simulates keepsNumbers_iff hsound hlabels).mp hkeeps)
    ((along_simulates (D := fun M _ ↦ M.CountersBelow) (fun _ _ ↦ Iff.rfl) hsound hlabels).mp
      hcounters)
  refine uniqueNumbers_of_numbered (hkept s hrun) ?_
  refine run_invariant_along (fun _ _ _ hstep hc ↦ numbered_model_step hstep hc) hmodel.symm hc ?_
  intro x
  refine numbered_blank (fun f hf ↦ ?_) rfl
  rw [view_start_empty hstart hf]

/-- A save and a put to a new folder, side by side. -/
theorem unique_numbers_side_by_side :
    ∃ client s, start .localDBClient { now := 1, now_ne_zero := by decide } {} RocksDB.empty =
        .ok () client ∧
      run (System.step Wire.wire) (.started client)
        [.arrive (.save { folder := "f", data := [1] }),
          .run 0 { now := 2, now_ne_zero := by decide },
          .arrive (.post { folder := "f", data := [2] }),
          .run 1 { now := 2, now_ne_zero := by decide },
          .run 0 { now := 2, now_ne_zero := by decide },
          .run 1 { now := 2, now_ne_zero := by decide },
          .run 1 { now := 2, now_ne_zero := by decide },
          .run 0 { now := 2, now_ne_zero := by decide }] = some s ∧ s.UniqueNumbers := by
  let env : Env := { now := 2, now_ne_zero := by decide }
  let labels : List Label :=
    [.arrive (.save { folder := "f", data := [1] }), .run 0 env,
      .arrive (.post { folder := "f", data := [2] }), .run 1 env, .run 0 env, .run 1 env,
      .run 1 env, .run 0 env]
  obtain ⟨client, hstart⟩ := start_of_empty .localDBClient {}
    { now := 1, now_ne_zero := by decide } rfl rfl rfl rfl
  obtain ⟨hcounters, hkeeps, hsome⟩ := forall_of_final (P := fun c ↦
    Along (System.step Wire.wire) (fun s _ ↦ s.CountersBelow) (.started c) labels ∧
      Along (System.step Wire.wire) System.KeepsNumbers (.started c) labels ∧
      (run (System.step Wire.wire) (.started c) labels).isSome)
    (by decide +kernel) client hstart
  obtain ⟨s, hrun⟩ := Option.isSome_iff_exists.mp hsome
  exact ⟨client, s, hstart, hrun,
    unique_numbers Wire.wire hstart (by decide) hcounters hkeeps hrun⟩

/-- A save, the creation of another folder and a second save: both saves of the folder were given
number zero. -/
theorem number_taken_twice :
    ¬ ∀ (pb : Protobuf) (impl : Impl) (env : Env) (cfg : Config) (client : DbClient)
      (labels : List Label) (s : System), start impl env cfg RocksDB.empty = .ok () client →
      (∀ l ∈ labels, l.Durable) →
      Along (System.step pb) (fun s _ ↦ s.CountersBelow) (.started client) labels →
      run (System.step pb) (.started client) labels = some s → s.UniqueNumbers := by
  intro hall
  let env : Env := { now := 1, now_ne_zero := by decide }
  let labels : List Label :=
    [.arrive (.save { folder := "f", data := [1], timestamp := 5 }), .run 0 env, .run 0 env,
      .run 0 env, .arrive (.save { folder := "g", data := [2] }), .run 0 env, .run 0 env,
      .run 0 env, .arrive (.post { folder := "f", data := [3], timestamp := 7 }), .run 0 env,
      .run 0 env, .run 0 env]
  obtain ⟨client, hstart⟩ := start_of_empty .localDBClient {} env rfl rfl rfl rfl
  have hcounters : Along (System.step Wire.wire) (fun s _ ↦ s.CountersBelow) (.started client)
      labels :=
    forall_of_final (P := fun c ↦ Along (System.step Wire.wire) (fun s _ ↦ s.CountersBelow)
      (.started c) labels) (by decide +kernel) client hstart
  have htwice : ∃ s ∈ run (System.step Wire.wire) (.started client) labels,
      ¬ ((written s.finished "f").map (·.unique)).Nodup :=
    forall_of_final (P := fun c ↦ ∃ s ∈ run (System.step Wire.wire) (.started c) labels,
      ¬ ((written s.finished "f").map (·.unique)).Nodup) (by decide +kernel) client hstart
  obtain ⟨s, hrun, hs⟩ := htwice
  have hunique := hall Wire.wire _ env {} client labels s hstart (by decide) hcounters hrun
  exact hs (hunique.distinct "f")

end TimeMachine.Concurrent
