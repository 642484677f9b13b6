import TimeMachine.Concurrent.Local
import TimeMachine.Client.Coverage
import TimeMachine.Store.Wire

/-!
# Ranges that cover their folders

Subsampling a whole folder, and numbering its records after the database was opened, take
the range read off the first and the last record for the range of all numbers. In a run of
requests side by side that is so exactly as long as each identifier that is written fits
the folder: its number is extreme if its timestamp is. The timestamps are given by the
clients, so nothing sees to that.
-/

namespace TimeMachine.Concurrent
open TimeMachine.Base TimeMachine.Base.StateError TimeMachine.Store TimeMachine.Client
open TimeMachine.Server TimeMachine.Client.DbClient

/-- The folder and the identifier of the record that the next step writes. -/
def Thread.writes {H : Type} (env : Env) : Thread H → Option (String × ID)
  | .writing request id _ => if env.put.isOk then some (request.folder, id) else none
  | _ => none

/-- The folder and the identifier of the record that a step writes. -/
def System.writes (s : System) : Label → Option (String × ID)
  | .run i env => s.threads[i]?.bind (Thread.writes env)
  | _ => none

/-- The identifier a step writes fits the records of the folder. -/
def System.WritesFit (s : System) (l : Label) : Prop :=
  ∀ w ∈ s.writes l, ∀ f ∈ s.client.view w.1, Fits f.records w.2

instance System.decidableWritesFit (s : System) (l : Label) : Decidable (s.WritesFit l) :=
  inferInstanceAs (Decidable (∀ w ∈ s.writes l, ∀ f ∈ s.client.view w.1, Fits f.records w.2))

/-- For every folder with records the range read is from the smallest number to the largest. -/
def System.Covered (s : System) : Prop :=
  ∀ folder entries, s.client.family folder = some entries → entries ≠ [] →
    ∃ cf range, (getColumnFamily folder).run s.client = .ok (some cf) s.client ∧
      (getUniqueRange (some cf)).run s.client = .ok range s.client ∧
      Smallest entries (fun _ ↦ True) range.from' ∧ Largest entries (fun _ ↦ True) range.till

/-- The same of the model. -/
def Model.writes (M : Model) : Label → Option (String × ID)
  | .run i env => M.tasks[i]?.bind (Thread.writes env)
  | _ => none

/-- The same of the model. -/
def Model.WritesFit (M : Model) (l : Label) : Prop :=
  ∀ w ∈ M.writes l, ∀ f ∈ M.folders w.1, Fits f.records w.2

/-- The same of the model. -/
def Model.Covered (M : Model) : Prop := ∀ folder, ∀ f ∈ M.folders folder, Covers f.records

/-- It writes the same. -/
@[simp] theorem Thread.writes_map {H K : Type} (f : H → K) (env : Env) (t : Thread H) :
    (t.map f).writes env = t.writes env := by cases t <;> rfl

/-- A server writes what its model writes. -/
theorem writes_model (s : System) (l : Label) : s.model.writes l = s.writes l := by
  cases l with
  | arrive | restart => rfl
  | run i env =>
    simp only [Model.writes, System.writes, System.model, List.getElem?_map, Option.bind_map]
    exact Option.bind_congr fun t _ ↦ Thread.writes_map _ _ t

private theorem writesFit_iff (s : System) (l : Label) :
    s.WritesFit l ↔ s.model.WritesFit l := by
  rw [System.WritesFit, Model.WritesFit, writes_model]
  exact Iff.rfl

/-- The ranges read cover the folders exactly if those of the model do. -/
theorem covered_iff {s : System} (hs : s.Sound) : s.Covered ↔ s.model.Covered := by
  have hread {folder : String} {f : Folder} (hf : s.client.view folder = some f) :
      ∃ cf, (getColumnFamily folder).run s.client = .ok (some cf) s.client ∧
        (getUniqueRange (some cf)).run s.client = .ok (uniqueRange f.records) s.client := by
    obtain ⟨cf, hcf, hd⟩ := run_of_records (records_of_view hs.serves hf)
    exact ⟨cf, hcf, run_getUniqueRange hd⟩
  constructor
  · intro h folder f hf hne
    obtain ⟨cf, hcf, hrange⟩ := hread hf
    obtain ⟨cf', range, hcf', hrange', hcovers⟩ := h folder f.records (family_of_view hf) hne
    cases hcf.symm.trans hcf'
    cases hrange.symm.trans hrange'
    exact hcovers
  · intro h folder entries hentries hne
    obtain ⟨f, hf, rfl⟩ := view_of_family hs.serves hentries
    obtain ⟨cf, hcf, hrange⟩ := hread hf
    exact ⟨cf, _, hcf, hrange, h folder f hf hne⟩

/-! ### Steps of the model -/

/-- The keys are in order and will be. -/
structure Model.Dated (M : Model) : Prop where
  kept : M.folders.WellKept
  outstanding : ∀ t ∈ M.tasks, ∀ id, t.id = some id → id.timestamp ≠ 0

variable {pb : Protobuf} {env : Env} {M M' : Model}

private theorem dated_advanceTask (pb : Protobuf) (env : Env) {F : Folders} (hF : F.WellKept)
    (t : Task) (ht : ∀ id, t.id = some id → id.timestamp ≠ 0) :
    (advanceTask pb env F t).folders.WellKept ∧
      ∀ t' ∈ (advanceTask pb env F t).task, ∀ id, t'.id = some id → id.timestamp ≠ 0 := by
  cases t with
  | saving request =>
    refine ⟨Folders.wellKept_touch hF _, ?_⟩
    rintro t' ⟨rfl⟩ id ⟨⟩
  | holding request live | posting request =>
    refine ⟨Folders.wellKept_issue (Folders.wellKept_touch hF _) _, ?_⟩
    rintro t' ⟨rfl⟩ id ⟨rfl⟩
    exact request.nextID_ne_zero _ _
  | numbered request id =>
    refine ⟨Folders.wellKept_touch hF _, ?_⟩
    rintro t' ⟨rfl⟩ id' ⟨rfl⟩
    exact ht id rfl
  | writing request id live =>
    refine ⟨?_, fun t' ht' ↦ by cases ht'⟩
    simp only [advanceTask]
    split
    · exact Folders.wellKept_store hF _ (ht id rfl) _
    · exact hF
  | reading folder call rest =>
    refine ⟨hF, fun t' ht' id hid ↦ ?_⟩
    simp only [advanceTask] at ht'
    split at ht'
    · cases ht'
      cases hid
    · cases ht'
  | calling folder live call rest =>
    refine ⟨hF, fun t' ht' id hid ↦ ?_⟩
    cases rest with
    | nil => cases ht'
    | cons next rest =>
      cases ht'
      cases hid

private theorem dated_step {l : Label} (hstep : M.step pb l = some M') (h : M.Dated) :
    M'.Dated := by
  cases l with
  | arrive request =>
    cases hstep
    refine ⟨h.kept, fun t ht id hid ↦ ?_⟩
    rcases List.mem_append.mp ht with ht | ht
    · exact h.outstanding t ht id hid
    · rw [List.mem_singleton.mp ht] at hid
      cases request <;> cases hid
  | run i env =>
    obtain ⟨t, ht, rfl⟩ := Model.step_run.mp hstep
    obtain ⟨hkept, htask⟩ := dated_advanceTask pb env h.kept t
      (h.outstanding t (List.mem_of_getElem? ht))
    refine ⟨hkept, fun t' ht' id hid ↦ ?_⟩
    rcases Pool.mem_of_mem_replace ht' with ht' | ht'
    · exact htask t' ht' id hid
    · cases hcreates : t.creates M.folders with
      | false =>
        rw [hcreates] at ht'
        exact h.outstanding t' ht' id hid
      | true =>
        rw [hcreates, expireIf] at ht'
        obtain ⟨u, hu, rfl⟩ := List.mem_map.mp ht'
        exact h.outstanding u hu id (by rwa [Thread.expire, Thread.id_map] at hid)
  | restart env =>
    obtain ⟨-, rfl⟩ := Model.step_restart.mp hstep
    exact ⟨Folders.wellKept_reopen h.kept, h.outstanding⟩

/-- No record of the second folders is new. -/
def NoneWritten (F F' : Folders) : Prop :=
  ∀ x f', F' x = some f' → f'.records = [] ∨ ∃ f, F x = some f ∧ f'.records = f.records

private theorem noneWritten_refl (F : Folders) : NoneWritten F F :=
  fun _ f hf ↦ Or.inr ⟨f, hf, rfl⟩

private theorem noneWritten_reopen (F : Folders) : NoneWritten F F.reopen := by
  intro x f' hf'
  obtain ⟨f, hf, rfl⟩ := Option.map_eq_some_iff.mp hf'
  exact Or.inr ⟨f, hf, rfl⟩

private theorem noneWritten_touch (F : Folders) (name : String) :
    NoneWritten F (F.touch name) := by
  by_cases hs : (F name).isSome
  · rw [Folders.touch_of_isSome hs]
    exact noneWritten_refl F
  · rw [Folders.touch_of_none (by simpa using hs)]
    intro x f' hf'
    rw [Folders.create_apply] at hf'
    split at hf'
    · cases hf'
      exact Or.inl rfl
    · exact noneWritten_reopen F x f' hf'

private theorem noneWritten_issue {F G : Folders} (h : NoneWritten F G) (name : String) :
    NoneWritten F (G.issue name) := by
  intro x f' hf'
  by_cases hx : x = name
  · subst hx
    rw [Folders.issue, Function.update_self] at hf'
    obtain ⟨g, hg, rfl⟩ := Option.map_eq_some_iff.mp hf'
    exact h x g hg
  · rw [Folders.issue_of_ne G hx] at hf'
    exact h x f' hf'

private theorem folders_advanceTask (pb : Protobuf) (env : Env) (F : Folders) (t : Task) :
    (t.writes env = none ∧ NoneWritten F (advanceTask pb env F t).folders) ∨
      ∃ folder id val, t.writes env = some (folder, id) ∧ t.id = some id ∧
        (advanceTask pb env F t).folders = F.store folder (serializeID id) val := by
  cases t with
  | saving request | numbered request id => exact Or.inl ⟨rfl, noneWritten_touch F _⟩
  | holding request live | posting request =>
    exact Or.inl ⟨rfl, noneWritten_issue (noneWritten_touch F _) _⟩
  | writing request id live =>
    by_cases hput : env.put.isOk = true
    · refine Or.inr ⟨request.folder, id, pb.serializeAsString (request.message id),
        if_pos hput, rfl, ?_⟩
      simp only [advanceTask, hput, if_true]
    · refine Or.inl ⟨if_neg hput, ?_⟩
      simp only [advanceTask, hput]
      exact noneWritten_refl F
  | reading folder call rest | calling folder live call rest =>
    exact Or.inl ⟨rfl, noneWritten_refl F⟩

private theorem folders_step {l : Label} (h : M.Dated) (hstep : M.step pb l = some M') :
    (M.writes l = none ∧ NoneWritten M.folders M'.folders) ∨
      ∃ folder id val, M.writes l = some (folder, id) ∧ id.timestamp ≠ 0 ∧
        M'.folders = M.folders.store folder (serializeID id) val := by
  cases l with
  | arrive request =>
    cases hstep
    exact Or.inl ⟨rfl, noneWritten_refl _⟩
  | run i env =>
    obtain ⟨t, ht, rfl⟩ := Model.step_run.mp hstep
    have hwrites : M.writes (.run i env) = t.writes env := by rw [Model.writes, ht, Option.bind_some]
    rw [hwrites]
    apply (folders_advanceTask pb env M.folders t).imp_right
    rintro ⟨folder, id, val, hw, hid, hfolders⟩
    exact ⟨folder, id, val, hw, h.outstanding t (List.mem_of_getElem? ht) id hid, hfolders⟩
  | restart env =>
    obtain ⟨-, rfl⟩ := Model.step_restart.mp hstep
    exact Or.inl ⟨rfl, noneWritten_reopen _⟩

private theorem exists_step_of_writes (pb : Protobuf) {l : Label} {w : String × ID}
    (hw : M.writes l = some w) : ∃ M', M.step pb l = some M' := by
  cases l with
  | arrive | restart => cases hw
  | run i env =>
    obtain ⟨t, ht, -⟩ := Option.bind_eq_some_iff.mp hw
    exact ⟨_, Model.step_run.mpr ⟨t, ht, rfl⟩⟩

private theorem covers_nil : Covers [] := fun hne ↦ absurd rfl hne

private theorem writesFit_iff_covered (pb : Protobuf) (l : Label) (h : M.Dated)
    (hcovered : M.Covered) :
    M.WritesFit l ↔ ∀ M', M.step pb l = some M' → M'.Covered := by
  constructor
  · intro hfit M' hstep x f' hf'
    rcases folders_step h hstep with ⟨-, hnone⟩ | ⟨folder, id, val, hw, hid, hfolders⟩
    · rcases hnone x f' hf' with hnil | ⟨f, hf, hsame⟩
      · rw [hnil]
        exact covers_nil
      · rw [hsame]
        exact hcovered x f hf
    · rw [hfolders] at hf'
      by_cases hx : x = folder
      · subst hx
        rw [Folders.store, Function.update_self] at hf'
        obtain ⟨f, hf, rfl⟩ := Option.map_eq_some_iff.mp hf'
        exact (covers_put_iff (h.kept x f hf) (hcovered x f hf) hid val).mpr
          (hfit (x, id) hw f hf)
      · rw [Folders.store_of_ne _ hx] at hf'
        exact hcovered x f' hf'
  · rintro hall ⟨folder, id⟩ hw f hf
    obtain ⟨M', hstep⟩ := exists_step_of_writes pb hw
    rcases folders_step h hstep with ⟨hnone, -⟩ | ⟨folder', id', val, hw', hid, hfolders⟩
    · cases hnone.symm.trans hw
    · cases hw'.symm.trans hw
      have hf' := Folders.store_self hf (serializeID id) val
      rw [← hfolders] at hf'
      exact (covers_put_iff (h.kept folder f hf) (hcovered folder f hf) hid val).mp
        (hall M' hstep folder _ hf')

/-- From a start on an empty disk, whatever requests run side by side: in every state reached the
range read of each folder is from the smallest number of all its records to the largest exactly
if every identifier written on the way fits the records of its folder. -/
theorem covered_iff_writesFit (pb : Protobuf) {impl : Impl} {env : Env} {cfg : Config}
    {client : DbClient} (hstart : start impl env cfg RocksDB.empty = .ok () client)
    {labels : List Label} (hlabels : ∀ l ∈ labels, l.Durable) :
    (∀ ls s, ls <+: labels → run (System.step pb) (.started client) ls = some s → s.Covered) ↔
      Along (System.step pb) System.WritesFit (.started client) labels := by
  have hsound := sound_started (same_dir_of_start_empty hstart) hstart
  have hview (x : String) (f : Folder) (hf : client.view x = some f) : f.records = [] := by
    rw [view_start_empty hstart hf]
  have hdated : (System.started client).model.Dated := by
    refine ⟨fun x f hf ↦ ?_, fun t ht ↦ by cases ht⟩
    rw [hview x f hf]
    exact OrderedStore.kept_nil
  have hcovered : (System.started client).model.Covered := by
    intro x f hf
    rw [hview x f hf]
    exact covers_nil
  rw [along_simulates writesFit_iff hsound hlabels,
    along_iff_reached (fun _ _ _ hstep ↦ dated_step hstep)
      (fun _ l h hc ↦ writesFit_iff_covered pb l h hc) hdated hcovered]
  apply forall_congr'
  intro ls
  constructor
  · intro h M hls hrun
    obtain ⟨hmodel, hkept⟩ := run_simulates hsound pb fun l hl ↦ hlabels l (hls.subset hl)
    rw [hrun] at hmodel
    obtain ⟨s, hs, rfl⟩ := Option.map_eq_some_iff.mp hmodel
    exact (covered_iff (hkept s hs)).mp (h s hls hs)
  · intro h s hls hrun
    obtain ⟨hmodel, hkept⟩ := run_simulates hsound pb fun l hl ↦ hlabels l (hls.subset hl)
    rw [hrun, Option.map_some] at hmodel
    exact (covered_iff (hkept s hrun)).mpr (h s.model hls hmodel.symm)

/-- A save and a put side by side, with growing timestamps; the later record is written first. -/
theorem covered_side_by_side :
    ∃ client, start .localDBClient { now := 1, now_ne_zero := by decide } {} RocksDB.empty =
        .ok () client ∧
      ∀ ls s, ls <+:
          [.arrive (.save { folder := defaultName, data := [1], timestamp := 5 }),
            .arrive (.post { folder := defaultName, data := [2], timestamp := 7 }),
            .run 0 { now := 2, now_ne_zero := by decide },
            .run 0 { now := 2, now_ne_zero := by decide },
            .run 1 { now := 2, now_ne_zero := by decide },
            .run 1 { now := 2, now_ne_zero := by decide },
            .run 1 { now := 2, now_ne_zero := by decide },
            .run 0 { now := 2, now_ne_zero := by decide }] →
        run (System.step Wire.wire) (.started client) ls = some s → s.Covered := by
  obtain ⟨client, hstart⟩ := start_of_empty .localDBClient {}
    { now := 1, now_ne_zero := by decide } rfl rfl rfl rfl
  refine ⟨client, hstart, (covered_iff_writesFit Wire.wire hstart (by decide)).mpr ?_⟩
  exact forall_of_final
    (P := fun c ↦ Along (System.step Wire.wire) System.WritesFit (.started c) _)
    (by decide +kernel) client hstart

/-- A save with timestamp ten and then one with timestamp five: the first record in the order of
the keys has number one, and number zero comes last. -/
theorem range_misses_number :
    ¬ ∀ (pb : Protobuf) (impl : Impl) (env : Env) (cfg : Config) (client : DbClient)
      (labels : List Label), start impl env cfg RocksDB.empty = .ok () client →
      (∀ l ∈ labels, l.Durable) → ∀ ls s, ls <+: labels →
      run (System.step pb) (.started client) ls = some s → s.Covered := by
  intro hall
  let env : Env := { now := 1, now_ne_zero := by decide }
  let labels : List Label :=
    [.arrive (.save { folder := defaultName, data := [1], timestamp := 10 }), .run 0 env,
      .run 0 env, .run 0 env, .arrive (.save { folder := defaultName, data := [2], timestamp := 5 }),
      .run 0 env, .run 0 env, .run 0 env]
  obtain ⟨client, hstart⟩ := start_of_empty .localDBClient {} env rfl rfl rfl rfl
  obtain ⟨s, hrun, f, hf, e, he, hlt⟩ := forall_of_final (P := fun c ↦
    ∃ s ∈ run (System.step Wire.wire) (.started c) labels, ∃ f ∈ s.client.view defaultName,
      ∃ e ∈ f.records, entryUnique e < (uniqueRange f.records).from')
    (by decide +kernel) client hstart
  have hdurable : ∀ l ∈ labels, l.Durable := by decide
  have hcovered := hall Wire.wire _ env {} client labels hstart hdurable labels s
    (List.prefix_refl labels) hrun
  have hsound := (run_simulates (sound_started (same_dir_of_start_empty hstart) hstart) Wire.wire
    hdurable).2 s hrun
  obtain ⟨hsmallest, -⟩ := (covered_iff hsound).mp hcovered defaultName f hf
    (List.ne_nil_of_mem he)
  exact absurd (hsmallest.le e he trivial) (UInt64.not_le.mpr hlt)

end TimeMachine.Concurrent
