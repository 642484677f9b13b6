import TimeMachine.Concurrent.Model
import TimeMachine.Store.Wire

/-!
# Handles of closed instances

A handle belongs to the instance that was open when it was obtained, and creating a
folder closes that instance. A request that holds a handle at that moment keeps it, and
its next use of it is of a closed database: nothing takes the handle from it.
-/

namespace TimeMachine.Concurrent
open TimeMachine.Base TimeMachine.Base.StateError TimeMachine.Store TimeMachine.Client
open TimeMachine.Client.DbClient

/-- A handle the step uses is one of the open instance. -/
def System.UsesLive (s : System) : Label → Prop
  | .run i _ => ∀ t ∈ s.threads[i]?, ∀ cf ∈ t.uses, live s.client.db cf = true
  | _ => True

/-- If the step closes the open instance, no request holds a handle. -/
def System.HoldsNone (s : System) (l : Label) : Prop :=
  s.Reopens l → ∀ t ∈ s.threads, t.handle = none

/-- The same of the model: a handle the step uses is live. -/
def Model.UsesLive (M : Model) : Label → Prop
  | .run i _ => ∀ t ∈ M.tasks[i]?, ∀ live ∈ t.uses, live = true
  | _ => True

/-- The same of the model: if the step closes the open instance, no request holds a handle. -/
def Model.HoldsNone (M : Model) (l : Label) : Prop :=
  M.Reopens l → ∀ t ∈ M.tasks, t.handle = none

private theorem usesLive_iff (s : System) (l : Label) : s.UsesLive l ↔ s.model.UsesLive l := by
  cases l with
  | arrive => exact Iff.rfl
  | restart => exact Iff.rfl
  | run i env => simp [System.UsesLive, Model.UsesLive, System.model]

private theorem holdsNone_iff (s : System) (l : Label) :
    s.HoldsNone l ↔ s.model.HoldsNone l := by
  simp [System.HoldsNone, Model.HoldsNone, reopens_iff, System.model]

instance System.decidableUsesLive (s : System) : ∀ l, Decidable (s.UsesLive l)
  | .arrive _ => isTrue trivial
  | .run i _ => inferInstanceAs
      (Decidable (∀ t ∈ s.threads[i]?, ∀ cf ∈ t.uses, live s.client.db cf = true))
  | .restart _ => isTrue trivial

instance System.decidableHoldsNone (s : System) (l : Label) : Decidable (s.HoldsNone l) :=
  inferInstanceAs (Decidable (s.Reopens l → ∀ t ∈ s.threads, t.handle = none))

variable {pb : Protobuf} {env : Env} {M M' : Model}

/-- Every handle held is live. -/
def Model.AllLive (M : Model) : Prop := ∀ t ∈ M.tasks, ∀ b ∈ t.handle, b = true

/-- A handle of a closed instance is held. -/
def Model.Stale (M : Model) : Prop := ∃ t ∈ M.tasks, t.handle = some false

/-- What is used is held. -/
theorem Thread.handle_of_uses {H : Type} {t : Thread H} {cf : H} (h : t.uses = some cf) :
    t.handle = some cf := by
  cases t <;> first | exact h | cases h

/-- Expiring a task leaves its handle, if it has one, without an instance. -/
@[simp] theorem Thread.handle_expire (t : Task) :
    t.expire.handle = t.handle.map (fun _ ↦ false) := Thread.handle_map _ _

private theorem handle_advanceTask {F : Folders} {t t' : Task} (hlive : ∀ b ∈ t.handle, b = true)
    (hcreates : t.creates F = true → t.handle = none)
    (ht' : (advanceTask pb env F t).task = some t') : ∀ b ∈ t'.handle, b = true := by
  rintro b hb
  cases t with
  | saving request | numbered request id =>
    cases ht'
    cases hb
    rfl
  | holding request live =>
    obtain rfl : live = true := hlive _ rfl
    have hsome : (F request.folder).isSome := by
      by_contra hnone
      cases hcreates (by simpa [Thread.creates, Thread.opens] using hnone)
    cases ht'
    cases hb
    rw [hsome, Bool.and_true]
  | posting request =>
    cases ht'
    cases hb
  | writing request id live => cases ht'
  | reading folder call rest =>
    simp only [advanceTask] at ht'
    split at ht'
    · cases ht'
      cases hb
      rfl
    · cases ht'
  | calling folder live call rest =>
    cases rest with
    | nil => cases ht'
    | cons next rest =>
      cases ht'
      cases hb
      exact hlive b rfl

private theorem allLive_step {l : Label} (hstep : M.step pb l = some M') (hl : M.HoldsNone l)
    (hM : M.AllLive) : M'.AllLive := by
  intro t ht
  cases l with
  | arrive request =>
    cases hstep
    rcases List.mem_append.mp ht with ht | ht
    · exact hM t ht
    · rw [List.mem_singleton.mp ht]
      cases request with
      | save | post | read => rintro b ⟨⟩
  | run i env =>
    obtain ⟨u, hu, rfl⟩ := Model.step_run.mp hstep
    have hmem := List.mem_of_getElem? hu
    rcases List.mem_append.mp ((Model.tasks_perm hu _ _).mem_iff.mp ht) with ht | ht
    · exact handle_advanceTask (hM u hmem) (fun hc ↦ hl ⟨u, hu, hc⟩ u hmem)
        (Option.mem_toList.mp ht)
    · cases hc : u.creates M.folders with
      | false =>
        rw [hc] at ht
        exact hM t (List.mem_of_mem_eraseIdx ht)
      | true =>
        rw [hc] at ht
        obtain ⟨v, hv, rfl⟩ := List.mem_map.mp ht
        rw [Thread.handle_expire, hl ⟨u, hu, hc⟩ v (List.mem_of_mem_eraseIdx hv)]
        rintro b ⟨⟩
  | restart env =>
    obtain ⟨hnil, rfl⟩ := Model.step_restart.mp hstep
    simp only [hnil, List.not_mem_nil] at ht

variable (pb env) in
private theorem handle_advanceTask_stale {F : Folders} {t : Task} {b : Bool}
    (ht : t.handle = some b) (hb : b = false ∨ t.creates F = true)
    (huses : ∀ live ∈ t.uses, live = true) :
    ∃ t', (advanceTask pb env F t).task = some t' ∧ t'.handle = some false := by
  cases t with
  | saving | posting | numbered | reading => cases ht
  | holding request live =>
    cases ht
    refine ⟨_, rfl, ?_⟩
    rcases hb with rfl | hcreates
    · rfl
    · have hnone : (F request.folder).isSome = false := by
        simpa [Thread.creates, Thread.opens] using hcreates
      simp [Thread.handle, hnone]
  | writing request id live =>
    cases ht
    cases huses b rfl
    simp [Thread.creates, Thread.opens] at hb
  | calling folder live call rest =>
    cases ht
    cases huses b rfl
    simp [Thread.creates, Thread.opens] at hb

private theorem stale_of_others {i : Nat} {u t : Task} (hu : M.tasks[i]? = some u)
    (ht : t ∈ M.tasks.eraseIdx i) {b : Bool} (hb : t.handle = some b) {creates : Bool}
    (h : b = false ∨ creates = true) (o : Option Task) :
    ∃ t' ∈ Pool.replace (expireIf creates M.tasks) i o, t'.handle = some false := by
  have hperm := Model.tasks_perm hu creates o
  cases creates with
  | false =>
    rcases h with rfl | h
    · exact ⟨t, hperm.mem_iff.mpr (List.mem_append_right _ ht), hb⟩
    · cases h
  | true =>
    refine ⟨t.expire, hperm.mem_iff.mpr (List.mem_append_right _ (List.mem_map_of_mem ht)), ?_⟩
    rw [Thread.handle_expire, hb, Option.map_some]

private theorem stale_step_run {i : Nat} (hstep : M.step pb (.run i env) = some M')
    (huses : M.UsesLive (.run i env)) {u t : Task} (hu : M.tasks[i]? = some u)
    (ht : t ∈ M.tasks) {b : Bool} (hb : t.handle = some b)
    (h : b = false ∨ u.creates M.folders = true) : M'.Stale := by
  obtain ⟨v, hv, rfl⟩ := Model.step_run.mp hstep
  obtain rfl : u = v := Option.some.inj (hu.symm.trans hv)
  rcases List.mem_cons.mp ((Pool.perm_cons_of_getElem? hu).mem_iff.mp ht) with rfl | ht
  · obtain ⟨t', ht', hstale⟩ := handle_advanceTask_stale pb env hb h (huses t hu)
    refine ⟨t', (Model.tasks_perm hu _ _).mem_iff.mpr (List.mem_append_left _ ?_), hstale⟩
    rw [ht']
    exact List.mem_singleton_self t'
  · exact stale_of_others hu ht hb h _

private theorem stale_of_reopens {l : Label} (hstep : M.step pb l = some M') (huses : M.UsesLive l)
    (hl : ¬ M.HoldsNone l) : M'.Stale := by
  simp only [Model.HoldsNone, Classical.not_imp, not_forall] at hl
  obtain ⟨hreopens, t, ht, hholds⟩ := hl
  obtain ⟨b, hb⟩ := Option.ne_none_iff_exists'.mp hholds
  cases l with
  | arrive request => cases hreopens
  | run i env =>
    obtain ⟨u, hu, hcreates⟩ := hreopens
    exact stale_step_run hstep huses hu ht hb (Or.inr hcreates)
  | restart env =>
    obtain ⟨hnil, -⟩ := Model.step_restart.mp hstep
    rw [hnil] at ht
    cases ht

private theorem stale_step {l : Label} (hstep : M.step pb l = some M') (huses : M.UsesLive l)
    (hM : M.Stale) : M'.Stale := by
  obtain ⟨t, ht, hb⟩ := hM
  cases l with
  | arrive request =>
    cases hstep
    exact ⟨t, List.mem_append_left _ ht, hb⟩
  | run i env =>
    obtain ⟨u, hu, -⟩ := Model.step_run.mp hstep
    exact stale_step_run hstep huses hu ht hb (Or.inl rfl)
  | restart env =>
    obtain ⟨hnil, -⟩ := Model.step_restart.mp hstep
    rw [hnil] at ht
    cases ht

private theorem usesLive_of_allLive (hM : M.AllLive) (l : Label) : M.UsesLive l := by
  cases l with
  | arrive | restart => trivial
  | run i env =>
    exact fun t ht b hb ↦ hM t (List.mem_of_getElem? ht) b (Thread.handle_of_uses hb)

/-- From a start on, whatever requests run side by side, every use is of a handle of the open
instance if no request holds a handle whenever that instance is closed; and if all requests run
to their end, only then. -/
theorem uses_live_iff (pb : Protobuf) {impl : Impl} {env : Env} {cfg : Config} {rocks : RocksDB}
    {client : DbClient} (hdir : cfg.dbName = cfg.openDir impl)
    (hstart : start impl env cfg rocks = .ok () client) {labels : List Label}
    (hlabels : ∀ l ∈ labels, l.Durable) :
    (Along (System.step pb) System.HoldsNone (.started client) labels →
      Along (System.step pb) System.UsesLive (.started client) labels) ∧
    ∀ s, run (System.step pb) (.started client) labels = some s → s.threads = [] →
      Along (System.step pb) System.UsesLive (.started client) labels →
        Along (System.step pb) System.HoldsNone (.started client) labels := by
  have hsound := sound_started hdir hstart
  rw [along_simulates holdsNone_iff hsound hlabels, along_simulates usesLive_iff hsound hlabels]
  refine ⟨fun hc ↦ ?_, fun s hrun hdone huses ↦ ?_⟩
  · refine along_of_along (fun _ _ _ ↦ allLive_step)
      (fun M l _ hM ↦ usesLive_of_allLive hM l) hc ?_
    intro t ht
    cases ht
  · have hmodel := (run_simulates hsound pb hlabels).1
    rw [hrun, Option.map_some] at hmodel
    refine along_of_trap (fun _ _ _ ↦ stale_of_reopens) (fun _ _ _ ↦ stale_step) hmodel.symm
      huses ?_
    rintro ⟨t, ht, -⟩
    simp [System.model, hdone] at ht

/-- Two saves to new folders, the second one after the first. -/
theorem uses_live_in_turn :
    ∃ client, start .localDBClient { now := 1, now_ne_zero := by decide } {} RocksDB.empty =
        .ok () client ∧
      Along (System.step Wire.wire) System.UsesLive (.started client)
        [.arrive (.save { folder := "f", data := [1] }),
          .run 0 { now := 2, now_ne_zero := by decide },
          .run 0 { now := 2, now_ne_zero := by decide },
          .run 0 { now := 2, now_ne_zero := by decide },
          .arrive (.save { folder := "g", data := [2] }),
          .run 0 { now := 3, now_ne_zero := by decide },
          .run 0 { now := 3, now_ne_zero := by decide },
          .run 0 { now := 3, now_ne_zero := by decide }] := by
  obtain ⟨client, hstart⟩ := start_of_empty .localDBClient {}
    { now := 1, now_ne_zero := by decide } rfl rfl rfl rfl
  refine ⟨client, hstart, (uses_live_iff Wire.wire rfl hstart (by decide)).1 ?_⟩
  exact forall_of_final
    (P := fun c ↦ Along (System.step Wire.wire) System.HoldsNone (.started c) _)
    (by decide +kernel) client hstart

/-- A save obtains the handle of its folder, another save creates a folder, and the first one
writes through a handle of the closed instance. -/
theorem closed_instance_used :
    ¬ ∀ (pb : Protobuf) (impl : Impl) (env : Env) (cfg : Config) (rocks : RocksDB)
      (client : DbClient) (labels : List Label), cfg.dbName = cfg.openDir impl →
      start impl env cfg rocks = .ok () client → (∀ l ∈ labels, l.Durable) →
      Along (System.step pb) System.UsesLive (.started client) labels := by
  intro hall
  let env : Env := { now := 1, now_ne_zero := by decide }
  let labels : List Label :=
    [.arrive (.save { folder := "f", data := [1] }), .run 0 env,
      .arrive (.save { folder := "g", data := [2] }), .run 1 env, .run 0 env, .run 0 env]
  obtain ⟨client, hstart⟩ := start_of_empty .localDBClient {} env rfl rfl rfl rfl
  have hused : ¬ Along (System.step Wire.wire) System.UsesLive (.started client) labels :=
    forall_of_final
      (P := fun c ↦ ¬ Along (System.step Wire.wire) System.UsesLive (.started c) labels)
      (by decide +kernel) client hstart
  exact hused (hall Wire.wire _ env {} _ client labels rfl hstart (by decide))

end TimeMachine.Concurrent
