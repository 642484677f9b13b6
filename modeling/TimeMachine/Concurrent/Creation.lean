import TimeMachine.Client.Operations
import TimeMachine.Base.Pool
import TimeMachine.Store.Wire

/-!
# Racing to create a folder

`GetOrCreateColumnFamily` looks a folder up, creates it and looks it up again, each
under a lock of its own. Any number of calls take these steps side by side. A call that
finds nothing goes on to create whatever happened in between, and creating a folder a
second time is not caught: `s.OK` is a function, and the null handle is read.
-/

namespace TimeMachine.Concurrent
open TimeMachine.Base TimeMachine.Base.StateError TimeMachine.Store TimeMachine.Client
open TimeMachine.Client.DbClient

/-- A call in progress, named by the step it takes next: the first lookup, the creation, or the
second lookup; `src/DbClient.cpp:302–312`. -/
inductive Obtaining where
  | looking (name : String)
  | missed (name : String)
  | created (name : String)
  deriving DecidableEq, Repr

/-- The folder a call is about. -/
def Obtaining.name : Obtaining → String
  | looking name | missed name | created name => name

/-- The creation the next step asks RocksDB for. -/
def Obtaining.invokes : Obtaining → List String
  | missed name => [name]
  | looking _ | created _ => []

/-- One step of a call: what it does next, or what it returns. -/
def Obtaining.advance (env : Env) : Obtaining → ClientM (Obtaining ⊕ Option ColumnFamilyHandle)
  | .looking name => do
    let exists' ← getColumnFamily name
    if exists'.isSome then return .inr exists' else return .inl (.missed name)
  | .missed name => do
    let _ ← createColumnFamily env name
    return .inl (.created name)
  | .created name => do
    let exists' ← getColumnFamily name
    return .inr exists'

/-- The client with the calls in progress. The creations asked for, the calls that returned and
whether the server has crashed are recorded. -/
structure Creation where
  client : DbClient
  calls : List Obtaining := []
  invoked : List String := []
  returned : List (String × Option ColumnFamilyHandle) := []
  crashed : Bool := false

/-- A call arrives, or a call takes its next step. -/
inductive Creation.Label where
  | call (name : String)
  | run (i : Nat) (env : Env)

/-- The step relation, as a function of the label. After a crash nothing happens. -/
def Creation.step (s : Creation) : Creation.Label → Option Creation
  | .call name => if s.crashed then none else some { s with calls := s.calls ++ [.looking name] }
  | .run i env =>
    if s.crashed then none
    else
      match s.calls[i]? with
      | none => none
      | some c =>
        let invoked := s.invoked ++ c.invokes
        match (c.advance env).run s.client with
        | .ok (.inl c') client =>
          some { s with client, invoked, calls := Pool.replace s.calls i (some c') }
        | .ok (.inr cf) client =>
          some
            { s with
              client, invoked
              calls := Pool.replace s.calls i none
              returned := s.returned ++ [(c.name, cf)] }
        | .error (.exception _) client =>
          some { s with client, invoked, calls := Pool.replace s.calls i none }
        | .error .crash client => some { s with client, invoked, crashed := true }

/-- RocksDB does what the step asks of it. -/
def Creation.Label.Durable : Creation.Label → Prop
  | .call _ => True
  | .run _ env => Healthy env

/-- The handle a folder is registered with. -/
def Creation.registered (s : Creation) (name : String) : Option ColumnFamilyHandle :=
  (s.client.columnFamalies.lookup name).map (·.handle)

/-- After the step the server is up, no folder was created twice, and a call that returns does so
with the registered handle of its folder. -/
def Creation.CreatesOnce (s : Creation) (l : Creation.Label) : Prop :=
  ∀ t, s.step l = some t → t.crashed = false ∧ t.invoked.Nodup ∧
    ∀ name cf, t.returned = s.returned ++ [(name, cf)] →
      ∃ h, cf = some h ∧ h.name = name ∧ t.registered name = some h

/-- A lookup that finds nothing is made while no other call is about to create the folder. -/
def Creation.Alone (s : Creation) : Creation.Label → Prop
  | .call _ => True
  | .run i _ => ∀ name, s.calls[i]? = some (.looking name) → s.client.view name = none →
      .missed name ∉ s.calls

instance Creation.decidableAlone (s : Creation) : ∀ l, Decidable (s.Alone l)
  | .call _ => isTrue trivial
  | .run i _ => decidable_of_iff
      (∀ c ∈ s.calls[i]?, c = .looking c.name → s.client.view c.name = none →
        Obtaining.missed c.name ∉ s.calls)
      ⟨fun h name hc ↦ h (.looking name) hc rfl, fun h c hc hl ↦ h c.name (hl ▸ hc)⟩

instance Creation.Label.decidableDurable : ∀ l : Creation.Label, Decidable l.Durable
  | .call _ => isTrue trivial
  | .run _ env => inferInstanceAs (Decidable (Healthy env))

variable {s t : Creation} {c : Obtaining} {env : Env} {i : Nat} {name : String}

/-- What a step of a call does: it hits or misses, creates its folder or crashes on one that
exists, or returns what is registered. -/
inductive Moved (s : Creation) (i : Nat) : Obtaining → Creation → Prop
  | hit {name : String} {h : ColumnFamilyHandle} : h.name = name → s.registered name = some h →
      Moved s i (.looking name)
        { s with
          calls := Pool.replace s.calls i none
          returned := s.returned ++ [(name, some h)] }
  | miss {name : String} : s.client.view name = none →
      Moved s i (.looking name) { s with calls := Pool.replace s.calls i (some (.missed name)) }
  | create {name : String} {client : DbClient} : s.client.view name = none → Serves client →
      client.view = s.client.view.create name →
      Moved s i (.missed name)
        { s with
          client
          invoked := s.invoked ++ [name]
          calls := Pool.replace s.calls i (some (.created name)) }
  | crash {name : String} : (s.client.view name).isSome →
      Moved s i (.missed name) { s with invoked := s.invoked ++ [name], crashed := true }
  | found {name : String} {h : ColumnFamilyHandle} : h.name = name →
      s.registered name = some h →
      Moved s i (.created name)
        { s with
          calls := Pool.replace s.calls i none
          returned := s.returned ++ [(name, some h)] }
  | lost {name : String} : s.client.view name = none →
      Moved s i (.created name)
        { s with
          calls := Pool.replace s.calls i none
          returned := s.returned ++ [(name, none)] }

private theorem registered_of_isSome (hs : Serves s.client) {name : String}
    (h : (s.client.view name).isSome) :
    ∃ cf, s.registered name = some cf ∧ cf.name = name := by
  obtain ⟨j, d, hs⟩ := hs
  obtain ⟨e, he, hname, -⟩ := lookup_handle hs h
  exact ⟨e.handle, by rw [Creation.registered, he, Option.map_some], hname⟩

private theorem registered_of_none (hs : Serves s.client) {name : String}
    (h : s.client.view name = none) : s.registered name = none := by
  obtain ⟨j, d, hs⟩ := hs
  rw [Creation.registered, lookup_eq_none hs h, Option.map_none]

private theorem run_lookup (s : Creation) (name : String) :
    (getColumnFamily name).run s.client = .ok (s.registered name) s.client :=
  run_getColumnFamily s.client name

private theorem step_of_up (hup : s.crashed = false) (hc : s.calls[i]? = some c) :
    s.step (.run i env) =
      match (c.advance env).run s.client with
      | .ok (.inl c') client =>
        some
          { s with
            client
            invoked := s.invoked ++ c.invokes
            calls := Pool.replace s.calls i (some c') }
      | .ok (.inr cf) client =>
        some
          { s with
            client
            invoked := s.invoked ++ c.invokes
            calls := Pool.replace s.calls i none
            returned := s.returned ++ [(c.name, cf)] }
      | .error (.exception _) client =>
        some
          { s with
            client
            invoked := s.invoked ++ c.invokes
            calls := Pool.replace s.calls i none }
      | .error .crash client =>
        some { s with client, invoked := s.invoked ++ c.invokes, crashed := true } := by
  rw [Creation.step, hup, if_neg (by simp)]
  simp only [hc]

private theorem moved_of_step (hs : Serves s.client) (henv : Healthy env)
    (hup : s.crashed = false) (hc : s.calls[i]? = some c)
    (hstep : s.step (.run i env) = some t) : Moved s i c t := by
  rw [step_of_up hup hc] at hstep
  cases c with
  | looking name =>
    rw [Obtaining.advance, run_bind_of_ok (run_lookup s name), Obtaining.invokes,
      List.append_nil] at hstep
    cases hv : s.client.view name with
    | some f =>
      obtain ⟨h, hr, hname⟩ := registered_of_isSome hs (Option.isSome_of_eq_some hv)
      rw [hr] at hstep
      cases hstep
      exact .hit hname hr
    | none =>
      rw [registered_of_none hs hv] at hstep
      cases hstep
      exact .miss hv
  | missed name =>
    rw [Obtaining.advance, Obtaining.invokes] at hstep
    cases hv : s.client.view name with
    | some f =>
      have hrun := run_createColumnFamily_of_isSome hs env (Option.isSome_of_eq_some hv)
      rw [run_bind_of_error hrun] at hstep
      cases hstep
      exact .crash (Option.isSome_of_eq_some hv)
    | none =>
      obtain ⟨cf, client', hrun, hserves, hview⟩ := run_createColumnFamily_of_none hs henv hv
      rw [run_bind_of_ok hrun] at hstep
      cases hstep
      exact .create hv hserves hview
  | created name =>
    rw [Obtaining.advance, run_bind_of_ok (run_lookup s name), Obtaining.invokes,
      List.append_nil] at hstep
    cases hstep
    cases hv : s.client.view name with
    | some f =>
      obtain ⟨h, hr, hname⟩ := registered_of_isSome hs (Option.isSome_of_eq_some hv)
      rw [hr]
      exact .found hname hr
    | none =>
      rw [registered_of_none hs hv]
      exact .lost hv

private theorem step_run (hs : Serves s.client) (henv : Healthy env)
    (hstep : s.step (.run i env) = some t) :
    s.crashed = false ∧ ∃ c, s.calls[i]? = some c ∧ Moved s i c t := by
  have hup : s.crashed = false := by
    rw [Creation.step] at hstep
    split at hstep
    · cases hstep
    · next h => simpa using h
  refine ⟨hup, ?_⟩
  cases hc : s.calls[i]? with
  | none => simp [Creation.step, hup, hc] at hstep
  | some c => exact ⟨c, rfl, moved_of_step hs henv hup hc hstep⟩

/-- The server is up, each call about to create is the only one for its folder, which does not
exist yet, and every folder that was created exists. -/
structure Creation.Orderly (s : Creation) : Prop where
  serves : Serves s.client
  up : s.crashed = false
  single : ∀ name, s.calls.count (.missed name) ≤ 1
  absent : ∀ name, .missed name ∈ s.calls → s.client.view name = none
  present : ∀ name, .created name ∈ s.calls → (s.client.view name).isSome
  once : s.invoked.Nodup
  made : ∀ name ∈ s.invoked, (s.client.view name).isSome

private theorem orderly_of_calls (h : s.Orderly) {calls : List Obtaining}
    {returned : List (String × Option ColumnFamilyHandle)}
    (hsingle : ∀ name, calls.count (.missed name) ≤ 1)
    (hmissed : ∀ name, .missed name ∈ calls → s.client.view name = none)
    (hcreated : ∀ name, .created name ∈ calls → .created name ∈ s.calls) :
    Creation.Orderly { s with calls, returned } :=
  ⟨h.serves, h.up, hsingle, hmissed, fun name hn ↦ h.present name (hcreated name hn), h.once,
    h.made⟩

private theorem orderly_done (h : s.Orderly) (i : Nat)
    (returned : List (String × Option ColumnFamilyHandle)) :
    Creation.Orderly { s with calls := Pool.replace s.calls i none, returned } := by
  have hsub : (Pool.replace s.calls i none).Sublist s.calls := List.eraseIdx_sublist _ _
  exact orderly_of_calls h (fun name ↦ (hsub.count_le _).trans (h.single name))
    (fun name hn ↦ h.absent name (hsub.subset hn)) (fun name hn ↦ hsub.subset hn)

private theorem orderly_miss (h : s.Orderly) (hc : s.calls[i]? = some (.looking name))
    (hv : s.client.view name = none) (halone : .missed name ∉ s.calls) :
    Creation.Orderly { s with calls := Pool.replace s.calls i (some (.missed name)) } := by
  have hi := (List.getElem?_eq_some_iff.mp hc).1
  have hnew := Pool.replace_perm hi (some (.missed name))
  have hrest : .missed name ∉ s.calls.eraseIdx i :=
    fun hn ↦ halone (List.mem_of_mem_eraseIdx hn)
  apply orderly_of_calls h
  · intro other
    rw [hnew.count_eq, Option.toList_some, List.singleton_append, List.count_cons]
    split
    · next he =>
      cases eq_of_beq he
      rw [List.count_eq_zero_of_not_mem hrest]
    · exact ((List.eraseIdx_sublist _ _).count_le _).trans (h.single other)
  · intro other hn
    rcases List.mem_append.mp (hnew.mem_iff.mp hn) with hn | hn
    · cases List.mem_singleton.mp hn
      exact hv
    · exact h.absent other (List.mem_of_mem_eraseIdx hn)
  · intro other hn
    rcases List.mem_append.mp (hnew.mem_iff.mp hn) with hn | hn
    · cases List.mem_singleton.mp hn
    · exact List.mem_of_mem_eraseIdx hn

private theorem orderly_create (h : s.Orderly) (hc : s.calls[i]? = some (.missed name))
    {client : DbClient} (hv : s.client.view name = none) (hserves : Serves client)
    (hview : client.view = s.client.view.create name) :
    Creation.Orderly
      { s with
        client
        invoked := s.invoked ++ [name]
        calls := Pool.replace s.calls i (some (.created name)) } := by
  have hi := (List.getElem?_eq_some_iff.mp hc).1
  have hnew := Pool.replace_perm hi (some (.created name))
  have hmade : (client.view name).isSome := by
    rw [hview, Folders.create_apply, if_pos rfl]
    rfl
  have hkept : ∀ other, (s.client.view other).isSome → (client.view other).isSome := by
    intro other ho
    rw [hview, ← Folders.touch_of_none hv]
    exact Folders.isSome_touch name ho
  have hrest : .missed name ∉ s.calls.eraseIdx i := by
    have hone := h.single name
    rw [(Pool.perm_cons_of_getElem? hc).count_eq, List.count_cons_self] at hone
    apply List.count_eq_zero.mp
    omega
  refine ⟨hserves, h.up, ?_, ?_, ?_, ?_, ?_⟩
  · intro other
    rw [hnew.count_eq, Option.toList_some, List.singleton_append,
      List.count_cons_of_ne (by simp)]
    exact ((List.eraseIdx_sublist _ _).count_le _).trans (h.single other)
  · intro other hmiss
    rcases List.mem_append.mp (hnew.mem_iff.mp hmiss) with hn | hn
    · cases List.mem_singleton.mp hn
    · have hne : other ≠ name := fun he ↦ hrest (he ▸ hn)
      rw [hview, Folders.create_apply, if_neg hne, Folders.reopen,
        h.absent other (List.mem_of_mem_eraseIdx hn), Option.map_none]
  · intro other hn
    rcases List.mem_append.mp (hnew.mem_iff.mp hn) with hn | hn
    · cases List.mem_singleton.mp hn
      exact hmade
    · exact hkept other (h.present other (List.mem_of_mem_eraseIdx hn))
  · apply List.nodup_append.mpr
    refine ⟨h.once, List.nodup_singleton name, ?_⟩
    rintro other ho _ hn rfl
    have hsome := h.made other ho
    rw [List.mem_singleton.mp hn, hv] at hsome
    cases hsome
  · intro other ho
    rcases List.mem_append.mp ho with ho | ho
    · exact hkept other (h.made other ho)
    · rw [List.mem_singleton.mp ho]
      exact hmade

private theorem orderly_moved (h : s.Orderly) (hc : s.calls[i]? = some c)
    (halone : ∀ name, c = .looking name → s.client.view name = none → .missed name ∉ s.calls)
    (hmoved : Moved s i c t) :
    t.Orderly ∧ ∀ name cf, t.returned = s.returned ++ [(name, cf)] →
      ∃ h, cf = some h ∧ h.name = name ∧ t.registered name = some h := by
  have hmem := List.mem_of_getElem? hc
  cases hmoved with
  | hit hname hr | found hname hr =>
    refine ⟨orderly_done h i _, ?_⟩
    intro name cf he
    cases List.append_cancel_left he
    exact ⟨_, rfl, hname, hr⟩
  | miss hv => exact ⟨orderly_miss h hc hv (halone _ rfl hv), fun name cf he ↦ by simp at he⟩
  | create hv hserves hview =>
    exact ⟨orderly_create h hc hv hserves hview, fun name cf he ↦ by simp at he⟩
  | crash hv =>
    rw [h.absent _ hmem] at hv
    cases hv
  | lost hv =>
    have hv' := h.present _ hmem
    rw [hv] at hv'
    cases hv'

private theorem orderly_step (h : s.Orderly) {l : Creation.Label} (hl : l.Durable)
    (halone : s.Alone l) (hstep : s.step l = some t) :
    t.Orderly ∧ ∀ name cf, t.returned = s.returned ++ [(name, cf)] →
      ∃ h, cf = some h ∧ h.name = name ∧ t.registered name = some h := by
  cases l with
  | call name =>
    rw [Creation.step, if_neg (by simp [h.up])] at hstep
    cases hstep
    refine ⟨orderly_of_calls h (fun other ↦ ?_) (fun other hn ↦ ?_) (fun other hn ↦ ?_),
      fun name cf he ↦ by simp at he⟩
    · rw [List.count_append, List.count_singleton, if_neg (by simp)]
      exact h.single other
    · exact h.absent other (by simpa using hn)
    · simpa using hn
  | run i env =>
    obtain ⟨-, c, hc, hmoved⟩ := step_run h.serves hl hstep
    exact orderly_moved h hc (fun name he ↦ halone name (he ▸ hc)) hmoved

private theorem serves_step {l : Creation.Label} (hl : l.Durable) (h : Serves s.client)
    (hstep : s.step l = some t) : Serves t.client := by
  cases l with
  | call name =>
    rw [Creation.step] at hstep
    split at hstep
    · cases hstep
    · cases hstep
      exact h
  | run i env =>
    obtain ⟨-, c, -, hmoved⟩ := step_run h hl hstep
    cases hmoved with
    | create _ hserves _ => exact hserves
    | hit | miss | crash | found | lost => exact h

/-- Two calls are about to create one folder, or one is about to create a folder that exists. -/
def Creation.Doomed (s : Creation) : Prop :=
  ∃ name, 2 ≤ s.calls.count (.missed name) ∨
    (.missed name ∈ s.calls ∧ (s.client.view name).isSome)

private theorem doomed_of_not_alone {l : Creation.Label} (hs : Serves s.client) (hl : l.Durable)
    (halone : ¬ s.Alone l) (hstep : s.step l = some t) : t.Doomed := by
  cases l with
  | call name => exact absurd trivial halone
  | run i env =>
    simp only [Creation.Alone, not_forall, not_not] at halone
    obtain ⟨name, hc, hv, hmissed⟩ := halone
    obtain ⟨-, c, hc', hmoved⟩ := step_run hs hl hstep
    cases hc.symm.trans hc'
    cases hmoved with
    | hit hname hr =>
      rw [registered_of_none hs hv] at hr
      cases hr
    | miss =>
      have hi := (List.getElem?_eq_some_iff.mp hc).1
      have hle := Pool.count_le_replace hc none (.missed name)
      rw [if_neg (by simp)] at hle
      have hpos := List.count_pos_iff.mpr hmissed
      refine ⟨name, Or.inl ?_⟩
      rw [(Pool.replace_perm hi _).count_eq, Option.toList_some, List.singleton_append,
        List.count_cons_self]
      simp only [Pool.replace] at hle
      omega

private theorem doomed_step {l : Creation.Label} (hs : Serves s.client) (hl : l.Durable)
    (honce : s.CreatesOnce l) (h : s.Doomed) (hstep : s.step l = some t) : t.Doomed := by
  have hup := (honce t hstep).1
  obtain ⟨name, h⟩ := h
  refine ⟨name, ?_⟩
  simp only [← List.count_pos_iff] at h ⊢
  cases l with
  | call other =>
    rw [Creation.step] at hstep
    split at hstep
    · cases hstep
    · cases hstep
      rwa [List.count_append, List.count_singleton, if_neg (by simp), Nat.add_zero]
  | run i env =>
    obtain ⟨-, c, hc, hmoved⟩ := step_run hs hl hstep
    have hle (o : Option Obtaining) := Pool.count_le_replace hc o (.missed name)
    cases hmoved with
    | hit | found | lost =>
      have hle := hle none
      rw [if_neg (by simp), Nat.add_zero] at hle
      exact h.imp (fun h ↦ h.trans hle) (fun h ↦ ⟨h.1.trans_le hle, h.2⟩)
    | @miss other hv =>
      have hle := hle (some (.missed other))
      rw [if_neg (by simp), Nat.add_zero] at hle
      exact h.imp (fun h ↦ h.trans hle) (fun h ↦ ⟨h.1.trans_le hle, h.2⟩)
    | @create other client hv hserves hview =>
      have hle := hle (some (.created other))
      rw [hview, Folders.create_apply]
      by_cases he : name = other
      · -- the folder exists now, and the call that also wants to create it is still there
        subst he
        have htwo := h.resolve_right (fun h ↦ by simp [hv] at h)
        rw [if_pos rfl] at hle
        have hleft : 0 < (Pool.replace s.calls i (some (.created name))).count (.missed name) := by
          omega
        exact Or.inr ⟨hleft, by simp⟩
      · rw [if_neg (by simpa using fun h ↦ he h.symm), Nat.add_zero] at hle
        rw [if_neg he, Folders.reopen, Option.isSome_map]
        exact h.imp (fun h ↦ h.trans hle) (fun h ↦ ⟨h.1.trans_le hle, h.2⟩)
    | crash => cases hup

/-- A server just started, with no call in progress. -/
def Creation.started (client : DbClient) : Creation := { client }

/-- From a start on, whatever calls run side by side: no folder is created twice and every call
returns the registered handle of its folder, if no lookup misses while another call is about to
create the folder; and if all calls run to their end, only then. -/
theorem created_once_iff {impl : Impl} {env : Env} {cfg : Config} {rocks : RocksDB}
    {client : DbClient} (hdir : cfg.dbName = cfg.openDir impl)
    (hstart : start impl env cfg rocks = .ok () client) {labels : List Creation.Label}
    (hlabels : ∀ l ∈ labels, l.Durable) :
    (Along Creation.step Creation.Alone (.started client) labels →
      Along Creation.step Creation.CreatesOnce (.started client) labels) ∧
    ∀ s, run Creation.step (.started client) labels = some s → s.calls = [] →
      Along Creation.step Creation.CreatesOnce (.started client) labels →
        Along Creation.step Creation.Alone (.started client) labels := by
  obtain ⟨i, hserv⟩ := start_serving hdir hstart
  have hserves : Serves client := ⟨i, _, hserv⟩
  have hdurable : Along Creation.step (fun _ l ↦ l.Durable) (.started client) labels :=
    along_of_forall hlabels _
  refine ⟨fun halone ↦ ?_, fun s hrun hdone honce ↦ ?_⟩
  · refine along_of_along (I := Creation.Orderly)
      (fun _ _ _ hstep hc h ↦ (orderly_step h hc.2 hc.1 hstep).1) ?_ (along_and halone hdurable)
      ⟨hserves, rfl, by simp [Creation.started], by simp [Creation.started],
        by simp [Creation.started], List.nodup_nil, by simp [Creation.started]⟩
    intro s l hc h t hstep
    obtain ⟨ht, hret⟩ := orderly_step h hc.2 hc.1 hstep
    exact ⟨ht.up, ht.once, hret⟩
  · have hall : Along Creation.step
        (fun s l ↦ (s.CreatesOnce l ∧ l.Durable) ∧ Serves s.client) (.started client) labels :=
      along_of_along (I := fun s ↦ Serves s.client)
        (fun _ _ _ hstep hc h ↦ serves_step hc.2 h hstep) (fun _ _ hc h ↦ ⟨hc, h⟩)
        (along_and honce hdurable) hserves
    refine along_of_trap (B := Creation.Doomed)
      (fun _ _ _ hstep hd hc ↦ doomed_of_not_alone hd.2 hd.1.2 hc hstep)
      (fun _ _ _ hstep hd hb ↦ doomed_step hd.2 hd.1.2 hd.1.1 hb hstep) hrun hall ?_
    rintro ⟨name, h⟩
    simp [hdone] at h

/-- Two calls for one new folder, the second one after the first has created it. -/
theorem created_once_in_turn :
    ∃ client, start .localDBClient { now := 1, now_ne_zero := by decide } {} RocksDB.empty =
        .ok () client ∧
      Along Creation.step Creation.CreatesOnce (.started client)
        [.call "f", .run 0 { now := 2, now_ne_zero := by decide }, .call "g",
          .run 0 { now := 2, now_ne_zero := by decide }, .call "f",
          .run 2 { now := 2, now_ne_zero := by decide },
          .run 0 { now := 2, now_ne_zero := by decide }] := by
  obtain ⟨client, hstart⟩ := start_of_empty .localDBClient {}
    { now := 1, now_ne_zero := by decide } rfl rfl rfl rfl
  refine ⟨client, hstart, (created_once_iff rfl hstart (by decide)).1 ?_⟩
  exact forall_of_final (P := fun c ↦ Along Creation.step Creation.Alone (.started c) _)
    (by decide +kernel) client hstart

private theorem up_of_createsOnce {s t : Creation} {labels : List Creation.Label}
    (hrun : run Creation.step s labels = some t) (hs : s.crashed = false)
    (h : Along Creation.step Creation.CreatesOnce s labels) : t.crashed = false :=
  run_invariant_along (I := fun s ↦ s.crashed = false)
    (fun _ _ t hstep hc _ ↦ (hc t hstep).1) hrun h hs

/-- Two calls look for a new folder before either creates it: both ask for it to be created, and
the second one crashes the server. -/
theorem created_twice :
    ¬ ∀ (impl : Impl) (env : Env) (cfg : Config) (rocks : RocksDB) (client : DbClient)
      (labels : List Creation.Label), cfg.dbName = cfg.openDir impl →
      start impl env cfg rocks = .ok () client → (∀ l ∈ labels, l.Durable) →
      Along Creation.step Creation.CreatesOnce (.started client) labels := by
  intro hall
  let env : Env := { now := 1, now_ne_zero := by decide }
  let labels : List Creation.Label :=
    [.call "f", .call "f", .run 0 env, .run 1 env, .run 0 env, .run 1 env]
  obtain ⟨client, hstart⟩ := start_of_empty .localDBClient {} env rfl rfl rfl rfl
  obtain ⟨s, hrun, hinvoked, hcrashed⟩ := forall_of_final (P := fun c ↦
    ∃ s ∈ run Creation.step (.started c) labels, s.invoked = ["f", "f"] ∧ s.crashed = true)
    (by decide +kernel) client hstart
  have hup := up_of_createsOnce hrun rfl (hall _ env {} _ client labels rfl hstart (by decide))
  rw [hup] at hcrashed
  cases hcrashed

end TimeMachine.Concurrent
