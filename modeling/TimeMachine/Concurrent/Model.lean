import TimeMachine.Concurrent.Requests
import TimeMachine.Base.Transition

/-!
# The folders under requests side by side

The same system with nothing left of the client but its folders, and of a handle but
whether it is one of the open instance. Making sure of a folder that does not exist
opens the database again, which sets all counters and closes the instance of every
handle held. Each step of the server is a step of this model.
-/

namespace TimeMachine.Concurrent
open TimeMachine.Base TimeMachine.Base.StateError TimeMachine.Store TimeMachine.Client
open TimeMachine.Server TimeMachine.Client.DbClient

/-- A thread with another notion of handle. -/
def Thread.map {H K : Type} (f : H → K) : Thread H → Thread K
  | saving request => .saving request
  | holding request cf => .holding request (f cf)
  | posting request => .posting request
  | numbered request id => .numbered request id
  | writing request id cf => .writing request id (f cf)
  | reading folder call rest => .reading folder call rest
  | calling folder cf call rest => .calling folder (f cf) call rest

section Map
variable {H K L : Type} (f : H → K) (t : Thread H)

/-- It is about the same folder. -/
@[simp] theorem Thread.folder_map : (t.map f).folder = t.folder := by cases t <;> rfl
/-- It has generated the same identifier. -/
@[simp] theorem Thread.id_map : (t.map f).id = t.id := by cases t <;> rfl
/-- It saves the same. -/
@[simp] theorem Thread.request_map : (t.map f).request = t.request := by cases t <;> rfl
/-- It makes sure of the same folder. -/
@[simp] theorem Thread.opens_map : (t.map f).opens = t.opens := by cases t <;> rfl
/-- It holds the other notion of its handle. -/
@[simp] theorem Thread.handle_map : (t.map f).handle = t.handle.map f := by cases t <;> rfl
/-- It uses the other notion of its handle. -/
@[simp] theorem Thread.uses_map : (t.map f).uses = t.uses.map f := by cases t <;> rfl

/-- Two changes of the notion of handle are one. -/
theorem Thread.map_map (g : K → L) : (t.map f).map g = t.map (g ∘ f) := by cases t <;> rfl

end Map

/-- A request of the model: a handle is live or not. -/
abbrev Task := Thread Bool

/-- The task once the open instance was closed. -/
def Thread.expire (t : Task) : Task := t.map (fun _ ↦ false)

/-- The tasks once the open instance was closed, if it was. -/
def expireIf : Bool → List Task → List Task
  | true, tasks => tasks.map Thread.expire
  | false, tasks => tasks

/-- The next step makes sure of a folder that does not exist. -/
def Thread.creates {H : Type} (t : Thread H) (F : Folders) : Bool :=
  match t.opens with
  | some folder => (F folder).isNone
  | none => false

/-- What a step of a task leaves. -/
structure Advance where
  folders : Folders
  task : Option Task := none
  issued : List (String × ID) := []
  finished : List Saved := []

/-- The folder a task numbers from. -/
def numbering (F : Folders) (folder : String) : Folder := (F.touch folder folder).getD ⟨[], 0⟩

/-- One step of a task. -/
def advanceTask (pb : Protobuf) (env : Env) (F : Folders) : Task → Advance
  | .saving request =>
    { folders := F.touch request.folder, task := some (.holding request true) }
  | .holding request live =>
    let id := request.nextID env (numbering F request.folder)
    { folders := (F.touch request.folder).issue request.folder
      task := some (.writing request id (live && (F request.folder).isSome))
      issued := [(request.folder, id)] }
  | .posting request =>
    let id := request.nextID env (numbering F request.folder)
    { folders := (F.touch request.folder).issue request.folder
      task := some (.numbered request id)
      issued := [(request.folder, id)] }
  | .numbered request id =>
    { folders := F.touch request.folder, task := some (.writing request id true) }
  | .writing request id _ =>
    { folders :=
        if env.put.isOk then
          F.store request.folder (serializeID id) (pb.serializeAsString (request.message id))
        else F
      finished := [{ request, id, status := env.put }] }
  | .reading folder call rest =>
    { folders := F
      task := if (F folder).isSome then some (.calling folder true call rest) else none }
  | .calling folder live _ rest =>
    { folders := F
      task := match rest with
        | [] => none
        | call :: rest => some (.calling folder live call rest) }

/-- The folders with the requests in progress. -/
structure Model where
  folders : Folders
  tasks : List Task := []
  issued : List (String × ID) := []
  finished : List Saved := []

/-- The step of the model. -/
def Model.step (pb : Protobuf) (M : Model) : Label → Option Model
  | .arrive request => some { M with tasks := M.tasks ++ [request.thread] }
  | .run i env =>
    match M.tasks[i]? with
    | none => none
    | some t =>
      let p := advanceTask pb env M.folders t
      some
        { folders := p.folders
          tasks := Pool.replace (expireIf (t.creates M.folders) M.tasks) i p.task
          issued := M.issued ++ p.issued
          finished := M.finished ++ p.finished }
  | .restart _ => if M.tasks = [] then some { M with folders := M.folders.reopen } else none

/-- The step closes the open instance. -/
def Model.Reopens (M : Model) : Label → Prop
  | .arrive _ => False
  | .run i _ => ∃ t, M.tasks[i]? = some t ∧ t.creates M.folders = true
  | .restart _ => True

instance Model.decidableReopens (M : Model) : ∀ l, Decidable (M.Reopens l)
  | .arrive _ => isFalse not_false
  | .run i _ => inferInstanceAs (Decidable (∃ t, t ∈ M.tasks[i]? ∧ t.creates M.folders = true))
  | .restart _ => isTrue trivial

section Step
variable {pb : Protobuf} {M M' : Model}

/-- What the step of a task leaves. -/
theorem Model.step_run {i : Nat} {env : Env} :
    M.step pb (.run i env) = some M' ↔ ∃ t, M.tasks[i]? = some t ∧
      M' =
        { folders := (advanceTask pb env M.folders t).folders
          tasks := Pool.replace (expireIf (t.creates M.folders) M.tasks) i
            (advanceTask pb env M.folders t).task
          issued := M.issued ++ (advanceTask pb env M.folders t).issued
          finished := M.finished ++ (advanceTask pb env M.folders t).finished } := by
  rw [Model.step]
  cases M.tasks[i]? with
  | none => simp
  | some t => simp [eq_comm]

/-- A restart waits for all requests. -/
theorem Model.step_restart {env : Env} :
    M.step pb (.restart env) = some M' ↔
      M.tasks = [] ∧ M' = { M with folders := M.folders.reopen } := by
  rw [Model.step]
  split
  · next h => simp [h, eq_comm]
  · next h => simp [h]

private theorem eraseIdx_expireIf (creates : Bool) (tasks : List Task) (i : Nat) :
    (expireIf creates tasks).eraseIdx i = expireIf creates (tasks.eraseIdx i) := by
  cases creates with
  | false => rfl
  | true => exact List.eraseIdx_map _ _ _

/-- After the step of a task the requests are what became of it and the others. -/
theorem Model.tasks_perm {i : Nat} {t : Task} (ht : M.tasks[i]? = some t) (creates : Bool)
    (o : Option Task) :
    (Pool.replace (expireIf creates M.tasks) i o).Perm
      (o.toList ++ expireIf creates (M.tasks.eraseIdx i)) := by
  rw [← eraseIdx_expireIf]
  refine Pool.replace_perm ?_ o
  have hi := (List.getElem?_eq_some_iff.mp ht).1
  cases creates with
  | false => exact hi
  | true => rwa [expireIf, List.length_map]

end Step

/-! ### The server as a model -/

/-- Whether a handle is one of the open instance. -/
def live (db : Option Nat) : Option ColumnFamilyHandle → Bool
  | some cf => db = some cf.db
  | none => false

/-- The model a server implements. -/
def System.model (s : System) : Model :=
  { folders := s.client.view
    tasks := s.threads.map (Thread.map (live s.client.db))
    issued := s.issued
    finished := s.finished }

/-- A step closes the open instance if it does so in the model. -/
theorem reopens_iff (s : System) (l : Label) : s.Reopens l ↔ s.model.Reopens l := by
  cases l with
  | arrive => exact Iff.rfl
  | restart => exact Iff.rfl
  | run i env =>
    simp only [System.Reopens, Model.Reopens, System.model, List.getElem?_map,
      Option.map_eq_some_iff, Thread.creates]
    constructor
    · rintro ⟨t, folder, ht, hopens, hnone⟩
      exact ⟨_, ⟨t, ht, rfl⟩, by simp [hopens, hnone]⟩
    · rintro ⟨-, ⟨t, ht, rfl⟩, hcreates⟩
      rw [Thread.opens_map] at hcreates
      cases hopens : t.opens with
      | none => simp [hopens] at hcreates
      | some folder => exact ⟨t, folder, ht, hopens, by simpa [hopens] using hcreates⟩

instance System.decidableReopens (s : System) (l : Label) : Decidable (s.Reopens l) :=
  decidable_of_iff _ (reopens_iff s l).symm

/-- What a request keeps is about its own folder: its handle is named after it and was handed
out already, and the folder exists once the request has obtained or numbered anything. -/
structure Settled (client : DbClient) (t : Thread (Option ColumnFamilyHandle)) : Prop where
  handle : ∀ cf, t.handle = some cf →
    ∃ h, cf = some h ∧ h.name = t.folder ∧ h.db < client.rocks.nextDb
  folder : t.handle ≠ none ∨ t.id ≠ none → (client.view t.folder).isSome

/-- A server between two steps: its client serves and its requests are settled. -/
structure System.Sound (s : System) : Prop where
  serves : Serves s.client
  settled : ∀ t ∈ s.threads, Settled s.client t

variable {pb : Protobuf} {env : Env} {client : DbClient}

/-- What a step of a settled request does, next to the step of its task. -/
structure Simulated (pb : Protobuf) (env : Env) (client : DbClient)
    (t : Thread (Option ColumnFamilyHandle)) (p : Progress) (client' : DbClient) : Prop where
  serves : Serves client'
  folders : client'.view = (advanceTask pb env client.view (t.map (live client.db))).folders
  task : p.thread.map (Thread.map (live client'.db)) =
    (advanceTask pb env client.view (t.map (live client.db))).task
  issued : p.issued = (advanceTask pb env client.view (t.map (live client.db))).issued
  finished : p.finished = (advanceTask pb env client.view (t.map (live client.db))).finished
  settled : ∀ t', p.thread = some t' → Settled client' t'
  kept : ∀ name, (client.view name).isSome → (client'.view name).isSome
  next : client.rocks.nextDb ≤ client'.rocks.nextDb
  same : t.creates client.view = false → client'.db = client.db
  fresh : t.creates client.view = true → client'.db = some client.rocks.nextDb

/-- What making sure of a folder leaves: a client that serves, with the folder and all there was,
and another open instance exactly if the folder was created. -/
structure Ensured (client : DbClient) (folder : String) (client' : DbClient) : Prop where
  serves : Serves client'
  kept : ∀ name, (client.view name).isSome → (client'.view name).isSome
  there : (client'.view folder).isSome
  next : client.rocks.nextDb ≤ client'.rocks.nextDb
  same : (client.view folder).isNone = false → client'.db = client.db
  fresh : (client.view folder).isNone = true → client'.db = some client.rocks.nextDb

private theorem live_of_db {cf : ColumnFamilyHandle} (h : client.db = some cf.db) :
    live client.db (some cf) = true := by
  simp [live, h]

private theorem simulated_obtain (hs : Serves client) (henv : Healthy env) (folder : String) :
    ∃ cf client', (getOrCreateColumnFamily env folder).run client = .ok (some cf) client' ∧
      Ensured client folder client' ∧ client'.view = client.view.touch folder ∧
      cf.name = folder ∧ live client'.db (some cf) = true ∧ cf.db < client'.rocks.nextDb := by
  obtain ⟨cf, client', hrun, hobt⟩ := run_getOrCreate hs henv folder
  refine ⟨cf, client', hrun, ⟨hobt.serves, ?_, ?_, hobt.next, ?_, ?_⟩, hobt.view, hobt.name_eq,
    live_of_db hobt.live, hobt.serves.instance_lt hobt.live⟩
  · intro name h
    rw [hobt.view]
    exact Folders.isSome_touch _ h
  · rw [hobt.view]
    exact Folders.touch_isSome _ _
  · intro h
    rw [hobt.same (by simpa using h)]
  · intro h
    rw [hobt.live, hobt.fresh (by simpa using h)]

private theorem simulated_generate (hs : Serves client) (henv : Healthy env)
    (request : SaveRequest) :
    ∃ client', (generateId env request.folder request.timestamp).run client =
        .ok (request.nextID env (numbering client.view request.folder)) client' ∧
      Ensured client request.folder client' ∧
      client'.view = (client.view.touch request.folder).issue request.folder := by
  obtain ⟨cf, r, f, client', hobt, hf, hrun, hserves, hview, hdb, hrocks, -⟩ :=
    run_generateId hs henv request.folder request.timestamp
  have hnum : numbering client.view request.folder = f := by rw [numbering, hf, Option.getD_some]
  refine ⟨client', ?_, ⟨hserves, ?_, ?_, ?_, ?_, ?_⟩, hview⟩
  · rw [hrun, hnum]
    rfl
  · intro name h
    rw [hview, Folders.isSome_issue]
    exact Folders.isSome_touch _ h
  · rw [hview, Folders.isSome_issue]
    exact Folders.touch_isSome _ _
  · rw [hrocks]
    exact hobt.next
  · intro h
    rw [hdb, hobt.same (by simpa using h)]
  · intro h
    rw [hdb, hobt.live, hobt.fresh (by simpa using h)]

private theorem settled_of_handle {t : Thread (Option ColumnFamilyHandle)}
    {h : ColumnFamilyHandle} (hh : t.handle = some (some h)) (hname : h.name = t.folder)
    (hlt : h.db < client.rocks.nextDb) (hfolder : (client.view t.folder).isSome) :
    Settled client t := by
  refine ⟨fun cf hcf ↦ ?_, fun _ ↦ hfolder⟩
  rw [hh] at hcf
  cases hcf
  exact ⟨h, rfl, hname, hlt⟩

private theorem run_current (hs : Serves client) {h : ColumnFamilyHandle}
    (hf : (client.view h.name).isSome) :
    ∃ h', (current (some h)).run client = .ok (some h') client ∧ h'.name = h.name ∧
      client.db = some h'.db := by
  by_cases hdb : client.db = some h.db
  · refine ⟨h, ?_, rfl, hdb⟩
    rw [current, run_bind_of_ok (EStateM.run_get _)]
    simp [hdb]
  · obtain ⟨i, d, hserv⟩ := hs
    obtain ⟨e, he, hname, hi⟩ := lookup_handle hserv hf
    refine ⟨e.handle, ?_, hname, by rw [hserv.instance_eq, hi]⟩
    rw [current, run_bind_of_ok (EStateM.run_get _)]
    simp [hdb, he]

private theorem Settled.exists_handle {t : Thread (Option ColumnFamilyHandle)}
    (ht : Settled client t) {cf : Option ColumnFamilyHandle} (hcf : t.handle = some cf) :
    ∃ h, cf = some h ∧ h.name = t.folder ∧ h.db < client.rocks.nextDb ∧
      (client.view t.folder).isSome := by
  obtain ⟨h, rfl, hname, hlt⟩ := ht.handle cf hcf
  exact ⟨h, rfl, hname, hlt, ht.folder (Or.inl (by rw [hcf]; simp))⟩

private theorem advance_obtain (hs : Serves client) (henv : Healthy env) (pb : Protobuf)
    {t : Thread (Option ColumnFamilyHandle)}
    (next : Option ColumnFamilyHandle → Thread (Option ColumnFamilyHandle))
    (hadvance : advance pb env t = do
      let cf ← getOrCreateColumnFamily env t.folder
      return { thread := some (next cf) })
    (hopens : t.opens = some t.folder)
    (hnext : ∀ cf, (next cf).handle = some cf ∧ (next cf).folder = t.folder)
    (htask : ∀ b : Option ColumnFamilyHandle → Bool, ∀ cf, b cf = true →
      advanceTask pb env client.view (t.map (live client.db)) =
        { folders := client.view.touch t.folder, task := some ((next cf).map b) }) :
    ∃ p client', (advance pb env t).run client = .ok p client' ∧
      Simulated pb env client t p client' := by
  obtain ⟨cf, client', hrun, hens, hview, hname, hlive, hlt⟩ := simulated_obtain hs henv t.folder
  have htask := htask (live client'.db) (some cf) hlive
  have hcreates : t.creates client.view = (client.view t.folder).isNone := by
    rw [Thread.creates, hopens]
  refine ⟨_, client', by rw [hadvance, run_bind_of_ok hrun, EStateM.run_pure], hens.serves, ?_, ?_,
    ?_, ?_, ?_, hens.kept, hens.next, ?_, ?_⟩
  · rw [htask, hview]
  · rw [htask]
    rfl
  · rw [htask]
  · rw [htask]
  · rintro t' ⟨rfl⟩
    obtain ⟨hhandle, hfolder⟩ := hnext (some cf)
    refine settled_of_handle hhandle (by rw [hname, hfolder]) hlt ?_
    rw [hfolder]
    exact hens.there
  · rw [hcreates]
    exact hens.same
  · rw [hcreates]
    exact hens.fresh

private theorem simulated_read (hs : Serves client) {t : Thread (Option ColumnFamilyHandle)}
    (hopens : t.opens = none) {o : Option (Thread (Option ColumnFamilyHandle))}
    (hadvance : advanceTask pb env client.view (t.map (live client.db)) =
      { folders := client.view, task := o.map (Thread.map (live client.db)) })
    (hsettled : ∀ t', o = some t' → Settled client t') :
    Simulated pb env client t { thread := o } client := by
  have hcreates : t.creates client.view = false := by rw [Thread.creates, hopens]
  refine ⟨hs, ?_, ?_, ?_, ?_, hsettled, fun _ hn ↦ hn, Nat.le_refl _, fun _ ↦ rfl, ?_⟩
  · rw [hadvance]
  · rw [hadvance]
  · rw [hadvance]
  · rw [hadvance]
  · rw [hcreates]
    rintro ⟨⟩

private theorem advance_holding (hs : Serves client) (henv : Healthy env) (pb : Protobuf)
    {request : SaveRequest} {cf : Option ColumnFamilyHandle}
    (ht : Settled client (.holding request cf)) :
    ∃ p client', (advance pb env (.holding request cf)).run client = .ok p client' ∧
      Simulated pb env client (.holding request cf) p client' := by
  obtain ⟨h, rfl, hname, hlt, hsome⟩ := ht.exists_handle rfl
  have hsome : (client.view request.folder).isSome = true := hsome
  have hnone : (client.view request.folder).isNone = false := by simpa using hsome
  obtain ⟨client', hrun, hens, hview⟩ := simulated_generate hs henv request
  refine ⟨_, client', by rw [advance, run_bind_of_ok hrun, EStateM.run_pure], hens.serves, hview,
    ?_, rfl, rfl, ?_, hens.kept, hens.next, hens.same, hens.fresh⟩
  · simp only [Option.map_some, Thread.map, advanceTask, hens.same hnone, hsome, Bool.and_true]
  · rintro t' ⟨rfl⟩
    exact settled_of_handle rfl hname (Nat.lt_of_lt_of_le hlt hens.next) hens.there

private theorem advance_posting (hs : Serves client) (henv : Healthy env) (pb : Protobuf)
    (request : SaveRequest) :
    ∃ p client', (advance pb env (.posting request)).run client = .ok p client' ∧
      Simulated pb env client (.posting request) p client' := by
  obtain ⟨client', hrun, hens, hview⟩ := simulated_generate hs henv request
  refine ⟨_, client', by rw [advance, run_bind_of_ok hrun, EStateM.run_pure], hens.serves, hview,
    rfl, rfl, rfl, ?_, hens.kept, hens.next, hens.same, hens.fresh⟩
  rintro t' ⟨rfl⟩
  exact ⟨by rintro cf ⟨⟩, fun _ ↦ hens.there⟩

private theorem advance_writing (hs : Serves client) (env : Env) (pb : Protobuf)
    {request : SaveRequest} {id : ID} {cf : Option ColumnFamilyHandle}
    (ht : Settled client (.writing request id cf)) :
    ∃ p client', (advance pb env (.writing request id cf)).run client = .ok p client' ∧
      Simulated pb env client (.writing request id cf) p client' := by
  obtain ⟨h, rfl, hname, -, hsome⟩ := ht.exists_handle rfl
  rw [← hname] at hsome
  obtain ⟨h', hcur, hname', hdb⟩ := run_current hs hsome
  obtain ⟨client', hrun, hserves, hview, hdb', hnext, -⟩ := run_put hs hdb
    (by rwa [hname']) env.put request.wopt (serializeID id)
    (pb.serializeAsString (request.message id))
  have hfolder : h'.name = request.folder := hname'.trans hname
  refine ⟨_, client', by rw [advance, run_bind_of_ok hcur, run_bind_of_ok hrun, EStateM.run_pure],
    hserves, ?_, rfl, rfl, rfl, ?_, ?_, Nat.le_of_eq hnext.symm, fun _ ↦ hdb', ?_⟩
  · rw [hview, hfolder]
    rfl
  · rintro t' ⟨⟩
  · intro name hn
    rw [hview]
    split
    · rwa [Folders.isSome_store]
    · exact hn
  · rintro ⟨⟩

private theorem advance_reading (hs : Serves client) (env : Env) (pb : Protobuf) (folder : String)
    (call : Call) (rest : List Call) :
    ∃ p client', (advance pb env (.reading folder call rest)).run client = .ok p client' ∧
      Simulated pb env client (.reading folder call rest) p client' := by
  have hget := run_getColumnFamily client folder
  obtain ⟨i, d, hserv⟩ := hs
  by_cases hsome : (client.view folder).isSome
  · obtain ⟨e, he, hname, hdb⟩ := lookup_handle hserv hsome
    have hlive : client.db = some e.handle.db := by rw [hserv.instance_eq, hdb]
    rw [he, Option.map_some] at hget
    refine ⟨{ thread := some (.calling folder (some e.handle) call rest) }, client, ?_,
      simulated_read ⟨i, d, hserv⟩ rfl ?_ ?_⟩
    · rw [advance, run_bind_of_ok hget]
      rfl
    · simp only [Option.map_some, Thread.map, advanceTask, live_of_db hlive, hsome, if_true]
    · rintro t' ⟨rfl⟩
      refine settled_of_handle rfl hname ?_ hsome
      rw [hdb]
      exact hserv.instance_lt
  · have hnone : client.view folder = none := by simpa using hsome
    rw [lookup_eq_none hserv hnone, Option.map_none] at hget
    refine ⟨{}, client, ?_, simulated_read ⟨i, d, hserv⟩ rfl ?_ ?_⟩
    · rw [advance, run_bind_of_ok hget]
      rfl
    · simp [Thread.map, advanceTask, hnone]
    · rintro t' ⟨⟩

private theorem advance_calling (hs : Serves client) (env : Env) (pb : Protobuf) {folder : String}
    {cf : Option ColumnFamilyHandle} {call : Call} {rest : List Call}
    (ht : Settled client (.calling folder cf call rest)) :
    ∃ p client', (advance pb env (.calling folder cf call rest)).run client = .ok p client' ∧
      Simulated pb env client (.calling folder cf call rest) p client' := by
  obtain ⟨h, rfl, hname, hlt, hfolder⟩ := ht.exists_handle rfl
  have hsome := hfolder
  rw [← hname] at hsome
  obtain ⟨h', hcur, hname', hdb⟩ := run_current hs hsome
  obtain ⟨f, hf⟩ := Option.isSome_iff_exists.mp hsome
  have hderef := run_deref_of_view hs hdb (by rw [hname', hf])
  cases rest with
  | nil =>
    refine ⟨{}, client, ?_, simulated_read hs rfl rfl ?_⟩
    · rw [advance, run_bind_of_ok hcur, run_bind_of_ok hderef, EStateM.run_pure]
    · rintro t' ⟨⟩
  | cons next rest =>
    refine ⟨{ thread := some (.calling folder (some h) next rest) }, client, ?_,
      simulated_read hs rfl rfl ?_⟩
    · rw [advance, run_bind_of_ok hcur, run_bind_of_ok hderef, EStateM.run_pure]
    · rintro t' ⟨rfl⟩
      exact settled_of_handle rfl hname hlt hfolder

/-- Every step of a settled request is the step of its task. -/
theorem advance_simulated (hs : Serves client) (henv : Healthy env) (pb : Protobuf)
    {t : Thread (Option ColumnFamilyHandle)} (ht : Settled client t) :
    ∃ p client', (advance pb env t).run client = .ok p client' ∧
      Simulated pb env client t p client' := by
  cases t with
  | saving request =>
    apply advance_obtain hs henv pb (.holding request) rfl rfl (fun _ ↦ ⟨rfl, rfl⟩)
    intro b cf hb
    simp only [Thread.map, advanceTask, Thread.folder, hb]
  | holding request cf => exact advance_holding hs henv pb ht
  | posting request => exact advance_posting hs henv pb request
  | numbered request id =>
    apply advance_obtain hs henv pb (.writing request id) rfl rfl (fun _ ↦ ⟨rfl, rfl⟩)
    intro b cf hb
    simp only [Thread.map, advanceTask, Thread.folder, hb]
  | writing request id cf => exact advance_writing hs env pb ht
  | reading folder call rest => exact advance_reading hs env pb folder call rest
  | calling folder cf call rest => exact advance_calling hs env pb ht

private theorem settled_mono {client' : DbClient} {t : Thread (Option ColumnFamilyHandle)}
    (ht : Settled client t) (hkept : ∀ name, (client.view name).isSome → (client'.view name).isSome)
    (hnext : client.rocks.nextDb ≤ client'.rocks.nextDb) : Settled client' t := by
  refine ⟨fun cf hcf ↦ ?_, fun h ↦ hkept _ (ht.folder h)⟩
  obtain ⟨h, he, hname, hlt⟩ := ht.handle cf hcf
  exact ⟨h, he, hname, Nat.lt_of_lt_of_le hlt hnext⟩

private theorem map_live_eq {H : Type} {f g : H → Bool} {t : Thread H}
    (h : ∀ cf, t.handle = some cf → f cf = g cf) : t.map f = t.map g := by
  cases t with
  | holding request cf => simp only [Thread.map, h cf rfl]
  | writing request id cf => simp only [Thread.map, h cf rfl]
  | calling folder cf call rest => simp only [Thread.map, h cf rfl]
  | saving | posting | numbered | reading => rfl

private theorem map_live_threads {threads : List (Thread (Option ColumnFamilyHandle))}
    (hsettled : ∀ t ∈ threads, Settled client t) {db : Option Nat} {creates : Bool}
    (hsame : creates = false → db = client.db)
    (hfresh : creates = true → db = some client.rocks.nextDb) :
    threads.map (Thread.map (live db)) =
      expireIf creates (threads.map (Thread.map (live client.db))) := by
  cases creates with
  | false => rw [hsame rfl, expireIf]
  | true =>
    rw [expireIf, List.map_map]
    apply List.map_congr_left
    intro t ht
    rw [Function.comp_apply, Thread.expire, Thread.map_map]
    apply map_live_eq
    intro cf hcf
    obtain ⟨h, rfl, -, hlt⟩ := (hsettled t ht).handle cf hcf
    have hne : client.rocks.nextDb ≠ h.db := by omega
    simp [live, hfresh rfl, hne]

private theorem arrive_simulates {s : System} (hs : s.Sound) (pb : Protobuf) (request : Request) :
    (s.step pb (.arrive request)).map System.model = s.model.step pb (.arrive request) ∧
      ∀ s', s.step pb (.arrive request) = some s' → s'.Sound := by
  refine ⟨?_, ?_⟩
  · have hthread : (request.thread : Thread (Option ColumnFamilyHandle)).map
        (live s.client.db) = request.thread := by cases request <;> rfl
    simp [System.step, Model.step, System.model, hthread]
  · rintro s' ⟨rfl⟩
    refine ⟨hs.serves, fun t ht ↦ ?_⟩
    rcases List.mem_append.mp ht with ht | ht
    · exact hs.settled t ht
    · rw [List.mem_singleton.mp ht]
      cases request with
      | save | post | read =>
        exact ⟨by rintro cf ⟨⟩, by simp [Request.thread, Thread.handle, Thread.id]⟩

private theorem run_step_simulates {s : System} (hs : s.Sound) (pb : Protobuf) (i : Nat)
    (henv : Healthy env) :
    (s.step pb (.run i env)).map System.model = s.model.step pb (.run i env) ∧
      ∀ s', s.step pb (.run i env) = some s' → s'.Sound := by
  cases ht : s.threads[i]? with
  | none => simp [System.step, Model.step, System.model, ht]
  | some t =>
    obtain ⟨p, client', hrun, hsim⟩ :=
      advance_simulated hs.serves henv pb (hs.settled t (List.mem_of_getElem? ht))
    have hstep : s.step pb (.run i env) = some
        { client := client'
          threads := Pool.replace s.threads i p.thread
          issued := s.issued ++ p.issued
          finished := s.finished ++ p.finished } := by
      simp only [System.step, ht, hrun]
    have hcreates : (t.map (live s.client.db)).creates s.client.view =
        t.creates s.client.view := by
      simp only [Thread.creates, Thread.opens_map]
    rw [hstep]
    refine ⟨?_, ?_⟩
    · simp only [Option.map_some, System.model, Model.step, List.getElem?_map, ht]
      rw [hsim.folders, Pool.map_replace, hsim.task, hsim.issued, hsim.finished, hcreates,
        map_live_threads hs.settled hsim.same hsim.fresh]
    · rintro s' ⟨rfl⟩
      refine ⟨hsim.serves, fun t' ht' ↦ ?_⟩
      rcases Pool.mem_of_mem_replace ht' with ht' | ht'
      · exact hsim.settled t' ht'
      · exact settled_mono (hs.settled t' ht') hsim.kept hsim.next

private theorem restart_simulates {s : System} (hs : s.Sound) (pb : Protobuf)
    (henv : Healthy env) :
    (s.step pb (.restart env)).map System.model = s.model.step pb (.restart env) ∧
      ∀ s', s.step pb (.restart env) = some s' → s'.Sound := by
  by_cases hnil : s.threads = []
  · obtain ⟨client', hrun, hserves, hview, -⟩ := run_restart hs.serves henv
    have hstep : s.step pb (.restart env) = some { s with client := client' } := by
      simp only [System.step, hnil, if_true, hrun]
    rw [hstep]
    refine ⟨?_, ?_⟩
    · simp [System.model, Model.step, hnil, hview]
    · rintro s' ⟨rfl⟩
      refine ⟨hserves, fun t ht ↦ ?_⟩
      rw [hnil] at ht
      cases ht
  · simp [System.step, Model.step, System.model, hnil]

/-- Every step of a sound server is the step of its model, and leaves a sound server. -/
theorem step_simulates {s : System} (hs : s.Sound) (pb : Protobuf) {l : Label} (hl : l.Durable) :
    (s.step pb l).map System.model = s.model.step pb l ∧
      ∀ s', s.step pb l = some s' → s'.Sound := by
  cases l with
  | arrive request => exact arrive_simulates hs pb request
  | run i env => exact run_step_simulates hs pb i hl
  | restart env => exact restart_simulates hs pb hl

/-- Every run of a sound server is the run of its model, and ends in a sound server. -/
theorem run_simulates {s : System} (hs : s.Sound) (pb : Protobuf) {ls : List Label}
    (hls : ∀ l ∈ ls, l.Durable) :
    (run (System.step pb) s ls).map System.model = run (Model.step pb) s.model ls ∧
      ∀ s', run (System.step pb) s ls = some s' → s'.Sound :=
  run_simulation (fun _ _ hs hl ↦ step_simulates hs pb hl) hs hls

/-- A condition on the steps of a sound server that is one on the steps of its model. -/
theorem along_simulates {C : System → Label → Prop} {D : Model → Label → Prop}
    (hcond : ∀ s l, C s l ↔ D s.model l) {s : System} (hs : s.Sound) {pb : Protobuf}
    {ls : List Label} (hls : ∀ l ∈ ls, l.Durable) :
    Along (System.step pb) C s ls ↔ Along (Model.step pb) D s.model ls :=
  along_simulation (fun _ _ hs hl ↦ step_simulates hs pb hl) hcond hs hls

/-- A server just started, with no request in progress. -/
def System.started (client : DbClient) : System := { client }

/-- A server just started is sound. -/
theorem sound_started {impl : Impl} {env : Env} {cfg : Config} {rocks : RocksDB}
    (hdir : cfg.dbName = cfg.openDir impl) (h : start impl env cfg rocks = .ok () client) :
    (System.started client).Sound := by
  obtain ⟨i, hserv⟩ := start_serving hdir h
  refine ⟨⟨i, _, hserv⟩, fun t ht ↦ ?_⟩
  cases ht

end TimeMachine.Concurrent
