import TimeMachine.Concurrent.Model
import Mathlib.Data.Multiset.AddSub

/-!
# One folder among the requests

What the requests side by side do to one folder: opening the database sets its counter,
generating an identifier advances it, a write stores one outstanding identifier. The
order in which requests wait is forgotten. Every step of the model is at most one
opening and one such step of each folder.
-/

namespace TimeMachine.Concurrent
open TimeMachine.Base TimeMachine.Store TimeMachine.Client TimeMachine.Server
open TimeMachine.Client.DbClient

namespace Thread
variable {H K : Type}

/-- The identifier a request has generated in the folder and not written under yet. -/
def idIn (folder : String) (t : Thread H) : Option ID :=
  if t.folder = folder then t.id else none

/-- What a request is going to save to the folder. -/
def saveIn (folder : String) (t : Thread H) : Option SaveRequest :=
  if t.folder = folder then t.request else none

/-- The identifier does not depend on the notion of handle. -/
@[simp] theorem idIn_map (f : H → K) (folder : String) (t : Thread H) :
    (t.map f).idIn folder = t.idIn folder := by
  rw [idIn, folder_map, id_map, idIn]

/-- What is to be saved does not depend on it either. -/
@[simp] theorem saveIn_map (f : H → K) (folder : String) (t : Thread H) :
    (t.map f).saveIn folder = t.saveIn folder := by
  rw [saveIn, folder_map, request_map, saveIn]

end Thread

/-- The stored entry of a save. -/
def Saved.entry (pb : Protobuf) (d : Saved) : Bytes × Bytes :=
  (serializeID d.id, pb.serializeAsString (d.request.message d.id))

/-- A folder after the end of a save. -/
def Saved.apply (pb : Protobuf) (d : Saved) (f : Folder) : Folder :=
  if d.status.isOk then
    { f with records :=
        OrderedStore.put IDComparator.compare (d.entry pb).1 (d.entry pb).2 f.records }
  else f

/-- The end of a save, where it is not known whether the folder exists. -/
theorem Saved.map_apply (pb : Protobuf) (d : Saved) (o : Option Folder) :
    o.map (d.apply pb) =
      if d.status.isOk then
        o.map (fun f ↦
          { f with records :=
              OrderedStore.put IDComparator.compare (d.entry pb).1 (d.entry pb).2 f.records })
      else o := by
  unfold Saved.apply
  split
  · rfl
  · simp

/-- The saves to one folder. -/
structure Local where
  folder : Option Folder
  outstanding : Multiset ID
  saving : Multiset SaveRequest
  issued : List ID
  finished : List Saved

/-- The saves to one folder of the model. -/
def Model.toLocal (M : Model) (folder : String) : Local where
  folder := M.folders folder
  outstanding := M.tasks.filterMap (Thread.idIn folder)
  saving := M.tasks.filterMap (Thread.saveIn folder)
  issued := (M.issued.filter (·.1 = folder)).map (·.2)
  finished := M.finished.filter (·.request.folder = folder)

/-- What an opening of the database makes of a folder. -/
inductive Reopened (reopens : Prop) : Option Folder → Option Folder → Prop
  | kept {o} : ¬ reopens → Reopened reopens o o
  | reseeded {o} : reopens → Reopened reopens o (o.map Folder.reseed)
  | created : reopens → Reopened reopens none (some ⟨[], 0⟩)

/-- Without an opening the folder is as it was. -/
theorem Reopened.eq_of_not {reopens : Prop} {o o' : Option Folder} (h : Reopened reopens o o')
    (hr : ¬ reopens) : o' = o := by
  cases h with
  | kept => rfl
  | reseeded h => exact absurd h hr
  | created h => exact absurd h hr

/-- A step of the saves to one folder: an identifier is generated, or a save ends. -/
inductive Local.Step (pb : Protobuf) : Local → Local → Prop
  | issue {a : Local} {f : Folder} {id : ID} : a.folder = some f → id.timestamp ≠ 0 →
      id.unique = f.lastUnique →
      Step pb a
        { a with
          folder := some { f with lastUnique := f.lastUnique + 1 }
          outstanding := id ::ₘ a.outstanding
          issued := a.issued ++ [id] }
  | write {a : Local} {d : Saved} {os : Multiset ID} {rs : Multiset SaveRequest} :
      a.outstanding = d.id ::ₘ os → a.saving = d.request ::ₘ rs →
      Step pb a
        { a with
          folder := a.folder.map (d.apply pb)
          outstanding := os
          saving := rs
          finished := a.finished ++ [d] }

/-- The save to the folder that a request is. -/
def Request.saveIn (folder : String) : Request → Option SaveRequest
  | .save request | .post request => if request.folder = folder then some request else none
  | .read _ _ _ => none

/-- The saves to the folder that arrive. -/
def Label.arrivals (folder : String) : Label → List SaveRequest
  | .arrive request => (request.saveIn folder).toList
  | _ => []

/-- The saves to a folder after an opening and an arrival. -/
def Local.prepare (a : Local) (o : Option Folder) (arrivals : Multiset SaveRequest) : Local :=
  { a with folder := o, saving := a.saving + arrivals }

variable {pb : Protobuf} {env : Env} {M M' : Model}

private theorem filterMap_step {β : Type} (g : Task → Option β) (hg : ∀ t, g t.expire = g t)
    {i : Nat} {t : Task} (ht : M.tasks[i]? = some t) (creates : Bool) (o : Option Task) :
    ∃ rest : List β, (M.tasks.filterMap g).Perm ((g t).toList ++ rest) ∧
      ((Pool.replace (expireIf creates M.tasks) i o).filterMap g).Perm
        ((o.bind g).toList ++ rest) := by
  refine ⟨(M.tasks.eraseIdx i).filterMap g, ?_, ?_⟩
  · have h := (Pool.perm_cons_of_getElem? ht).filterMap g
    cases hgt : g t with
    | none => rwa [List.filterMap_cons_none hgt] at h
    | some b => rwa [List.filterMap_cons_some hgt] at h
  · have h := (Model.tasks_perm ht creates o).filterMap g
    have hexpire : (expireIf creates (M.tasks.eraseIdx i)).filterMap g =
        (M.tasks.eraseIdx i).filterMap g := by
      cases creates with
      | false => rfl
      | true =>
        rw [expireIf, List.filterMap_map]
        exact congrFun (congrArg _ (funext hg)) _
    rw [List.filterMap_append, hexpire] at h
    cases o with
    | none => exact h
    | some t' => cases hgt : g t' <;> simpa [hgt] using h

/-- The folders after the opening a step of a task begins with. -/
def Thread.opened (t : Task) (F : Folders) : Folders :=
  match t.opens with
  | some folder => F.touch folder
  | none => F

/-- A task that creates its folder sets the counters of the others. -/
theorem opened_of_creates {t : Task} {F : Folders} (h : t.creates F = true) {x : String}
    {f : Folder} (hf : F x = some f) : x ≠ t.folder ∧ t.opened F x = some f.reseed := by
  unfold Thread.creates at h
  cases hopens : t.opens with
  | none => simp [hopens] at h
  | some folder =>
    have hnone : F folder = none := by simpa [hopens] using h
    have hx : x ≠ folder := by
      rintro rfl
      rw [hnone] at hf
      cases hf
    have hfolder : t.folder = folder := by
      cases t <;> first | exact Option.some.inj hopens | cases hopens
    refine ⟨by rwa [hfolder], ?_⟩
    simp only [Thread.opened, hopens]
    rw [Folders.touch_of_none hnone, Folders.create_apply, if_neg hx, Folders.reopen, hf,
      Option.map_some]

private theorem reopened_opened (t : Task) (F : Folders) (x : String) :
    Reopened (t.creates F = true) (F x) (t.opened F x) := by
  unfold Thread.creates Thread.opened
  cases t.opens with
  | none => exact .kept (by simp)
  | some folder =>
    dsimp only
    cases hf : F folder with
    | some f =>
      rw [Folders.touch_of_isSome (Option.isSome_of_eq_some hf)]
      exact .kept (by simp)
    | none =>
      rw [Folders.touch_of_none hf, Folders.create_apply]
      split
      · next hx =>
        rw [hx, hf]
        exact .created rfl
      · exact .reseeded rfl

/-- A task opens and works on its own folder only. -/
theorem advanceTask_of_ne (pb : Protobuf) (env : Env) {t : Task} {x : String}
    (hx : x ≠ t.folder) (F : Folders) : (advanceTask pb env F t).folders x = t.opened F x := by
  cases t with
  | saving | numbered | reading | calling => rfl
  | holding request live | posting request => exact Folders.issue_of_ne _ hx
  | writing request id live =>
    simp only [advanceTask]
    split
    · exact Folders.store_of_ne _ hx _ _
    · rfl

private theorem folder_advanceTask (pb : Protobuf) (env : Env) (t : Task) (F : Folders) :
    (∀ t' ∈ (advanceTask pb env F t).task, t'.folder = t.folder) ∧
      (∀ e ∈ (advanceTask pb env F t).issued, e.1 = t.folder) ∧
      ∀ d ∈ (advanceTask pb env F t).finished, d.request.folder = t.folder := by
  cases t with
  | saving | numbered | holding | posting | writing =>
    simp [advanceTask, Thread.folder]
  | reading folder call rest =>
    simp only [advanceTask]
    split <;> simp [Thread.folder]
  | calling folder live call rest => cases rest <;> simp [advanceTask, Thread.folder]

private theorem advanceTask_self (pb : Protobuf) (env : Env) (t : Task) (F : Folders)
    (os : List ID) (rs : List SaveRequest) (issued : List ID) (finished : List Saved) :
    let p := advanceTask pb env F t
    let a : Local :=
      ⟨t.opened F t.folder, ↑(t.id.toList ++ os), ↑(t.request.toList ++ rs), issued, finished⟩
    let a' : Local :=
      ⟨p.folders t.folder, ↑((p.task.bind Thread.id).toList ++ os),
        ↑((p.task.bind Thread.request).toList ++ rs), issued ++ p.issued.map (·.2),
        finished ++ p.finished⟩
    a' = a ∨ Local.Step pb a a' := by
  have hissue (folder : String) (request : SaveRequest) (hfolder : request.folder = folder) :
      ∃ f, F.touch folder folder = some f ∧
        (request.nextID env (numbering F folder)).unique = f.lastUnique := by
    obtain ⟨f, hf⟩ := Option.isSome_iff_exists.mp (Folders.touch_isSome F folder)
    exact ⟨f, hf, by rw [numbering, hf, Option.getD_some]; rfl⟩
  intro p a a'
  cases t with
  | saving request | numbered request id =>
    left
    simp [a, a', p, advanceTask, Thread.opened, Thread.opens, Thread.id, Thread.request,
      Thread.folder]
  | holding request live | posting request =>
    right
    obtain ⟨f, hf, hu⟩ := hissue _ request rfl
    have hstep : Local.Step pb a _ := .issue hf (request.nextID_ne_zero _ _) hu
    convert hstep using 1
    simp [a, a', p, advanceTask, Thread.id, Thread.request, Thread.folder, Folders.issue_self hf]
  | writing request id live =>
    right
    let d : Saved := ⟨request, id, env.put⟩
    have hid : a.outstanding = d.id ::ₘ ↑os := rfl
    have hrequest : a.saving = d.request ::ₘ ↑rs := rfl
    have hstep : Local.Step pb a _ := .write hid hrequest
    convert hstep using 1
    have hfolder : p.folders request.folder =
        (F request.folder).map (Saved.apply pb ⟨request, id, env.put⟩) := by
      rw [Saved.map_apply]
      simp only [p, advanceTask]
      split
      · rw [Folders.store, Function.update_self]
        rfl
      · rfl
    simp only [a', Thread.folder, hfolder]
    simp [a, p, d, advanceTask, Thread.opened, Thread.opens, Thread.folder]
  | reading folder call rest =>
    left
    simp only [a, a', p, advanceTask, Thread.opened, Thread.opens, Thread.folder]
    split <;> simp [Thread.id, Thread.request]
  | calling folder live call rest =>
    left
    cases rest <;>
      simp [a, a', p, advanceTask, Thread.opened, Thread.opens, Thread.folder, Thread.id,
        Thread.request]

private theorem toLocal_run {i : Nat} (hstep : M.step pb (.run i env) = some M') (x : String) :
    ∃ o, Reopened (M.Reopens (.run i env)) (M.folders x) o ∧
      (M'.toLocal x = { M.toLocal x with folder := o } ∨
        Local.Step pb { M.toLocal x with folder := o } (M'.toLocal x)) := by
  obtain ⟨t, ht, rfl⟩ := Model.step_run.mp hstep
  have hreopens : M.Reopens (.run i env) ↔ t.creates M.folders = true := by
    simp [Model.Reopens, ht]
  obtain ⟨htask, hissued, hfinished⟩ := folder_advanceTask pb env t M.folders
  obtain ⟨os, hos, hos'⟩ := filterMap_step (Thread.idIn x)
    (fun t ↦ Thread.idIn_map _ _ t) ht (t.creates M.folders) (advanceTask pb env M.folders t).task
  obtain ⟨rs, hrs, hrs'⟩ := filterMap_step (Thread.saveIn x)
    (fun t ↦ Thread.saveIn_map _ _ t) ht (t.creates M.folders) (advanceTask pb env M.folders t).task
  refine ⟨t.opened M.folders x, by rw [hreopens]; exact reopened_opened t M.folders x, ?_⟩
  simp only [Model.toLocal, Multiset.coe_eq_coe.mpr hos, Multiset.coe_eq_coe.mpr hos',
    Multiset.coe_eq_coe.mpr hrs, Multiset.coe_eq_coe.mpr hrs', List.filter_append, List.map_append]
  by_cases hx : x = t.folder
  · subst hx
    have hself := advanceTask_self pb env t M.folders os rs
      ((M.issued.filter (·.1 = t.folder)).map (·.2))
      (M.finished.filter (·.request.folder = t.folder))
    have hid : (advanceTask pb env M.folders t).task.bind (Thread.idIn t.folder) =
        (advanceTask pb env M.folders t).task.bind Thread.id :=
      Option.bind_congr fun t' ht' ↦ if_pos (htask t' ht')
    have hreq : (advanceTask pb env M.folders t).task.bind (Thread.saveIn t.folder) =
        (advanceTask pb env M.folders t).task.bind Thread.request :=
      Option.bind_congr fun t' ht' ↦ if_pos (htask t' ht')
    have hi : (advanceTask pb env M.folders t).issued.filter (·.1 = t.folder) =
        (advanceTask pb env M.folders t).issued :=
      List.filter_eq_self.mpr fun e he ↦ decide_eq_true (hissued e he)
    have hd : (advanceTask pb env M.folders t).finished.filter (·.request.folder = t.folder) =
        (advanceTask pb env M.folders t).finished :=
      List.filter_eq_self.mpr fun d hd ↦ decide_eq_true (hfinished d hd)
    rw [hid, hreq, hi, hd, Thread.idIn, if_pos rfl, Thread.saveIn, if_pos rfl]
    exact hself
  · left
    have hne : ¬ t.folder = x := fun h ↦ hx h.symm
    have hid : (advanceTask pb env M.folders t).task.bind (Thread.idIn x) = none :=
      Option.bind_eq_none_iff.mpr fun t' ht' ↦ if_neg (by rwa [htask t' ht'])
    have hreq : (advanceTask pb env M.folders t).task.bind (Thread.saveIn x) = none :=
      Option.bind_eq_none_iff.mpr fun t' ht' ↦ if_neg (by rwa [htask t' ht'])
    have hi : (advanceTask pb env M.folders t).issued.filter (·.1 = x) = [] :=
      List.filter_eq_nil_iff.mpr fun e he ↦ by rw [hissued e he]; simpa using hne
    have hd : (advanceTask pb env M.folders t).finished.filter (·.request.folder = x) = [] :=
      List.filter_eq_nil_iff.mpr fun d hd ↦ by rw [hfinished d hd]; simpa using hne
    rw [hid, hreq, hi, hd, Thread.idIn, if_neg hne, Thread.saveIn, if_neg hne,
      advanceTask_of_ne pb env hx, List.map_nil, List.append_nil, List.append_nil]

/-- A step does to each folder an opening, an arrival and a step of its own at most. -/
theorem toLocal_step {l : Label} (hstep : M.step pb l = some M') (x : String) :
    ∃ o, Reopened (M.Reopens l) (M.folders x) o ∧
      (M'.toLocal x = (M.toLocal x).prepare o (l.arrivals x) ∨
        Local.Step pb ((M.toLocal x).prepare o (l.arrivals x)) (M'.toLocal x)) := by
  cases l with
  | arrive request =>
    cases hstep
    refine ⟨M.folders x, .kept id, Or.inl ?_⟩
    cases request with
    | save request | post request =>
      by_cases hx : request.folder = x <;>
        simp [Model.toLocal, Local.prepare, Label.arrivals, Request.saveIn, Request.thread,
          Thread.idIn, Thread.saveIn, Thread.folder, Thread.id, Thread.request, hx,
          -Multiset.coe_singleton, Multiset.coe_add]
    | read folder call rest =>
      simp [Model.toLocal, Local.prepare, Label.arrivals, Request.saveIn, Request.thread,
        Thread.idIn, Thread.saveIn, Thread.id, Thread.request]
  | run i env =>
    obtain ⟨o, ho, h⟩ := toLocal_run hstep x
    have hprepare : (M.toLocal x).prepare o ((Label.run i env).arrivals x) =
        { M.toLocal x with folder := o } := by
      simp [Local.prepare, Label.arrivals]
    exact ⟨o, ho, by rwa [hprepare]⟩
  | restart env =>
    obtain ⟨-, rfl⟩ := Model.step_restart.mp hstep
    refine ⟨_, .reseeded trivial, Or.inl ?_⟩
    simp [Model.toLocal, Local.prepare, Label.arrivals, Folders.reopen]

end TimeMachine.Concurrent
