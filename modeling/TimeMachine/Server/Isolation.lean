import TimeMachine.Server.Requests
import TimeMachine.Base.Transition
import TimeMachine.Store.Wire

/-!
# Folders side by side

Saves to a folder next to saves to other folders, against the same saves alone. Saves
to folders that exist never interfere; the first save to a new folder opens the
database again and sets the counters of all folders, and that is noticed by the next
save to the folder unless its counter already was what it is set to.
-/

namespace TimeMachine.Server
open TimeMachine.Base TimeMachine.Base.StateError TimeMachine.Store TimeMachine.Client
open TimeMachine.Client.DbClient

/-- A save to the folder that brings its own timestamp. -/
def SaveTo (folder : String) (e : Event) : Prop :=
  ∃ env request, e = .save env request ∧ request.folder = folder ∧ request.timestamp ≠ 0 ∧
    Healthy env

/-- A save to another folder. -/
def SaveElsewhere (folder : String) (e : Event) : Prop :=
  ∃ env request, e = .save env request ∧ request.folder ≠ folder ∧ Healthy env

/-- RocksDB accepts the write of the save. -/
def Written (e : Event) : Prop := ∀ env request, e = .save env request → env.put = .ok

/-- Whether the event is a save to the folder. -/
def Event.savesTo (folder : String) : Event → Bool
  | .save _ request => request.folder = folder
  | _ => false

/-- The answers to the saves to the folder. -/
def repliesTo (pb : Protobuf) (folder : String) (p : Process) (events : List Event) :
    List Reply :=
  ((p.trace pb events).filter (fun x ↦ x.1.savesTo folder)).map (·.2)

/-- The contents of a folder. -/
def Process.contents (p : Process) (folder : String) : Option ColumnFamily :=
  match p with
  | .down _ => none
  | .running client => client.family folder

/-- The saves to the folder are answered in the merged run as they are alone, and leave the
folder with the same contents. -/
def Isolated (pb : Protobuf) (folder : String) (p : Process) (alone merged : List Event) : Prop :=
  repliesTo pb folder p merged = repliesTo pb folder p alone ∧
    (p.after pb merged).contents folder = (p.after pb alone).contents folder

/-- The event is a save that creates its folder. -/
def Creates (p : Process) (e : Event) : Prop :=
  ∃ client env request, p = .running client ∧ e = .save env request ∧
    client.view request.folder = none

/-- The folder's counter is the unique number of its last record, or zero without records. -/
def AtSeed (folder : String) (p : Process) : Prop :=
  ∀ client f, p = .running client → client.view folder = some f →
    (uniqueRange f.records).till = f.lastUnique

/-- Whenever a save creates a folder and a save to this folder is still to come, this folder's
counter is at its seed. -/
def Undisturbed (pb : Protobuf) (folder : String) : Process → List Event → Prop
  | _, [] => True
  | p, e :: rest =>
    (Creates p e → (∃ a ∈ rest, a.savesTo folder = true) → AtSeed folder p) ∧
      Undisturbed pb folder (p.step pb e).1 rest

variable {pb : Protobuf} {folder : String}

/-- The folder after a save into it. -/
def savedFolder (pb : Protobuf) (env : Env) (request : SaveRequest) (f : Folder) : Folder :=
  { records :=
      if env.put.isOk then
        OrderedStore.put IDComparator.compare (serializeID (request.nextID env f))
          (pb.serializeAsString (request.message (request.nextID env f))) f.records
      else f.records
    lastUnique := f.lastUnique + 1 }

/-! ### One save -/

variable (pb) in
private theorem step_saveTo {s : DbClient} (hs : Serves s) {f : Folder}
    (hf : s.view folder = some f) {env : Env} {request : SaveRequest}
    (hfolder : request.folder = folder) (henv : Healthy env) :
    ∃ t, (Process.running s).step pb (.save env request) =
        (.running t, .saved (savedReply env.put (request.nextID env f)).1
          (savedReply env.put (request.nextID env f)).2) ∧
      Serves t ∧ t.view folder = some (savedFolder pb env request f) := by
  subst hfolder
  have hsome : (s.view request.folder).isSome := Option.isSome_of_eq_some hf
  obtain ⟨g, t, hg, hrun, ht, hview⟩ := run_save hs henv pb request
  rw [Folders.touch_of_isSome hsome] at hg hview
  obtain rfl : g = f := Option.some.inj (hg.symm.trans hf)
  refine ⟨t, ?_, ht.serves, ?_⟩
  · simp only [Process.step, Process.call, hrun]
  · rw [hview, savedFolder]
    cases hput : env.put with
    | failed text =>
      rw [savedFolders_of_failed hput, Folders.issue_self hg]
      rfl
    | ok =>
      rw [savedFolders_of_ok hput, Folders.store_self (Folders.issue_self hg)]
      rfl

variable (pb) in
private theorem step_saveElsewhere {s : DbClient} (hs : Serves s) {f : Folder}
    (hf : s.view folder = some f) {e : Event} (he : SaveElsewhere folder e) :
    ∃ t r, (Process.running s).step pb e = (.running t, r) ∧ Serves t ∧
      e.savesTo folder = false ∧
      (Creates (.running s) e → t.view folder = some f.reseed) ∧
      (¬ Creates (.running s) e → t.view folder = some f) := by
  obtain ⟨env, request, rfl, hne, henv⟩ := he
  obtain ⟨g, t, hg, hrun, ht, hview⟩ := run_save hs henv pb request
  have hne' : folder ≠ request.folder := fun h ↦ hne h.symm
  have hother : t.view folder = s.view.touch request.folder folder := by
    rw [hview]
    cases hput : env.put with
    | failed text => rw [savedFolders_of_failed hput, Folders.issue_of_ne _ hne']
    | ok => rw [savedFolders_of_ok hput, Folders.store_of_ne _ hne', Folders.issue_of_ne _ hne']
  have hstep : (Process.running s).step pb (.save env request) =
      (.running t, .saved (savedReply env.put (request.nextID env g)).1
        (savedReply env.put (request.nextID env g)).2) := by
    simp only [Process.step, Process.call, hrun]
  refine ⟨t, _, hstep, ht.serves, by simpa [Event.savesTo], ?_, ?_⟩
  · rintro ⟨client, env', request', hclient, hsave, hnone⟩
    cases hclient
    cases hsave
    rw [hother, Folders.touch_of_none hnone, Folders.create_apply, if_neg hne', Folders.reopen, hf]
    rfl
  · intro hcreates
    have hsome : (s.view request.folder).isSome := by
      by_contra hnone
      exact hcreates ⟨s, env, request, rfl, rfl, by simpa using hnone⟩
    rw [hother, Folders.touch_of_isSome hsome, hf]

/-! ### Runs -/

private theorem repliesTo_cons_self {p q : Process} {e : Event} {r : Reply} {rest : List Event}
    (hstep : p.step pb e = (q, r)) (he : e.savesTo folder = true) :
    repliesTo pb folder p (e :: rest) = r :: repliesTo pb folder q rest := by
  simp [repliesTo, Process.trace, hstep, he]

private theorem repliesTo_cons_other {p q : Process} {e : Event} {r : Reply} {rest : List Event}
    (hstep : p.step pb e = (q, r)) (he : e.savesTo folder = false) :
    repliesTo pb folder p (e :: rest) = repliesTo pb folder q rest := by
  simp [repliesTo, Process.trace, hstep, he]

private theorem after_cons {p q : Process} {e : Event} {r : Reply} {rest : List Event}
    (hstep : p.step pb e = (q, r)) : p.after pb (e :: rest) = q.after pb rest := by
  rw [Process.after, List.foldl_cons, hstep]
  rfl

variable (pb) in
private theorem others_only {as bs ms : List Event} (hm : Merge as bs ms) (has : as = [])
    (hB : ∀ e ∈ bs, SaveElsewhere folder e) {s : DbClient} (hs : Serves s) {f : Folder}
    (hf : s.view folder = some f) :
    repliesTo pb folder (.running s) ms = [] ∧
      ((Process.running s).after pb ms).contents folder = some f.records ∧
      (¬ ∃ a ∈ ms, a.savesTo folder = true) ∧ Undisturbed pb folder (.running s) ms := by
  induction hm generalizing s f with
  | nil =>
    obtain ⟨i, d, hserv⟩ := hs
    refine ⟨rfl, ?_, by simp, trivial⟩
    change s.family folder = some f.records
    rw [family, hserv.database_eq]
    exact ((view_eq_some hserv).mp hf).1
  | left _ _ => cases has
  | @right b as bs ms hm ih =>
    obtain ⟨t, r, hstep, ht, hb, hcreates, hkeeps⟩ :=
      step_saveElsewhere pb hs hf (hB b List.mem_cons_self)
    have hview : ∃ g, t.view folder = some g ∧ g.records = f.records := by
      by_cases hc : Creates (.running s) b
      · exact ⟨f.reseed, hcreates hc, rfl⟩
      · exact ⟨f, hkeeps hc, rfl⟩
    obtain ⟨g, hg, hrec⟩ := hview
    obtain ⟨hreplies, hcontents, hnone, hund⟩ :=
      ih has (fun e he ↦ hB e (List.mem_cons_of_mem b he)) ht hg
    have hnone' : ¬ ∃ a ∈ b :: ms, a.savesTo folder = true := by
      rintro ⟨a, ha, hsave⟩
      rcases List.mem_cons.mp ha with rfl | ha
      · rw [hb] at hsave
        cases hsave
      · exact hnone ⟨a, ha, hsave⟩
    refine ⟨?_, ?_, hnone', ?_⟩
    · rw [repliesTo_cons_other hstep hb, hreplies]
    · rw [after_cons hstep, hcontents, hrec]
    · refine ⟨fun _ hcome ↦ absurd hcome hnone, ?_⟩
      rw [hstep]
      exact hund

variable (pb) in
private theorem first_reply {as bs ms : List Event} (hm : Merge as bs ms) {env : Env}
    {request : SaveRequest} {as' : List Event} (has : as = .save env request :: as')
    (hfolder : request.folder = folder) (henv : Healthy env)
    (hB : ∀ e ∈ bs, SaveElsewhere folder e) {s : DbClient} (hs : Serves s) {f : Folder}
    (hf : s.view folder = some f) (hseed : f.reseed = f) :
    ∃ rest, repliesTo pb folder (.running s) ms =
      .saved (savedReply env.put (request.nextID env f)).1
        (savedReply env.put (request.nextID env f)).2 :: rest := by
  induction hm generalizing s with
  | nil => cases has
  | @left a as bs ms hm ih =>
    cases has
    obtain ⟨t, hstep, -, -⟩ := step_saveTo pb hs hf hfolder henv
    exact ⟨_, repliesTo_cons_self hstep (by simpa [Event.savesTo])⟩
  | @right b as bs ms hm ih =>
    obtain ⟨t, r, hstep, ht, hb, hcreates, hkeeps⟩ :=
      step_saveElsewhere pb hs hf (hB b List.mem_cons_self)
    have hview : t.view folder = some f := by
      by_cases hc : Creates (.running s) b
      · rw [hcreates hc, hseed]
      · exact hkeeps hc
    rw [repliesTo_cons_other hstep hb]
    exact ih has (fun e he ↦ hB e (List.mem_cons_of_mem b he)) ht hview

private theorem not_creates_of_view {s : DbClient} {f : Folder} {env : Env} {request : SaveRequest}
    (hsf : s.view request.folder = some f) : ¬ Creates (.running s) (.save env request) := by
  rintro ⟨client, env', request', hclient, hev, hnone⟩
  cases hclient
  cases hev
  rw [hsf] at hnone
  cases hnone

private theorem atSeed_iff {s : DbClient} {f : Folder} (hsf : s.view folder = some f) :
    AtSeed folder (.running s) ↔ (uniqueRange f.records).till = f.lastUnique := by
  constructor
  · intro h
    exact h s f rfl hsf
  · intro hseed client g hclient hg
    cases hclient
    rw [hsf] at hg
    cases hg
    exact hseed

variable (pb) in
private theorem replies_ne {as bs ms : List Event} {a : Event} (hm : Merge (a :: as) bs ms)
    (ha : SaveTo folder a) (hwritten : Written a) (hB : ∀ e ∈ bs, SaveElsewhere folder e)
    {s u : DbClient} (hs : Serves s) (hu : Serves u) {f : Folder}
    (hsf : s.view folder = some f.reseed) (huf : u.view folder = some f)
    (hseed : (uniqueRange f.records).till ≠ f.lastUnique) :
    repliesTo pb folder (.running s) ms ≠ repliesTo pb folder (.running u) (a :: as) := by
  intro hreplies
  obtain ⟨env, request, rfl, hfolder, -, henv⟩ := ha
  obtain ⟨rest, hfirst⟩ := first_reply pb hm rfl hfolder henv hB hs hsf rfl
  obtain ⟨u', hstep, -, -⟩ := step_saveTo pb hu huf hfolder henv
  rw [hfirst, repliesTo_cons_self hstep (by simpa [Event.savesTo]), List.cons.injEq,
    hwritten env request rfl] at hreplies
  have hid := (Reply.saved.inj hreplies.1).2
  exact hseed (congrArg ID.unique hid)

variable (pb) in
private theorem isolated_of_view {as bs ms : List Event} (hm : Merge as bs ms)
    (hA : ∀ e ∈ as, SaveTo folder e) (hB : ∀ e ∈ bs, SaveElsewhere folder e)
    {s u : DbClient} (hs : Serves s) (hu : Serves u) {f : Folder} (hsf : s.view folder = some f)
    (huf : u.view folder = some f) :
    (Undisturbed pb folder (.running s) ms →
      repliesTo pb folder (.running s) ms = repliesTo pb folder (.running u) as ∧
        ((Process.running s).after pb ms).contents folder =
          ((Process.running u).after pb as).contents folder) ∧
    ((∀ e ∈ as, Written e) →
      repliesTo pb folder (.running s) ms = repliesTo pb folder (.running u) as →
        Undisturbed pb folder (.running s) ms) := by
  induction hm generalizing s u f with
  | nil =>
    obtain ⟨-, hcs, -⟩ := others_only pb .nil rfl hB hs hsf
    obtain ⟨-, hcu, -⟩ := others_only pb .nil rfl hB hu huf
    exact ⟨fun _ ↦ ⟨rfl, hcs.trans hcu.symm⟩, fun _ _ ↦ trivial⟩
  | @left a as bs ms hm ih =>
    obtain ⟨env, request, rfl, hfolder, -, henv⟩ := hA a List.mem_cons_self
    obtain ⟨s', hstep, hs', hsf'⟩ := step_saveTo pb hs hsf hfolder henv
    obtain ⟨u', hstep', hu', huf'⟩ := step_saveTo pb hu huf hfolder henv
    have hsave : (Event.save env request).savesTo folder = true := by simpa [Event.savesTo]
    have hcreates : ¬ Creates (.running s) (.save env request) :=
      not_creates_of_view (hfolder.symm ▸ hsf)
    obtain ⟨hto, hfrom⟩ := ih (fun e he ↦ hA e (List.mem_cons_of_mem _ he)) hB hs' hu' hsf' huf'
    rw [repliesTo_cons_self hstep hsave, repliesTo_cons_self hstep' hsave, List.cons.injEq,
      after_cons hstep, after_cons hstep', Undisturbed, hstep]
    simp only [true_and, hcreates, false_implies]
    exact ⟨hto, fun hw ↦ hfrom (fun e he ↦ hw e (List.mem_cons_of_mem _ he))⟩
  | @right b as bs ms hm ih =>
    obtain ⟨s', r, hstep, hs', hb, hnew, hkeeps⟩ :=
      step_saveElsewhere pb hs hsf (hB b List.mem_cons_self)
    have hB' : ∀ e ∈ bs, SaveElsewhere folder e := fun e he ↦ hB e (List.mem_cons_of_mem b he)
    rw [repliesTo_cons_other hstep hb, after_cons hstep, Undisturbed, hstep]
    by_cases hc : Creates (.running s) b
    · cases as with
      | nil =>
        -- no save to the folder is left, so its counter does not matter
        obtain ⟨hr, hcont, hnone, hund⟩ := others_only pb hm rfl hB' hs' (hnew hc)
        have hnone' : ∀ e ∈ ([] : List Event), SaveElsewhere folder e := by simp
        obtain ⟨-, hcu, -⟩ := others_only pb .nil rfl hnone' hu huf
        exact ⟨fun _ ↦ ⟨hr, hcont.trans hcu.symm⟩, fun _ _ ↦ ⟨fun _ h ↦ absurd h hnone, hund⟩⟩
      | cons a as =>
        have ha := hA a List.mem_cons_self
        have hcome : ∃ a ∈ ms, a.savesTo folder = true := by
          obtain ⟨env, request, rfl, hfolder, -⟩ := ha
          exact ⟨_, hm.mem_of_left List.mem_cons_self, by simpa [Event.savesTo]⟩
        by_cases hseed : (uniqueRange f.records).till = f.lastUnique
        · have hreseed : f.reseed = f := by rw [Folder.reseed, hseed]
          have hat := (atSeed_iff hsf).mpr hseed
          have hi := ih hA hB' hs' hu (by rw [hnew hc, hreseed]) huf
          simp only [hc, hcome, hat, forall_true_left, true_and]
          exact hi
        · have hnot : ¬ AtSeed folder (.running s) := fun h ↦ hseed ((atSeed_iff hsf).mp h)
          refine ⟨fun h ↦ absurd (h.1 hc hcome) hnot, fun hw hreplies ↦ ?_⟩
          exact absurd hreplies
            (replies_ne pb hm ha (hw a List.mem_cons_self) hB' hs' hu (hnew hc) huf hseed)
    · have hi := ih hA hB' hs' hu (hkeeps hc) huf
      simp only [hc, false_implies, true_and]
      exact hi

/-- A client some server runs after it was started on an empty disk. -/
def Reachable (pb : Protobuf) (client : DbClient) : Prop :=
  ∃ impl env cfg first events, start impl env cfg RocksDB.empty = .ok () first ∧
    (∀ e ∈ events, Durable impl cfg e) ∧
    (Process.running first).after pb events = .running client

/-- A reachable client serves. -/
theorem Reachable.serves {client : DbClient} (h : Reachable pb client) : Serves client := by
  obtain ⟨impl, env, cfg, first, events, hstart, hevents, hafter⟩ := h
  have hdir := same_dir_of_start_empty hstart
  obtain ⟨i, hserv⟩ := start_serving hdir hstart
  obtain ⟨himpl, hcfg⟩ := frame_start hdir hstart
  obtain ⟨t, hrun, ht⟩ := continues_after ⟨i, _, hserv⟩ pb (by rwa [himpl, hcfg])
  rw [hrun] at hafter
  cases hafter
  exact ht.serves

/-- In every reachable state, saves to an existing folder are isolated from saves to other
folders if, whenever one of those creates a folder before the last save to this one, this
folder's counter is the unique number of its last record. Where every save to the folder is
written, they are isolated only then. -/
theorem saves_isolated_iff {pb : Protobuf} {client : DbClient} (hreach : Reachable pb client)
    {folder : String} (hf : (client.view folder).isSome) {as bs ms : List Event}
    (hA : ∀ e ∈ as, SaveTo folder e) (hB : ∀ e ∈ bs, SaveElsewhere folder e)
    (hM : Merge as bs ms) :
    (Undisturbed pb folder (.running client) ms → Isolated pb folder (.running client) as ms) ∧
    ((∀ e ∈ as, Written e) →
      (Isolated pb folder (.running client) as ms ↔
        Undisturbed pb folder (.running client) ms)) := by
  obtain ⟨f, hf⟩ := Option.isSome_iff_exists.mp hf
  obtain ⟨hto, hfrom⟩ := isolated_of_view pb hM hA hB hreach.serves hreach.serves hf hf
  exact ⟨hto, fun hw ↦ ⟨fun h ↦ hfrom hw h.1, hto⟩⟩

/-- A save to the default folder of a new database after a save to a new folder. -/
theorem saves_isolated_in_new_database :
    ∃ client, Isolated Wire.wire defaultName (.running client)
      [.save { now := 1, now_ne_zero := by decide }
        { folder := defaultName, data := [1], timestamp := 5 }]
      [.save { now := 2, now_ne_zero := by decide } { folder := "g", data := [2] },
        .save { now := 1, now_ne_zero := by decide }
          { folder := defaultName, data := [1], timestamp := 5 }] := by
  obtain ⟨client, hstart⟩ := start_of_empty .localDBClient {}
    { now := 1, now_ne_zero := by decide } rfl rfl rfl rfl
  have hreach : Reachable Wire.wire client := ⟨_, _, _, client, [], hstart, by simp, rfl⟩
  obtain ⟨i, hserv⟩ := start_serving rfl hstart
  have hf : (client.view defaultName).isSome :=
    (view_isSome_iff hserv).mpr (Database.default_mem_names _)
  have hB : ∀ e ∈ [Event.save { now := 2, now_ne_zero := by decide }
      { folder := "g", data := [2] }], SaveElsewhere defaultName e := by
    intro e he
    rw [List.mem_singleton.mp he]
    exact ⟨_, _, rfl, by decide, ⟨rfl, rfl, rfl⟩⟩
  refine ⟨client, (saves_isolated_iff hreach hf ?_ hB (.right (.left .nil))).1 ?_⟩
  · intro e he
    rw [List.mem_singleton.mp he]
    exact ⟨_, _, rfl, rfl, by decide, ⟨rfl, rfl, rfl⟩⟩
  · refine ⟨fun _ _ ↦ ?_, ?_, trivial⟩
    · intro client' f hclient hview
      cases hclient
      rw [view_start_empty hstart hview]
      rfl
    · rintro - ⟨a, ha, -⟩
      cases ha

/-- With one record in the folder, a save to a new folder makes the next save to it hand out
the record's number again. -/
theorem saves_disturbed :
    ¬ ∀ (pb : Protobuf) (client : DbClient) (folder : String) (as bs ms : List Event),
      Reachable pb client → (client.view folder).isSome → (∀ e ∈ as, SaveTo folder e) →
      (∀ e ∈ bs, SaveElsewhere folder e) → (∀ e ∈ ms, Written e) → Merge as bs ms →
      Isolated pb folder (.running client) as ms := by
  intro hall
  let env : Env := { now := 1, now_ne_zero := by decide }
  let events : List Event := [.save env { folder := "f", data := [1], timestamp := 5 }]
  let alone : Event := .save env { folder := "f", data := [2], timestamp := 7 }
  let other : Event := .save env { folder := "g", data := [3] }
  have hevents : ∀ e ∈ events, Durable .localDBClient {} e := by decide
  obtain ⟨first, client, hstart, hserves, hafter, hclient⟩ :=
    exists_running Wire.wire env rfl rfl rfl rfl hevents
  have hfamily : ((Process.running client).contents "f").isSome := by
    rw [← hclient]
    decide +kernel
  obtain ⟨es, hes⟩ := Option.isSome_iff_exists.mp hfamily
  obtain ⟨f, hf, -⟩ := view_of_family hserves hes
  have hview : (client.view "f").isSome := Option.isSome_of_eq_some hf
  have hiso := (hall Wire.wire client "f" [alone] [other] [other, alone]
    ⟨_, _, _, first, events, hstart, hevents, hafter⟩ hview ?_ ?_ ?_ (.right (.left .nil))).1
  · rw [← hclient] at hiso
    revert hiso
    decide +kernel
  · intro e he
    rw [List.mem_singleton.mp he]
    exact ⟨_, _, rfl, rfl, by decide, ⟨rfl, rfl, rfl⟩⟩
  · intro e he
    rw [List.mem_singleton.mp he]
    exact ⟨_, _, rfl, by decide, ⟨rfl, rfl, rfl⟩⟩
  · intro e he env' request hsave
    rcases List.mem_cons.mp he with rfl | he
    · rw [← (Event.save.inj hsave).1]
    · rw [List.mem_singleton.mp he] at hsave
      rw [← (Event.save.inj hsave).1]

end TimeMachine.Server
