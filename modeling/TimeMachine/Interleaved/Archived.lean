import TimeMachine.Interleaved.Programs
import TimeMachine.Server.Retrieval

/-!
# The archive of a history

What the requests do side by side, on a RocksDB that does what it is asked, except that
it may refuse a write, and keeps every write over restarts. The creations and writes of
the history are those of an archive, and the folders hold what it holds. Every answer
but that of a subsample is the archive's at one step of its own request, between the
arrival and the answer: saves and reads take effect one after the other.

A thread may find that its folder was created meanwhile, or that its handle is of an
instance that was closed since. Then its next step takes the server down, and no request
in progress is answered.
-/

namespace TimeMachine.Interleaved
open TimeMachine.Base TimeMachine.Base.StateError TimeMachine.Store TimeMachine.Client
open TimeMachine.Server DbClient Threads

/-- What an effect does to the archive. -/
def Effect.archive (a : Archive) : Effect → Archive
  | clocked _ => a
  | created folder => a.append folder []
  | wrote folder id message => a.append folder [(id, message)]

/-- The archive a history leaves. -/
def archive (h : History) : Archive := (effects h).foldl Effect.archive Archive.initial

section Archive
variable {h h' : History} {name : String}

/-- The archive after one more step. -/
theorem archive_did (i : Nat) (h : History) (w : List Effect) :
    archive (h ++ w.map (.did i)) = w.foldl Effect.archive (archive h) := by
  rw [archive, effects_append_did, List.foldl_append, archive]

/-- An arrival does nothing to the archive. -/
@[simp] theorem archive_arrived (h : History) (i : Nat) (request : Incoming) :
    archive (h ++ [.arrived i request]) = archive h := by
  rw [archive, effects, List.filterMap_append]
  exact congrArg (List.foldl _ _) (List.append_nil _)

/-- Nor does an answer. -/
@[simp] theorem archive_ended (h : History) (i : Nat) (response : Response) :
    archive (h ++ [.ended i response]) = archive h := by
  rw [archive, effects, List.filterMap_append]
  exact congrArg (List.foldl _ _) (List.append_nil _)

private theorem isSome_append (a : Archive) (name : String) (records : List (ID × Data)) :
    (a.append name records name).isSome := by
  rw [Archive.append_apply, if_pos rfl]
  rfl

private theorem isSome_effect {a : Archive} (hn : (a name).isSome) (e : Effect) :
    (e.archive a name).isSome := by
  cases e with
  | clocked now => exact hn
  | created folder =>
    rw [Effect.archive, Archive.append_apply]
    split
    · rfl
    · exact hn
  | wrote folder id message =>
    rw [Effect.archive, Archive.append_apply]
    split
    · rfl
    · exact hn

/-- A folder that exists goes on existing. -/
theorem isSome_archive_of_isPrefix (hpre : h <+: h') (hn : (archive h name).isSome) :
    (archive h' name).isSome := by
  have hfold (w : List Effect) {a : Archive} (ha : (a name).isSome) :
      (w.foldl Effect.archive a name).isSome := by
    induction w generalizing a with
    | nil => exact ha
    | cons e w ih => exact ih (isSome_effect ha e)
  obtain ⟨w, hw⟩ := effects_isPrefix hpre
  rw [archive, ← hw, List.foldl_append]
  exact hfold w hn

/-- Nothing is appended. -/
theorem append_nil_of_isSome {a : Archive} (hn : (a name).isSome) : a.append name [] = a := by
  obtain ⟨log, hlog⟩ := Option.isSome_iff_exists.mp hn
  rw [Archive.append, List.append_nil, hlog, Option.getD_some, ← hlog, Function.update_eq_self]

end Archive

/-! ### The invariant -/

/-- The client serves what the archive of the history holds. -/
structure Archived (pb : Protobuf) (s : DbClient) (h : History) : Prop where
  serves : Serves s
  contents : s.view.contents = (archive h).contents pb
  dated : (archive h).Dated

variable {pb : Protobuf} {s : DbClient} {h : History}

/-- The folders are those of the archive. -/
theorem Archived.isSome_iff (hs : Archived pb s h) (name : String) :
    (s.view name).isSome ↔ (archive h name).isSome := by
  rw [← Folders.isSome_contents, hs.contents, Archive.contents, Option.isSome_map]

/-- What a folder of the archive holds. -/
theorem Archived.folder (hs : Archived pb s h) {name : String} (hn : (archive h name).isSome) :
    ∃ f, s.view name = some f ∧ (archive h).contents pb name = some f.records := by
  obtain ⟨f, hf⟩ := Option.isSome_iff_exists.mp ((hs.isSome_iff name).mpr hn)
  refine ⟨f, hf, ?_⟩
  rw [← hs.contents, Folders.contents, hf, Option.map_some]

/-- Nothing was done. -/
theorem Archived.of_contents (hs : Archived pb s h) {t : DbClient} (ht : Serves t)
    (heq : t.view.contents = s.view.contents) : Archived pb t h :=
  ⟨ht, heq.trans hs.contents, hs.dated⟩

private theorem Archived.created (hs : Archived pb s h) {t : DbClient} (ht : Serves t) (i : Nat)
    {folder : String} (hview : t.view = s.view.touch folder) :
    Archived pb t (h ++ [Effect.created folder].map (.did i)) := by
  constructor
  · exact ht
  · rw [hview, Folders.contents_touch, archive_did, List.foldl_cons, List.foldl_nil,
      Effect.archive, Archive.contents_append, hs.contents]
    rfl
  · rw [archive_did]
    exact Archive.dated_append hs.dated folder (by simp [Archive.DatedLog])

private theorem Archived.wrote (hs : Archived pb s h) {t : DbClient} (ht : Serves t) (i : Nat)
    {folder : String} (hn : (archive h folder).isSome) {id : ID} {message : Data}
    (hid : id.timestamp ≠ 0) (hmessage : message.id = some id)
    (hview : t.view = s.view.store folder (serializeID id) (pb.serializeAsString message)) :
    Archived pb t (h ++ [Effect.wrote folder id message].map (.did i)) := by
  constructor
  · exact ht
  · obtain ⟨f, -, hf⟩ := hs.folder hn
    rw [hview, Folders.contents_store, archive_did, List.foldl_cons, List.foldl_nil,
      Effect.archive, Archive.contents_append, hs.contents, hf]
    rfl
  · rw [archive_did]
    apply Archive.dated_append hs.dated folder
    intro r hr
    rw [List.mem_singleton.mp hr]
    exact ⟨hid, hmessage⟩

/-! ### The steps of the client -/

section Keeps
variable {i : Nat} {β : Type} {E : History → Failure → Prop} {Q : History → β → Prop}

/-- A step that records nothing, and only reads. -/
theorem keeps_quiet {x : ClientM β}
    (hx : ∀ s h', h <+: h' → Archived pb s h' →
      match x.run s with
      | .ok b t => t = s ∧ ∀ h'', h' <+: h'' → Q h'' b
      | .error e t => t = s ∧ E h' e) :
    Keeps Healthy (Archived pb) E i Q (quiet x) h := by
  apply keeps_atomic
  intro env s h' _ hl hs
  have hrun := hx s h' hl.isPrefix hs
  cases hr : x.run s with
  | ok b t =>
    rw [hr] at hrun
    obtain ⟨rfl, hQ⟩ := hrun
    simp only [List.map_nil, List.append_nil]
    exact ⟨hs, fun h'' hl' ↦ hQ h'' hl'.isPrefix⟩
  | error e t =>
    rw [hr] at hrun
    obtain ⟨rfl, hE⟩ := hrun
    exact ⟨hs, hE⟩

/-- What a lookup tells: at some moment since, the folder did not exist, or it exists now and the
handle has its name. -/
def Found (name : String) (h₀ h : History) : Option ColumnFamilyHandle → Prop
  | none => ∃ h₁, h₀ <+: h₁ ∧ h₁ <+: h ∧ archive h₁ name = none
  | some cf => cf.name = name ∧ (archive h name).isSome

/-- What a lookup that found nothing tells stays true. -/
theorem Found.mono {name : String} {h₀ h h' : History} (hno : Found name h₀ h none)
    (hpre : h <+: h') : Found name h₀ h' none := by
  obtain ⟨h₁, hpre₀, hpre₁, hnone⟩ := hno
  exact ⟨h₁, hpre₀, hpre₁.trans hpre, hnone⟩

/-- Looking a folder up. -/
theorem keeps_getColumnFamily (name : String) :
    Keeps Healthy (Archived pb) E i (Found name h) (getColumnFamily name) h := by
  apply keeps_quiet
  intro s h' hpre hs
  rw [run_getColumnFamily]
  refine ⟨rfl, fun h'' hpre' ↦ ?_⟩
  obtain ⟨j, d, hserv⟩ := hs.serves
  cases hv : s.view name with
  | none =>
    rw [lookup_eq_none hserv hv]
    refine ⟨h', hpre, hpre', ?_⟩
    have hnone := hs.isSome_iff name
    rw [hv] at hnone
    simpa using hnone
  | some f =>
    have hsome : (s.view name).isSome := Option.isSome_of_eq_some hv
    obtain ⟨e, he, hname, -⟩ := lookup_handle hserv hsome
    rw [he]
    exact ⟨hname, isSome_archive_of_isPrefix hpre' ((hs.isSome_iff name).mp hsome)⟩

/-- The program keeps the archive and fails by a crash only, and its result has a property. -/
abbrev Archives (pb : Protobuf) (i : Nat) {β : Type} (Q : History → β → Prop) :
    Program β → History → Prop :=
  Keeps Healthy (Archived pb) (fun _ e ↦ e = .crash) i Q

/-- Creating a folder. If it was created meanwhile, the server crashes. -/
theorem keeps_createColumnFamily (name : String) :
    Archives pb i (fun h' _ ↦ (archive h' name).isSome) (createColumnFamily name) h := by
  apply keeps_atomic
  intro env s h' henv _ hs
  cases hv : s.view name with
  | none =>
    obtain ⟨cf, t, hrun, ht, hview⟩ := run_createColumnFamily_of_none hs.serves henv hv
    rw [hrun]
    have hcreated := hs.created ht i (by rw [hview, Folders.touch_of_none hv])
    refine ⟨hcreated, fun h'' hl ↦ isSome_archive_of_isPrefix hl.isPrefix ?_⟩
    rw [archive_did]
    exact isSome_append _ name []
  | some f =>
    rw [run_createColumnFamily_of_isSome hs.serves env (Option.isSome_of_eq_some hv)]
    exact ⟨hs, rfl⟩

/-- The folder exists, and the handle has its name. -/
def Has (name : String) (h : History) (cf : Option ColumnFamilyHandle) : Prop :=
  ∃ handle, cf = some handle ∧ handle.name = name ∧ (archive h name).isSome

/-- It goes on existing. -/
theorem Has.mono {name : String} {h h' : History} {cf : Option ColumnFamilyHandle}
    (hcf : Has name h cf) (hpre : h <+: h') : Has name h' cf := by
  obtain ⟨handle, hsome, hname, hn⟩ := hcf
  exact ⟨handle, hsome, hname, isSome_archive_of_isPrefix hpre hn⟩

/-- Looking a folder up, or creating it. -/
theorem keeps_getOrCreateColumnFamily (name : String) :
    Archives pb i (Has name) (getOrCreateColumnFamily name) h := by
  apply (keeps_getColumnFamily name).bind
  intro found h₁ _ hfound
  cases found with
  | some cf =>
    apply keeps_pure
    intro h₂ hl
    exact ⟨cf, rfl, hfound.1, isSome_archive_of_isPrefix hl.isPrefix hfound.2⟩
  | none =>
    apply (keeps_createColumnFamily name).bind
    intro _ h₂ _ hsome
    apply (keeps_getColumnFamily name).imp
    · intro cf h₃ _ hcf
      cases cf with
      | some handle => exact ⟨handle, rfl, hcf⟩
      | none =>
        -- it exists since it was created
        obtain ⟨h', hpre, -, hnone⟩ := hcf
        have hstill := isSome_archive_of_isPrefix hpre hsome
        rw [hnone] at hstill
        cases hstill
    · exact fun e h₃ _ he ↦ he

/-- Reading the clock. -/
theorem keeps_clock :
    Keeps Healthy (Archived pb) E i (fun _ now ↦ now ≠ 0) clock h := by
  apply keeps_atomic
  intro env s h' _ _ hs
  refine ⟨⟨hs.serves, ?_, ?_⟩, fun _ _ ↦ env.now_ne_zero⟩
  · rw [archive_did]
    exact hs.contents
  · rw [archive_did]
    exact hs.dated

/-- Taking the next unique number. -/
theorem keeps_fetchAdd (folder : String) :
    Archives pb i (fun _ _ ↦ True) (quiet (DbClient.fetchAdd folder)) h := by
  apply keeps_atomic
  intro env s h' _ _ hs
  rw [DbClient.fetchAdd, run_bind_of_ok (EStateM.run_get s)]
  cases he : s.columnFamalies.lookup folder with
  | none => exact ⟨hs, rfl⟩
  | some data =>
    obtain ⟨j, d, hserv⟩ := hs.serves
    simp only [List.map_nil, List.append_nil]
    refine ⟨hs.of_contents ⟨j, d, serving_cache hserv he _⟩ ?_, fun _ _ ↦ trivial⟩
    rw [view_cache hserv he]
    funext name
    rw [Folders.contents, Folders.contents, Function.update_apply]
    split
    · next hname =>
      rw [hname, Option.map_map]
      rfl
    · rfl

/-- Generating an identifier, with the timestamp that is asked for, or with one that is not zero. -/
theorem keeps_generateId (folder : String) (ts : UInt64) :
    Archives pb i
      (fun _ id ↦ id.timestamp ≠ 0 ∧ (ts ≠ 0 → id.timestamp = ts)) (generateId folder ts) h := by
  have hts : Archives pb i (fun _ timestamp ↦ timestamp ≠ 0 ∧ (ts ≠ 0 → timestamp = ts))
      (if ts = 0 then clock else pure ts) h := by
    split
    · next hzero =>
      exact keeps_clock.imp (fun now _ _ hnow ↦ ⟨hnow, absurd hzero⟩) fun _ _ _ he ↦ he
    · next hne => exact keeps_pure fun _ _ ↦ ⟨hne, fun _ ↦ rfl⟩
  apply hts.bind
  intro timestamp h₁ _ htimestamp
  apply (keeps_getOrCreateColumnFamily folder).bind
  intro _ h₂ _ _
  apply (keeps_fetchAdd folder).bind
  intro unique h₃ _ _
  exact keeps_pure fun _ _ ↦ htimestamp

/-- Writing a message to the folder of a handle. If the handle is of an instance that was closed
since, the server crashes. -/
theorem keeps_put (wopt : WriteOptions) {cf : Option ColumnFamilyHandle} {folder : String}
    (hcf : Has folder h cf) {id : ID} {message : Data} (hid : id.timestamp ≠ 0)
    (hmessage : message.id = some id) :
    Archives pb i (fun h' putStatus ↦ putStatus.isOk → ∃ h₁, h <+: h₁ ∧
        h₁ ++ [Effect.wrote folder id message].map (.did i) <+: h')
      (put pb wopt cf folder id message) h := by
  apply keeps_atomic
  intro env s h' _ hl hs
  obtain ⟨handle, rfl, hname, hsome⟩ := hcf
  replace hsome := isSome_archive_of_isPrefix hl.isPrefix hsome
  have hview : (s.view handle.name).isSome := by rw [hname, hs.isSome_iff]; exact hsome
  by_cases hdb : s.db = some handle.db
  · obtain ⟨t, hrun, ht, htview, -⟩ := run_put hs.serves hdb hview env.put wopt (serializeID id)
      (pb.serializeAsString message)
    rw [hrun]
    simp only
    split
    · next hok =>
      rw [if_pos hok, hname] at htview
      refine ⟨hs.wrote ht i hsome hid hmessage htview, fun h'' hl' _ ↦ ?_⟩
      exact ⟨h', hl.isPrefix, hl'.isPrefix⟩
    · next hno =>
      rw [if_neg hno] at htview
      simp only [List.map_nil, List.append_nil]
      exact ⟨hs.of_contents ht (by rw [htview]), fun _ _ hok ↦ absurd hok hno⟩
  · rw [DbClient.put, run_bind_of_error (run_deref_of_closed hdb)]
    exact ⟨hs, rfl⟩

end Keeps

end TimeMachine.Interleaved
