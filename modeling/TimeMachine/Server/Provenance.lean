import TimeMachine.Server.Reads
import TimeMachine.Server.StoreInvariant

/-!
# Where the records come from

Whatever RocksDB answers, every record of a folder was sent to it: some `Save` or put
named the folder and carried the payload, and the record has the timestamp it asked for,
or the clock's. And as long as the server does not crash, nothing that was stored is
dropped: its key stays, in its folder. Two facts carry this over every step: how the
entries changed so far, and that a cached handle has the name it is cached under.
-/

namespace TimeMachine.Server
open TimeMachine.Base TimeMachine.Base.StateError TimeMachine.Store TimeMachine.Client

/-- The entries of a folder of the database in a directory. -/
def entriesIn (r : RocksDB) (dir name : String) : Option ColumnFamily :=
  (r.disk dir).bind (·.family name)

/-- What may be stored in which folder. -/
abbrev Writers := String → Slice × Bytes → Prop

/-- Every entry of every folder of every database may be stored there. -/
def Sourced (W : Writers) (r : RocksDB) : Prop :=
  ∀ dir name es, entriesIn r dir name = some es → ∀ e ∈ es, W name e

/-- Every folder is still there, with all of its keys. -/
def KeysKept (r r' : RocksDB) : Prop :=
  ∀ dir name es, entriesIn r dir name = some es →
    ∃ es', entriesIn r' dir name = some es' ∧ ∀ e ∈ es, ∃ e' ∈ es', e'.1 = e.1

/-- Every folder is as it was, or is new and empty. -/
def NoneStored (r r' : RocksDB) : Prop :=
  ∀ dir name, entriesIn r' dir name = entriesIn r dir name ∨
    entriesIn r dir name = none ∧ entriesIn r' dir name = some []

/-- Since some time nothing was dropped, what is stored may be, and every cached handle is named by
its key. -/
structure Tracked (W : Writers) (r₀ : RocksDB) (s : DbClient) : Prop where
  sourced : Sourced W s.rocks
  kept : KeysKept r₀ s.rocks
  named : ∀ name data, s.columnFamalies.lookup name = some data → data.handle.name = name

variable {W W' : Writers} {r₀ r r' : RocksDB}

/-- More may be stored. -/
theorem Sourced.mono (h : Sourced W r) (hW : ∀ name e, W name e → W' name e) : Sourced W' r :=
  fun dir name es hes e he ↦ hW name e (h dir name es hes e he)

/-- More may be stored. -/
theorem Tracked.mono {s : DbClient} (h : Tracked W r₀ s) (hW : ∀ name e, W name e → W' name e) :
    Tracked W' r₀ s := ⟨h.sourced.mono hW, h.kept, h.named⟩

/-- Nothing is stored where there is no database. -/
theorem sourced_empty : Sourced W RocksDB.empty := by
  intro dir name es hes
  cases hes

/-- No time has passed. -/
theorem keysKept_refl (r : RocksDB) : KeysKept r r :=
  fun _ _ es hes ↦ ⟨es, hes, fun e he ↦ ⟨e, he, rfl⟩⟩

/-- Storing nothing, all entries have the writers they had. -/
theorem Sourced.of_noneStored (h : Sourced W r) (hr : NoneStored r r') : Sourced W r' := by
  intro dir name es hes
  rcases hr dir name with hsame | ⟨-, hnew⟩
  · exact h dir name es (hsame ▸ hes)
  · rw [hnew] at hes
    cases hes
    simp

/-- Storing nothing, all keys are kept. -/
theorem KeysKept.of_noneStored (h : KeysKept r₀ r) (hr : NoneStored r r') : KeysKept r₀ r' := by
  intro dir name es hes
  obtain ⟨es', hes', hkeys⟩ := h dir name es hes
  rcases hr dir name with hsame | ⟨hnone, -⟩
  · exact ⟨es', hsame.trans hes', hkeys⟩
  · rw [hes'] at hnone
    cases hnone

/-! ### RocksDB -/

private theorem noneStored_update {dir : String} {d : Database}
    (hd : ∀ name, d.family name = entriesIn r dir name ∨
      entriesIn r dir name = none ∧ d.family name = some []) (db handle : Nat) :
    NoneStored r ⟨Function.update r.disk dir (some d), db, handle⟩ := by
  intro dir' name
  by_cases hne : dir' = dir
  · subst hne
    simpa [entriesIn] using hd name
  · exact Or.inl (by simp [entriesIn, Function.update_of_ne hne])

private theorem family_createMissing_cases (d : Database) (l : List String) (name : String) :
    (d.createMissing l).family name = d.family name ∨
      d.family name = none ∧ (d.createMissing l).family name = some [] := by
  induction l generalizing d with
  | nil => exact Or.inl rfl
  | cons new rest ih =>
    rw [Database.createMissing]
    split
    · exact ih d
    · next hnew =>
      by_cases hn : name = new
      · subst hn
        refine Or.inr ⟨Option.eq_none_iff_forall_ne_some.mpr fun es hes ↦
          hnew ((d.mem_names name).mpr ⟨es, hes⟩), ?_⟩
        exact Database.family_createMissing _ rest (by rw [Database.family_write, if_pos rfl])
      · have hrest := ih (d.write new [])
        rwa [Database.family_write, if_neg hn] at hrest

/-- Opening a database stores nothing, whether it succeeds or not. -/
theorem noneStored_openDB (r : RocksDB) (io : Status) (dir : String) (descriptors : List String) :
    NoneStored r (r.openDB io dir descriptors).rocks := by
  have hsame : NoneStored r r := fun _ _ ↦ Or.inl rfl
  simp only [RocksDB.openDB]
  split
  · exact hsame
  · split
    · exact hsame
    · split
      · exact hsame
      · refine noneStored_update (fun name ↦ ?_) _ _
        have hcases := family_createMissing_cases ((r.disk dir).getD Database.initial) descriptors
          name
        cases hd : r.disk dir with
        | some d =>
          rw [hd] at hcases
          simpa [entriesIn, hd] using hcases
        | none =>
          -- a new database: its folders are new and empty, those of the list and the default one
          rw [hd, Option.getD_none] at hcases
          have hnone : entriesIn r dir name = none := by rw [entriesIn, hd, Option.bind_none]
          rw [Option.getD_none, hnone]
          rcases hcases with hcases | ⟨-, hnew⟩
          · rw [hcases]
            cases hf : Database.initial.family name with
            | none => exact Or.inl rfl
            | some es => exact Or.inr ⟨rfl, congrArg some (Database.family_initial hf)⟩
          · exact Or.inr ⟨rfl, hnew⟩

/-- Nor does creating a folder. -/
theorem noneStored_createColumnFamily (r : RocksDB) (io : Status) (dir : String) (db : Nat)
    (name : String) : NoneStored r (r.createColumnFamily io dir db name).2.2 := by
  have hsame : NoneStored r r := fun _ _ ↦ Or.inl rfl
  simp only [RocksDB.createColumnFamily]
  split
  · exact hsame
  · cases hd : r.disk dir with
    | none => exact hsame
    | some d =>
      simp only
      split
      · exact hsame
      · next hnew =>
        refine noneStored_update (fun other ↦ ?_) _ _
        have hold : entriesIn r dir other = d.family other := by
          rw [entriesIn, hd, Option.bind_some]
        rw [hold, Database.family_write]
        split
        · next hn =>
          subst hn
          exact Or.inr ⟨Option.eq_none_iff_forall_ne_some.mpr fun es hes ↦
            hnew ((d.mem_names other).mpr ⟨es, hes⟩), rfl⟩
        · exact Or.inl rfl

/-! ### The client -/

section Client
open DbClient

/-- A handle has a name, if it is one. -/
def Names (folder : String) (cf : Option ColumnFamilyHandle) : Prop :=
  ∀ handle, cf = some handle → handle.name = folder

private theorem Tracked.of_noneStored {s : DbClient} (hs : Tracked W r₀ s)
    (hr : NoneStored s.rocks r') (db : Option Nat) (handles : List ColumnFamilyHandle) :
    Tracked W r₀ { s with rocks := r', db, handles } :=
  ⟨hs.sourced.of_noneStored hr, hs.kept.of_noneStored hr, hs.named⟩

private theorem tracked_cache {s : DbClient} (hs : Tracked W r₀ s) {data : ColumnFamilyData}
    {folder : String} (h : data.handle.name = folder) : Tracked W r₀ (s.cache folder data) := by
  refine ⟨hs.sourced, hs.kept, fun name data' hl ↦ ?_⟩
  by_cases hn : name = folder
  · subst hn
    rw [cache, AList.lookup_insert] at hl
    cases hl
    exact h
  · rw [cache, AList.lookup_insert_ne hn] at hl
    exact hs.named name data' hl

/-- A use of a handle that succeeds reaches the folder of its name. -/
theorem run_deref_eq_ok {s t : DbClient} {cf : Option ColumnFamilyHandle}
    {p : ColumnFamilyHandle × ColumnFamily} (h : (deref cf).run s = .ok p t) :
    t = s ∧ cf = some p.1 ∧ s.family p.1.name = some p.2 := by
  rw [deref, run_bind_of_ok (EStateM.run_get s)] at h
  cases cf with
  | none => cases h
  | some handle =>
    simp only at h
    split at h
    · cases hf : s.family handle.name with
      | none =>
        rw [hf] at h
        cases h
      | some es =>
        rw [hf] at h
        cases h
        exact ⟨rfl, rfl, hf⟩
    · cases h

/-- What a write to a folder leaves in the folders. -/
theorem entriesIn_writeFamily {s : DbClient} {folder : String} {es : ColumnFamily}
    (hf : s.family folder = some es) (es' : ColumnFamily) (dir name : String) :
    entriesIn (s.writeFamily folder es').rocks dir name =
      if dir = s.openDir ∧ name = folder then some es' else entriesIn s.rocks dir name := by
  obtain ⟨d, hd, -⟩ := Option.bind_eq_some_iff.mp hf
  have hdisk : s.rocks.disk s.openDir = some d := hd
  simp only [writeFamily, hd, entriesIn, RocksDB.setDisk]
  by_cases hdir : dir = s.openDir
  · subst hdir
    rw [Function.update_self, Option.bind_some, Database.family_write, hdisk, Option.bind_some]
    simp only [true_and]
  · rw [Function.update_of_ne hdir, if_neg fun h ↦ hdir h.1]

/-- A write of an entry that may be stored. -/
theorem tracked_writeFamily {s : DbClient} (hs : Tracked W r₀ s)
    (hdated : ∀ name e, W name e → IDComparator.Dated e.1) {folder : String} {es : ColumnFamily}
    (hf : s.family folder = some es) {key val : Bytes} (h : W folder (key, val)) :
    Tracked W r₀ (s.writeFamily folder (OrderedStore.put IDComparator.compare key val es)) := by
  have hes : entriesIn s.rocks s.openDir folder = some es := hf
  have hrest : (s.writeFamily folder
      (OrderedStore.put IDComparator.compare key val es)).columnFamalies = s.columnFamalies := by
    rw [writeFamily]
    split <;> rfl
  refine ⟨fun dir name es' hes' e he ↦ ?_, fun dir name old hold ↦ ?_,
    by rw [hrest]; exact hs.named⟩
  · rw [entriesIn_writeFamily hf] at hes'
    split at hes'
    · next hn =>
      cases hes'
      rw [hn.2]
      rcases OrderedStore.eq_or_mem_of_mem_put he with rfl | he
      · exact h
      · exact hs.sourced _ _ es hes e he
    · exact hs.sourced dir name es' hes' e he
  · obtain ⟨mid, hmid, hkeys⟩ := hs.kept dir name old hold
    rw [entriesIn_writeFamily hf]
    split
    · next hn =>
      obtain ⟨rfl, rfl⟩ := hn
      obtain rfl : es = mid := Option.some.inj (hes.symm.trans hmid)
      refine ⟨_, rfl, fun e he ↦ ?_⟩
      obtain ⟨e', he', hkey⟩ := hkeys e he
      obtain ⟨e'', he'', hkey'⟩ := OrderedStore.exists_key_mem_put IDComparator.dated_total
        (fun c hc ↦ hdated _ c (hs.sourced _ _ es hes c hc)) (hdated _ _ h) val he'
      exact ⟨e'', he'', hkey'.trans hkey⟩
    · exact ⟨mid, hmid, hkeys⟩

private theorem tracked_getColumnFamalies (io : Status) :
    Yields (Tracked W r₀) (getColumnFamalies io) (fun _ ↦ True) := by
  refine yields_bind yields_get (fun s _ ↦ ?_)
  simp only
  split
  · exact yields_pure trivial
  · exact yields_throw _

private theorem tracked_openAndCache (io : Status) (cfDescriptors : List String) :
    Yields (Tracked W r₀) (openAndCache io cfDescriptors) (fun _ ↦ True) := by
  refine yields_bind yields_get (fun s hs ↦ ?_)
  refine yields_bind (yields_set (hs.of_noneStored (noneStored_openDB s.rocks io s.openDir
    cfDescriptors) _ _)) (fun _ _ ↦ ?_)
  refine yields_bind (yields_forM (fun cf ↦ ?_)) (fun _ _ ↦ ?_)
  · exact yields_bind (yields_of_readOnly (readOnly_getUniqueRange (some cf)))
      (fun _ _ ↦ yields_modify (fun _ hs ↦ tracked_cache hs rfl))
  · split
    · exact yields_throw _
    · exact yields_pure trivial

/-- A constructor. -/
theorem tracked_construct (env : Env) :
    Yields (Tracked W r₀) (construct env) (fun _ ↦ True) :=
  yields_bind (yields_modify (fun s hs ↦ hs.of_noneStored (noneStored_openDB s.rocks _ _ _) _ _))
    (fun _ _ ↦ yields_bind (tracked_getColumnFamalies env.list)
      (fun _ _ ↦ tracked_openAndCache env.reopen _))

/-- Creating a folder. -/
theorem tracked_createColumnFamily (env : Env) (name : String) :
    Yields (Tracked W r₀) (createColumnFamily env name) (fun _ ↦ True) := by
  have hreopen (cf : Option ColumnFamilyHandle) :
      Yields (Tracked W r₀) (do
        let cfDescriptors ← getColumnFamalies env.list
        openAndCache env.reopen cfDescriptors
        return cf) (fun _ ↦ True) :=
    yields_bind (tracked_getColumnFamalies env.list) (fun _ _ ↦
      yields_bind (tracked_openAndCache env.reopen _) (fun _ _ ↦ yields_pure trivial))
  refine yields_bind yields_get (fun s hs ↦ ?_)
  cases hdb : s.db with
  | none => exact yields_throw _
  | some db =>
    have hc := noneStored_createColumnFamily s.rocks env.create s.openDir db name
    simp only
    generalize s.rocks.createColumnFamily env.create s.openDir db name = result at hc ⊢
    obtain ⟨status, cf, rocks⟩ := result
    refine yields_bind (yields_set (hs.of_noneStored hc _ _)) (fun _ _ ↦ ?_)
    split
    · split
      · exact yields_bind (yields_throw (Q := fun _ ↦ True) _) (fun _ _ ↦ hreopen cf)
      · exact hreopen cf
    · exact yields_throw _

/-- A handle that was looked up has the name it was looked up under. -/
theorem tracked_getColumnFamily (folder : String) :
    Yields (Tracked W r₀) (getColumnFamily folder) (Names folder) := by
  refine yields_bind yields_get (fun s hs ↦ yields_pure fun handle h ↦ ?_)
  obtain ⟨data, hdata, rfl⟩ := Option.map_eq_some_iff.mp h
  exact hs.named folder data hdata

/-- So has one that was created. -/
theorem tracked_getOrCreateColumnFamily (env : Env) (folder : String) :
    Yields (Tracked W r₀) (getOrCreateColumnFamily env folder) (Names folder) := by
  refine yields_bind (tracked_getColumnFamily folder) (fun found h ↦ ?_)
  split
  · exact yields_pure h
  · exact yields_bind (tracked_createColumnFamily env folder)
      (fun _ _ ↦ tracked_getColumnFamily folder)

/-- Taking the next unique number. -/
theorem tracked_fetchAdd (folder : String) :
    Yields (Tracked W r₀) (fetchAdd folder) (fun _ ↦ True) := by
  refine yields_bind yields_get (fun s hs ↦ ?_)
  cases hl : s.columnFamalies.lookup folder with
  | none => exact yields_throw _
  | some data =>
    exact yields_bind (yields_set (tracked_cache hs (hs.named folder data hl)))
      (fun _ _ ↦ yields_pure trivial)

/-- A generated identifier has the timestamp that was asked for, or the clock's. -/
theorem tracked_generateId (env : Env) (folder : String) (ts : UInt64) :
    Yields (Tracked W r₀) (generateId env folder ts)
      (fun id ↦ id.timestamp = effectiveTs env ts) := by
  refine yields_bind (tracked_getOrCreateColumnFamily env folder) (fun _ _ ↦ ?_)
  exact yields_bind (tracked_fetchAdd folder) (fun unique _ ↦ yields_pure rfl)

/-- Writing an entry that may be stored in the folder of the handle; the status is RocksDB's. -/
theorem tracked_put (hdated : ∀ name e, W name e → IDComparator.Dated e.1) {io : Status}
    (wopt : WriteOptions) {cf : Option ColumnFamilyHandle} {folder : String}
    (hcf : Names folder cf) {key val : Bytes} (h : io = .ok → W folder (key, val)) :
    Yields (Tracked W r₀) (put io wopt cf key val) (fun status ↦ status = io) := by
  intro s hs
  rw [put]
  cases hr : (deref cf).run s with
  | error failure t =>
    have hread := readOnly_deref cf s s rfl
    rw [hr] at hread
    rw [run_bind_of_error hr]
    exact hread ▸ hs
  | ok p t =>
    obtain ⟨rfl, hp, hf⟩ := run_deref_eq_ok hr
    rw [run_bind_of_ok hr]
    by_cases hio : io.isOk = true
    · simp only [hio, if_true]
      refine ⟨?_, rfl⟩
      rw [hcf _ hp] at hf ⊢
      exact tracked_writeFamily hs hdated hf (h (Status.isOk_iff.mp hio))
    · simp only [hio]
      exact ⟨hs, rfl⟩

/-- A write that fails has not begun. -/
theorem run_put_eq_error {io : Status} {wopt : WriteOptions} {cf : Option ColumnFamilyHandle}
    {key val : Bytes} {s t : DbClient} {failure : Failure}
    (h : (put io wopt cf key val).run s = .error failure t) : t = s := by
  rw [put] at h
  cases hr : (deref cf).run s with
  | error failure' t' =>
    have hread := readOnly_deref cf s s rfl
    rw [hr] at hread
    rw [run_bind_of_error hr] at h
    cases h
    exact hread
  | ok p t' =>
    rw [run_bind_of_ok hr] at h
    by_cases hio : io.isOk = true
    · simp only [hio, if_true] at h
      cases h
    · simp only [hio] at h
      cases h

/-- A write that succeeds was done through a handle of the open instance, unless RocksDB refused
it. -/
theorem run_put_eq_ok {io status : Status} {wopt : WriteOptions} {cf : Option ColumnFamilyHandle}
    {key val : Bytes} {s t : DbClient} (h : (put io wopt cf key val).run s = .ok status t) :
    status = io ∧ ∃ handle es, cf = some handle ∧ s.family handle.name = some es ∧
      t = if io.isOk then
          s.writeFamily handle.name (OrderedStore.put IDComparator.compare key val es) else s := by
  rw [put] at h
  obtain ⟨⟨handle, es⟩, r, hderef, hrun⟩ := run_bind_eq_ok.mp h
  obtain ⟨rfl, hcf, hf⟩ := run_deref_eq_ok hderef
  by_cases hio : io.isOk = true
  · simp only [hio, if_true] at hrun ⊢
    cases hrun
    exact ⟨rfl, handle, es, hcf, hf, rfl⟩
  · simp only [hio] at hrun ⊢
    cases hrun
    exact ⟨rfl, handle, es, hcf, hf, rfl⟩

end Client

/-! ### The service -/

/-- What a call may store: the entry of its message under an identifier with its timestamp. -/
def Call.Sends (pb : Protobuf) : Call → Writers
  | .save env request => fun name e => request.folder = name ∧ env.put = .ok ∧
      ∃ id : ID, id.timestamp = DbClient.effectiveTs env request.timestamp ∧
        e = (serializeID id, pb.serializeAsString (request.message id))
  | .http env _ request body => fun name e =>
    match HandlerFactory.createRequestHandler request with
    | some (.save h) => h.name = name ∧ env.put = .ok ∧
        ∃ id : ID, id.timestamp = DbClient.effectiveTs env h.timestamp ∧
          e = (serializeID id, pb.serializeAsString { id := some id, data := body })
    | _ => False
  | .get _ | .getRange .. | .getSubsample .. => fun _ _ => False

/-- What an event may store. -/
def ServiceEvent.Sends (pb : Protobuf) : ServiceEvent → Writers
  | .start .. => fun _ _ => False
  | .call c => c.Sends pb

private theorem dated_of_effectiveTs {env : Env} {ts : UInt64} {id : ID}
    (h : id.timestamp = DbClient.effectiveTs env ts) : IDComparator.Dated (serializeID id) := by
  apply IDComparator.dated_serializeID
  rw [h, DbClient.effectiveTs]
  split
  · exact env.now_ne_zero
  · next hts => exact hts

/-- What a call may store has a dated key. -/
theorem Call.dated_of_sends {pb : Protobuf} {c : Call} {name : String} {e : Slice × Bytes}
    (h : c.Sends pb name e) : IDComparator.Dated e.1 := by
  cases c with
  | save env request =>
    obtain ⟨-, -, id, hid, rfl⟩ := h
    exact dated_of_effectiveTs hid
  | http env rand request body =>
    simp only [Sends] at h
    split at h
    · obtain ⟨-, -, id, hid, rfl⟩ := h
      exact dated_of_effectiveTs hid
    · exact h.elim
  | get request => exact h.elim
  | getRange context request => exact h.elim
  | getSubsample rand request => exact h.elim

/-- What an event may store has a dated key. -/
theorem ServiceEvent.dated_of_sends {pb : Protobuf} {e : ServiceEvent} {name : String}
    {x : Slice × Bytes} (h : e.Sends pb name x) : IDComparator.Dated x.1 := by
  cases e with
  | start impl env cfg => exact h.elim
  | call c => exact Call.dated_of_sends h

section Service
variable (hdated : ∀ name e, W name e → IDComparator.Dated e.1)

include hdated

private theorem tracked_save (pb : Protobuf) {env : Env} {request : SaveRequest}
    (hW : ∀ name e, (Call.save env request).Sends pb name e → W name e) :
    Yields (Tracked W r₀) (GRPCServer.save pb env request) (fun _ ↦ True) := by
  refine yields_tryCatch (yields_bind (tracked_getOrCreateColumnFamily env _) (fun cf hcf ↦ ?_)) ?_
  · refine yields_bind (tracked_generateId env request.folder request.timestamp) (fun id hid ↦ ?_)
    refine yields_bind (tracked_put hdated request.wopt hcf fun hput ↦
      hW _ _ ⟨rfl, hput, id, hid, rfl⟩) (fun status _ ↦ ?_)
    split
    · exact yields_pure trivial
    · exact yields_pure trivial
  · intro failure
    cases failure with
    | exception what => exact yields_pure trivial
    | crash => exact yields_throw _

private theorem tracked_handleRequest (pb : Protobuf) {env : Env} {rand : Nat → Rand}
    {request : HTTPServerRequest} {body : Bytes} {h : SaveHandler}
    (hhandler : HandlerFactory.createRequestHandler request = some (.save h))
    (hW : ∀ name e, (Call.http env rand request body).Sends pb name e → W name e) :
    Yields (Tracked W r₀) (SaveHandler.handleRequest pb env h body) (fun _ ↦ True) := by
  refine yields_tryCatch (yields_bind (tracked_generateId env h.name h.timestamp)
    (fun id hid ↦ ?_)) ?_
  · refine yields_bind (tracked_getOrCreateColumnFamily env _) (fun cf hcf ↦ ?_)
    refine yields_bind (tracked_put hdated h.wopt hcf fun hput ↦ hW _ _ ?_)
      (fun _ _ ↦ yields_pure trivial)
    simp only [Call.Sends, hhandler, true_and]
    exact ⟨hput, id, hid, rfl⟩
  · intro failure
    cases failure with
    | exception what => exact yields_pure trivial
    | crash => exact yields_throw _

private theorem tracked_callServe (lib : Libraries) {c : Call}
    (hW : ∀ name e, c.Sends lib.pb name e → W name e) :
    Yields (Tracked W r₀) (c.serve lib) (fun _ ↦ True) := by
  by_cases hw : c.Writes
  · cases c with
    | save env request =>
      exact yields_bind (tracked_save hdated lib.pb hW) (fun _ _ ↦ yields_pure trivial)
    | get request => exact hw.elim
    | getRange context request => exact hw.elim
    | getSubsample rand request => exact hw.elim
    | http env rand request body =>
      have hhandler := HandlerFactory.createRequestHandler_of_put hw
      simp only [Call.serve, hhandler, Handler.handleRequest]
      exact yields_bind (tracked_handleRequest hdated lib.pb hhandler hW)
        (fun _ _ ↦ yields_pure trivial)
  · exact yields_of_readOnly (readOnly_serve lib hw)

end Service

/-- The data of a process may be stored and nothing was dropped, and a running client caches its
handles by name. -/
def TrackedProcess (W : Writers) (r₀ : RocksDB) : Process → Prop
  | .down rocks => Sourced W rocks ∧ KeysKept r₀ rocks
  | .running client => Tracked W r₀ client

/-- Such a process has data that may be stored. -/
theorem TrackedProcess.sourced {p : Process} (h : TrackedProcess W r₀ p) : Sourced W p.rocks := by
  cases p with
  | down rocks => exact h.1
  | running client => exact Tracked.sourced h

/-- Nothing of such a process was dropped. -/
theorem TrackedProcess.kept {p : Process} (h : TrackedProcess W r₀ p) : KeysKept r₀ p.rocks := by
  cases p with
  | down rocks => exact h.2
  | running client => exact Tracked.kept h

/-- More may be stored. -/
theorem TrackedProcess.mono {p : Process} (h : TrackedProcess W r₀ p)
    (hW : ∀ name e, W name e → W' name e) : TrackedProcess W' r₀ p := by
  cases p with
  | down rocks => exact ⟨h.1.mono hW, h.2⟩
  | running client => exact Tracked.mono h hW

/-- Watched from now on, nothing was dropped yet. -/
theorem TrackedProcess.since {p : Process} (h : TrackedProcess W r₀ p) :
    TrackedProcess W p.rocks p := by
  cases p with
  | down rocks => exact ⟨h.1, keysKept_refl _⟩
  | running client => exact ⟨Tracked.sourced h, keysKept_refl _, Tracked.named h⟩

section Runs
variable (lib : Libraries) (hdated : ∀ name e, W name e → IDComparator.Dated e.1)
  {p : Process} (h : TrackedProcess W r₀ p)

include hdated h

/-- An event of the service stores what it may, and drops nothing unless it takes the server
down. -/
theorem tracked_serve {e : ServiceEvent} (hW : ∀ name x, e.Sends lib.pb name x → W name x) :
    (∃ r₁, TrackedProcess W r₁ (p.serve lib e).1) ∧
      ((p.serve lib e).2 ≠ .failed .crash → TrackedProcess W r₀ (p.serve lib e).1) := by
  -- a start runs the constructor on a fresh client, a call runs on the client there is
  have hfresh (impl : Impl) (cfg : Config) : Tracked W r₀
      { impl, cfg, rocks := p.rocks, db := none, handles := [], columnFamalies := ∅ } :=
    ⟨h.sourced, h.kept, fun name data hl ↦ by cases hl⟩
  cases e with
  | start impl env cfg =>
    have hrun := tracked_construct env _ (hfresh impl cfg)
    simp only [Process.serve, DbClient.start]
    split
    · next hr =>
      rw [hr] at hrun
      exact ⟨⟨r₀, hrun.1⟩, fun _ ↦ hrun.1⟩
    · next hr =>
      rw [hr] at hrun
      exact ⟨⟨r₀, hrun.sourced, hrun.kept⟩, fun _ ↦ ⟨hrun.sourced, hrun.kept⟩⟩
  | call c =>
    cases p with
    | down rocks => exact ⟨⟨r₀, h⟩, fun _ ↦ h⟩
    | running client =>
      have hrun := tracked_callServe hdated lib hW client h
      simp only [Process.serve, Process.ask]
      split
      · next hr =>
        rw [hr] at hrun
        exact ⟨⟨r₀, hrun.1⟩, fun _ ↦ hrun.1⟩
      · next hr =>
        rw [hr] at hrun
        exact ⟨⟨r₀, hrun⟩, fun _ ↦ hrun⟩
      · next t hr =>
        rw [hr] at hrun
        exact ⟨⟨t.rocks, hrun.sourced, keysKept_refl _⟩, fun hne ↦ absurd rfl hne⟩

/-- A run stores what its events may, and drops nothing until it takes the server down. -/
theorem tracked_afterAll {events : List ServiceEvent}
    (hW : ∀ e ∈ events, ∀ name x, e.Sends lib.pb name x → W name x) :
    (∃ r₁, TrackedProcess W r₁ (p.afterAll lib events)) ∧
      ((∀ x ∈ p.log lib events, x.2 ≠ .failed .crash) →
        TrackedProcess W r₀ (p.afterAll lib events)) := by
  induction events generalizing p r₀ with
  | nil => exact ⟨⟨r₀, h⟩, fun _ ↦ h⟩
  | cons e rest ih =>
    have hrest := fun e' he' ↦ hW e' (List.mem_cons_of_mem e he')
    obtain ⟨⟨r₁, h₁⟩, h₀⟩ := tracked_serve lib hdated h (hW e List.mem_cons_self)
    exact ⟨(ih h₁ hrest).1, fun hlog ↦ (ih (h₀ (hlog _ List.mem_cons_self)) hrest).2
      fun x hx ↦ hlog x (List.mem_cons_of_mem _ hx)⟩

end Runs

/-- What a run from an empty disk leaves was sent by its events. -/
theorem tracked_from_empty (lib : Libraries) (events : List ServiceEvent) :
    ∃ r, TrackedProcess (fun name x ↦ ∃ e ∈ events, e.Sends lib.pb name x) r
      ((Process.down RocksDB.empty).afterAll lib events) := by
  have hempty : TrackedProcess (fun name x ↦ ∃ e ∈ events, e.Sends lib.pb name x) RocksDB.empty
      (Process.down RocksDB.empty) := ⟨sourced_empty, keysKept_refl _⟩
  exact (tracked_afterAll lib (fun name x ⟨e, _, he⟩ ↦ e.dated_of_sends he) hempty
    fun e he name x hx ↦ ⟨e, he, hx⟩).1

/-- In every run from an empty disk, whatever RocksDB answers and however often the server crashes
and is started, every record of every folder was sent to that folder by a `Save` or a put whose
write RocksDB reported as done, with its payload, under the timestamp it asked for or that of the
clock. -/
theorem stored_was_sent (lib : Libraries) (events : List ServiceEvent) {dir name : String}
    {es : ColumnFamily}
    (hes : entriesIn ((Process.down RocksDB.empty).afterAll lib events).rocks dir name = some es) :
    ∀ x ∈ es, ∃ e ∈ events, e.Sends lib.pb name x := by
  obtain ⟨r, hrun⟩ := tracked_from_empty lib events
  exact hrun.sourced dir name es hes

/-- A save that is written and one that is refused. -/
theorem stored_was_sent_saved :
    let lib := Libraries.wire
    let env : Env := { now := 1, now_ne_zero := by decide }
    let events : List ServiceEvent :=
      [.start .localDBClient env {}, .call (.save env { folder := "f", data := [7] }),
        .call (.save { env with put := .failed "IO error" } { folder := "f", data := [8] })]
    ∃ es, entriesIn ((Process.down RocksDB.empty).afterAll lib events).rocks "default" "f" =
        some es ∧ es ≠ [] ∧ ∀ x ∈ es, ∃ e ∈ events, e.Sends lib.pb "f" x := by
  intro lib env events
  have hstored : ∃ es ∈ entriesIn ((Process.down RocksDB.empty).afterAll lib events).rocks
      "default" "f", es ≠ [] := by decide +kernel
  obtain ⟨es, hes, hne⟩ := hstored
  exact ⟨es, hes, hne, stored_was_sent lib events hes⟩

/-- What a run from an empty disk has stored is still stored under its key after any further events,
whatever RocksDB answers, as long as none of them crashes the server. -/
theorem keys_kept (lib : Libraries) (events : List ServiceEvent) {later : List ServiceEvent}
    (hlog : ∀ x ∈ ((Process.down RocksDB.empty).afterAll lib events).log lib later,
      x.2 ≠ .failed .crash) :
    KeysKept ((Process.down RocksDB.empty).afterAll lib events).rocks
      ((Process.down RocksDB.empty).afterAll lib (events ++ later)).rocks := by
  obtain ⟨r, hrun⟩ := tracked_from_empty lib events
  have hsince : TrackedProcess (fun name x ↦ ∃ e ∈ events ++ later, e.Sends lib.pb name x) _ _ :=
    (hrun.mono fun name x ⟨e, he, hx⟩ ↦ ⟨e, List.mem_append_left _ he, hx⟩).since
  have hlater := (tracked_afterAll lib (fun name x ⟨e, _, he⟩ ↦ e.dated_of_sends he) hsince
    fun e he name x hx ↦ ⟨e, List.mem_append_right _ he, hx⟩).2 hlog
  rw [Process.afterAll_append]
  exact hlater.kept

/-- A save over another one, and a failed creation of a folder. -/
theorem keys_kept_saved :
    let lib := Libraries.wire
    let env : Env := { now := 1, now_ne_zero := by decide }
    let events : List ServiceEvent :=
      [.start .localDBClient env {},
        .call (.save env { folder := "f", data := [7], timestamp := 5 })]
    let later : List ServiceEvent :=
      [.call (.save { env with reopen := .failed "IO error" } { folder := "g", data := [8] }),
        .start .localDBClient env {},
        .call (.save env { folder := "f", data := [9], timestamp := 5 })]
    KeysKept ((Process.down RocksDB.empty).afterAll lib events).rocks
      ((Process.down RocksDB.empty).afterAll lib (events ++ later)).rocks := by
  intro lib env events later
  exact keys_kept lib events (show ∀ x ∈ ((Process.down RocksDB.empty).afterAll lib events).log lib
    later, x.2 ≠ .failed .crash by decide +kernel)

end TimeMachine.Server
