import TimeMachine.Interleaved.Programs
import TimeMachine.Server.ReadSources

/-!
# Where the records come from, side by side

Whatever RocksDB answers to the requests that are served side by side, and however often
the server crashes and is started again on every write RocksDB took: each record is one
that a request wrote, under the identifier it made for it; each request writes once at
most, what it was asked to; the keys of the writes stay; and a read shows what was
written before its answer, also by a save that has not answered yet.
-/

namespace TimeMachine.Interleaved
open TimeMachine.Base TimeMachine.Base.StateError TimeMachine.Store TimeMachine.Client
open TimeMachine.Server DbClient Threads

/-- The request asks for the message in the folder, under the identifier. -/
def Incoming.Asks (folder : String) (id : ID) (message : Data) : Incoming → Prop
  | .save request => request.folder = folder ∧ message = request.message id
  | .http _ request body =>
    match HandlerFactory.createRequestHandler request with
    | some (.save handler) => handler.name = folder ∧ message = { id := some id, data := body }
    | _ => False
  | .get _ | .getRange .. | .getSubsample .. => False

/-- The timestamp the request asks for; zero asks for the clock's. -/
def Incoming.timestamp : Incoming → UInt64
  | .save request => request.timestamp
  | .http _ request _ =>
    match HandlerFactory.createRequestHandler request with
    | some (.save handler) => handler.timestamp
    | _ => 0
  | .get _ | .getRange .. | .getSubsample .. => 0

/-- The folder the request reads. -/
def Incoming.source : Incoming → Option String
  | .get request => some request.folder
  | .getRange _ request => some request.folder
  | .getSubsample _ request => some request.folder
  | .http _ request _ =>
    match HandlerFactory.createRequestHandler request with
    | some (.getRange handler) => some handler.name
    | some (.subsampling handler) => some handler.name
    | _ => none
  | .save _ => none

section History
variable (i : Nat) (h : History)

/-- The thread has not written. -/
def Unwritten : Prop := ∀ folder id message, .did i (.wrote folder id message) ∉ h

/-- The timestamp is the one asked for, or one the thread has read off the clock. -/
def Stamped (ts timestamp : UInt64) : Prop :=
  if ts = 0 then .did i (.clocked timestamp) ∈ h else timestamp = ts

/-- The thread may write: its request asks for it, with the timestamp of the identifier, and it has
not written before. -/
structure MayWrite (folder : String) (id : ID) (message : Data) : Prop where
  asked : ∃ request, .arrived i request ∈ h ∧ request.Asks folder id message ∧
    Stamped i h request.timestamp id.timestamp
  first : Unwritten i h

/-- What the writes so far have stored. -/
def Written (pb : Protobuf) : Writers := fun folder e ↦
  ∃ id message, .wrote folder id message ∈ effects h ∧
    e = (serializeID id, pb.serializeAsString message)

end History

/-! ### The invariant -/

/-- What is stored was written and what was written is still stored; cached handles are named by
their keys; each write was one the thread was allowed. -/
structure Traced (pb : Protobuf) (dir : String) (s : DbClient) (h : History) : Prop where
  sourced : Sourced (Written h pb) s.rocks
  present : ∀ folder e, Written h pb folder e →
    ∃ es, entriesIn s.rocks dir folder = some es ∧ ∃ e' ∈ es, e'.1 = e.1
  named : ∀ name data, s.columnFamalies.lookup name = some data → data.handle.name = name
  openDir : s.openDir = dir
  allowed : ∀ h₁ i folder id message h₂, h = h₁ ++ .did i (.wrote folder id message) :: h₂ →
    MayWrite i h₁ folder id message
  clocked : ∀ i now, .did i (.clocked now) ∈ h → now ≠ 0

variable {pb : Protobuf} {dir : String} {s t : DbClient} {h h' : History} {i : Nat}

/-- The message of a request carries its identifier. -/
theorem Incoming.Asks.carries {request : Incoming} {folder : String} {id : ID} {message : Data}
    (hasks : request.Asks folder id message) : message.id = some id := by
  cases request with
  | save request => rw [hasks.2, SaveRequest.message]
  | http rand request body =>
    simp only [Incoming.Asks] at hasks
    split at hasks
    · rw [hasks.2]
    · exact hasks.elim
  | get request => exact hasks.elim
  | getRange context request => exact hasks.elim
  | getSubsample rand request => exact hasks.elim

/-- Of a write, the history goes on to tell. -/
theorem Written.mono {folder : String} {e : Slice × Bytes} (hw : Written h pb folder e)
    (hpre : h <+: h') : Written h' pb folder e := by
  obtain ⟨id, message, hmem, heq⟩ := hw
  exact ⟨id, message, (effects_isPrefix hpre).subset hmem, heq⟩

/-- What the thread may write has a timestamp. -/
theorem MayWrite.timestamp_ne_zero {folder : String} {id : ID} {message : Data}
    (hmay : MayWrite i h folder id message)
    (hclocked : ∀ i now, .did i (.clocked now) ∈ h → now ≠ 0) : id.timestamp ≠ 0 := by
  obtain ⟨request, -, -, hstamped⟩ := hmay.asked
  unfold Stamped at hstamped
  split at hstamped
  · exact hclocked i _ hstamped
  · next hne => rwa [hstamped]

private theorem Traced.exists_asks (hs : Traced pb dir s h) {folder : String} {id : ID}
    {message : Data} (hmem : .wrote folder id message ∈ effects h) :
    message.id = some id ∧ id.timestamp ≠ 0 := by
  obtain ⟨i, hi⟩ := mem_effects.mp hmem
  obtain ⟨h₁, h₂, rfl⟩ := List.append_of_mem hi
  have hmay := hs.allowed h₁ i folder id message h₂ rfl
  obtain ⟨request, -, hasks, -⟩ := hmay.asked
  refine ⟨hasks.carries, hmay.timestamp_ne_zero fun j now hnow ↦ ?_⟩
  exact hs.clocked j now (List.mem_append_left _ hnow)

/-- The messages carry the identifiers they were written under. -/
theorem Traced.carriesIDs (hs : Traced pb dir s h) : CarriesIDs pb (Written h pb) := by
  rintro folder e ⟨id, message, hmem, rfl⟩
  exact ⟨message, id, (hs.exists_asks hmem).1, rfl⟩

/-- The keys of the writes are dated. -/
theorem Traced.dated (hs : Traced pb dir s h) (folder : String) (e : Slice × Bytes)
    (he : Written h pb folder e) : IDComparator.Dated e.1 := by
  obtain ⟨id, message, hmem, rfl⟩ := he
  exact IDComparator.dated_serializeID (hs.exists_asks hmem).2

/-- From now on nothing was dropped. -/
theorem Traced.tracked (hs : Traced pb dir s h) : Tracked (Written h pb) s.rocks s :=
  ⟨hs.sourced, keysKept_refl _, hs.named⟩

/-- Code that drops nothing, and does not open another directory. -/
theorem Traced.of_tracked (hs : Traced pb dir s h)
    (ht : Tracked (Written h pb) s.rocks t) (hdir : t.openDir = dir) : Traced pb dir t h := by
  constructor
  · exact ht.sourced
  · intro folder e he
    obtain ⟨es, hes, e', he', hkey⟩ := hs.present folder e he
    obtain ⟨es', hes', hkeys⟩ := ht.kept dir folder es hes
    obtain ⟨e'', he'', hkey'⟩ := hkeys e' he'
    exact ⟨es', hes', e'', he'', hkey'.trans hkey⟩
  · exact ht.named
  · exact hdir
  · exact hs.allowed
  · exact hs.clocked

/-- Records of anything but writes. -/
theorem Traced.append (hs : Traced pb dir s h) {w : History}
    (hw : ∀ i folder id message, .did i (.wrote folder id message) ∉ w)
    (hclock : ∀ i now, .did i (.clocked now) ∈ w → now ≠ 0) : Traced pb dir s (h ++ w) := by
  have hwritten {folder : String} {e : Slice × Bytes} :
      Written (h ++ w) pb folder e ↔ Written h pb folder e := by
    constructor
    · rintro ⟨id, message, hmem, heq⟩
      obtain ⟨j, hj⟩ := mem_effects.mp hmem
      have hold := (List.mem_append.mp hj).resolve_right (hw j folder id message)
      exact ⟨id, message, mem_effects.mpr ⟨j, hold⟩, heq⟩
    · exact fun hold ↦ hold.mono (List.prefix_append h w)
  constructor
  · exact hs.sourced.mono fun name e ↦ hwritten.mpr
  · exact fun folder e he ↦ hs.present folder e (hwritten.mp he)
  · exact hs.named
  · exact hs.openDir
  · intro h₁ i folder id message h₂ heq
    obtain ⟨h₂', hold⟩ := exists_append_of_notMem (hw i folder id message) heq
    exact hs.allowed h₁ i folder id message h₂' hold
  · intro i now hmem
    rcases List.mem_append.mp hmem with hold | hnew
    · exact hs.clocked i now hold
    · exact hclock i now hnew

/-! ### The open directory -/

private abbrev Stays (dir : String) {β : Type} (x : ClientM β) : Prop :=
  Yields (fun s ↦ s.openDir = dir) x fun _ ↦ True

private theorem stays_getColumnFamalies (io : Status) : Stays dir (getColumnFamalies io) := by
  apply yields_bind yields_get
  intro s _
  simp only
  split
  · exact yields_pure trivial
  · exact yields_throw _

private theorem stays_openAndCache (io : Status) (cfDescriptors : List String) :
    Stays dir (openAndCache io cfDescriptors) := by
  refine yields_bind yields_get fun s hs ↦ ?_
  refine yields_bind (yields_set hs) fun _ _ ↦ ?_
  refine yields_bind (yields_forM fun cf ↦ ?_) fun _ _ ↦ ?_
  · exact yields_bind (yields_of_readOnly (readOnly_getUniqueRange (some cf)))
      fun _ _ ↦ yields_modify fun _ hs ↦ hs
  · split
    · exact yields_throw _
    · exact yields_pure trivial

private theorem stays_construct (env : Env) : Stays dir (construct env) :=
  yields_bind (yields_modify fun _ hs ↦ hs) fun _ _ ↦
    yields_bind (stays_getColumnFamalies env.list) fun _ _ ↦ stays_openAndCache env.reopen _

private theorem stays_createColumnFamily (env : Env) (name : String) :
    Stays dir (DbClient.createColumnFamily env name) := by
  have hreopen (cf : Option ColumnFamilyHandle) : Stays dir (do
      let cfDescriptors ← getColumnFamalies env.list
      openAndCache env.reopen cfDescriptors
      return cf) := by
    apply yields_bind (stays_getColumnFamalies env.list)
    intro cfDescriptors _
    apply yields_bind (stays_openAndCache env.reopen cfDescriptors)
    intro _ _
    exact yields_pure trivial
  apply yields_bind yields_get
  intro s hs
  cases hdb : s.db with
  | none => exact yields_throw _
  | some db =>
    simp only
    generalize s.rocks.createColumnFamily env.create s.openDir db name = result
    obtain ⟨status, cf, rocks⟩ := result
    refine yields_bind (yields_set hs) fun _ _ ↦ ?_
    split
    · split
      · exact yields_bind (yields_throw (Q := fun _ ↦ True) _) fun _ _ ↦ hreopen cf
      · exact hreopen cf
    · exact yields_throw _

private theorem stays_fetchAdd (folder : String) : Stays dir (DbClient.fetchAdd folder) := by
  refine yields_bind yields_get fun s hs ↦ ?_
  cases s.columnFamalies.lookup folder with
  | none => exact yields_throw _
  | some data => exact yields_bind (yields_set hs) fun _ _ ↦ yields_pure trivial

private theorem openDir_writeFamily (s : DbClient) (name : String) (es : ColumnFamily) :
    (s.writeFamily name es).openDir = s.openDir := by
  rw [writeFamily]
  split <;> rfl

/-- A start, whether it succeeds or not. -/
theorem traced_boot (env : Env) (hs : Traced pb dir s h) :
    match (boot env).run s with
    | .ok () t => Traced pb dir t h
    | .error _ t => Traced pb dir t h := by
  obtain ⟨fresh, hfresh⟩ : ∃ fresh : DbClient, fresh =
      { impl := s.impl, cfg := s.cfg, rocks := s.rocks, db := none, handles := []
        columnFamalies := ∅ } := ⟨_, rfl⟩
  have htracked : Tracked (Written h pb) s.rocks fresh := by
    rw [hfresh]
    exact ⟨hs.sourced, keysKept_refl _, fun name data hl ↦ by cases hl⟩
  have hopen : fresh.openDir = dir := by
    rw [hfresh]
    exact hs.openDir
  have ht := tracked_construct env fresh htracked
  have hd := stays_construct env fresh hopen
  have hrun : (boot env).run s = (construct env).run fresh := by
    rw [hfresh]
    rfl
  rw [hrun]
  cases hr : (construct env).run fresh with
  | ok a t =>
    rw [hr] at ht hd
    exact hs.of_tracked ht.1 hd.1
  | error e t =>
    rw [hr] at ht hd
    exact hs.of_tracked ht hd

/-! ### The steps of the client -/

/-- Nor has it written later, if it took no step since. -/
theorem Unwritten.later (hno : Unwritten i h) (hl : Later i h h') : Unwritten i h' :=
  fun folder id message hmem ↦ hno folder id message (hl.did_mem_iff.mp hmem)

/-- The clock was read. -/
theorem Stamped.mono {ts timestamp : UInt64} (hstamped : Stamped i h ts timestamp)
    (hpre : h <+: h') : Stamped i h' ts timestamp := by
  unfold Stamped at hstamped ⊢
  split
  · next hzero =>
    rw [if_pos hzero] at hstamped
    exact hpre.subset hstamped
  · next hne => rwa [if_neg hne] at hstamped

/-- The program keeps what is known of the records, its thread does not write, and its result has a
property. -/
abbrev Traces (pb : Protobuf) (dir : String) (i : Nat) {β : Type} (Q : History → β → Prop) :
    Program β → History → Prop :=
  Keeps (fun _ ↦ True) (Traced pb dir) (fun h' _ ↦ Unwritten i h') i
    fun h' b ↦ Unwritten i h' ∧ Q h' b

section Traces
variable {β : Type} (hno : Unwritten i h)

include hno

private theorem traces_atomic {x : Env → ClientM β} {note : β → List Effect}
    {R : Writers → β → Prop}
    (hx : ∀ env W r₀, CarriesIDs pb W → Yields (Tracked W r₀) (x env) (R W))
    (hdir : ∀ env, Stays dir (x env))
    (hmono : ∀ {W W' : Writers} b, (∀ name e, W name e → W' name e) → R W b → R W' b)
    (hnote : ∀ b, ∀ e ∈ note b, ∃ folder, e = .created folder) :
    Traces pb dir i (fun h' b ↦ R (Written h' pb) b) (.atomic x note) h := by
  apply keeps_atomic
  intro env s h' _ hl hs
  have ht := hx env (Written h' pb) s.rocks hs.carriesIDs s hs.tracked
  have hd := hdir env s hs.openDir
  cases hr : (x env).run s with
  | ok b t =>
    rw [hr] at ht hd
    have hwrote (folder : String) (id : ID) (message : Data) :
        .wrote folder id message ∉ note b := fun hmem ↦ by
      obtain ⟨_, heq⟩ := hnote b _ hmem
      cases heq
    have hclocked (now : UInt64) : .clocked now ∉ note b := fun hmem ↦ by
      obtain ⟨_, heq⟩ := hnote b _ hmem
      cases heq
    constructor
    · apply (hs.of_tracked ht.1 hd.1).append
      · exact fun j folder id message hmem ↦ hwrote folder id message (did_mem_map.mp hmem).2
      · exact fun j now hmem ↦ absurd (did_mem_map.mp hmem).2 (hclocked now)
    · intro h'' hl'
      constructor
      · intro folder id message hmem
        rcases List.mem_append.mp (hl'.did_mem_iff.mp hmem) with hold | hnew
        · exact hno.later hl folder id message hold
        · exact hwrote folder id message (did_mem_map.mp hnew).2
      · exact hmono b (fun name e he ↦ he.mono
          ((List.prefix_append h' _).trans hl'.isPrefix)) ht.2
  | error e t =>
    rw [hr] at ht hd
    exact ⟨hs.of_tracked ht hd, hno.later hl⟩

/-- Code that does not write, and records nothing. -/
theorem traces_quiet {x : ClientM β} {R : Writers → β → Prop}
    (hx : ∀ W r₀, CarriesIDs pb W → Yields (Tracked W r₀) x (R W)) (hread : ReadOnly x)
    (hmono : ∀ {W W' : Writers} b, (∀ name e, W name e → W' name e) → R W b → R W' b) :
    Traces pb dir i (fun h' b ↦ R (Written h' pb) b) (quiet x) h :=
  traces_atomic hno (fun _ ↦ hx) (fun _ ↦ yields_of_readOnly hread) hmono (by simp)

/-- Code that only reads. -/
theorem traces_readOnly {x : ClientM β} (hread : ReadOnly x) :
    Traces pb dir i (fun _ _ ↦ True) (quiet x) h :=
  traces_quiet hno (fun _ _ _ ↦ yields_of_readOnly hread) hread fun _ _ _ ↦ trivial

/-- Looking a folder up. -/
theorem traces_getColumnFamily (name : String) :
    Traces pb dir i (fun _ cf ↦ Names name cf) (getColumnFamily name) h :=
  traces_quiet hno (fun _ _ _ ↦ tracked_getColumnFamily name) (readOnly_getColumnFamily name)
    fun _ _ hcf ↦ hcf

/-- Creating a folder. -/
theorem traces_createColumnFamily (name : String) :
    Traces pb dir i (fun _ _ ↦ True) (createColumnFamily name) h :=
  traces_atomic hno (fun env _ _ _ ↦ tracked_createColumnFamily env name)
    (fun env ↦ stays_createColumnFamily env name) (fun _ _ _ ↦ trivial) (by simp)

/-- Taking the next unique number. -/
theorem traces_fetchAdd (folder : String) :
    Traces pb dir i (fun _ _ ↦ True) (quiet (DbClient.fetchAdd folder)) h :=
  traces_atomic hno (fun _ _ _ _ ↦ tracked_fetchAdd folder) (fun _ ↦ stays_fetchAdd folder)
    (fun _ _ _ ↦ trivial) (by simp)

/-- Looking a folder up, or creating it. -/
theorem traces_getOrCreateColumnFamily (name : String) :
    Traces pb dir i (fun _ cf ↦ Names name cf) (getOrCreateColumnFamily name) h := by
  apply (traces_getColumnFamily hno name).bind
  rintro found h₁ - ⟨hno₁, hfound⟩
  apply keeps_ite
  · intro _
    exact keeps_pure fun h₂ hl ↦ ⟨hno₁.later hl, hfound⟩
  · intro _
    apply (traces_createColumnFamily hno₁ name).bind
    rintro _ h₂ - ⟨hno₂, -⟩
    exact traces_getColumnFamily hno₂ name

/-- Reading the clock. -/
theorem traces_clock :
    Traces pb dir i (fun h' now ↦ .did i (.clocked now) ∈ h') clock h := by
  apply keeps_atomic
  intro env s h' _ hl hs
  refine ⟨hs.append (by simp) ?_, fun h'' hl' ↦ ⟨?_, ?_⟩⟩
  · intro j now hmem
    have heq := List.mem_singleton.mp hmem
    cases heq
    exact env.now_ne_zero
  · intro folder id message hmem
    rcases List.mem_append.mp (hl'.did_mem_iff.mp hmem) with hold | hnew
    · exact hno.later hl folder id message hold
    · simp at hnew
  · exact hl'.did_mem_iff.mpr (List.mem_append_right h' (List.mem_singleton_self _))

/-- Generating an identifier. -/
theorem traces_generateId (folder : String) (ts : UInt64) :
    Traces pb dir i (fun h' id ↦ Stamped i h' ts id.timestamp) (generateId folder ts) h := by
  have hts : Traces pb dir i (fun h' timestamp ↦ Stamped i h' ts timestamp)
      (if ts = 0 then clock else pure ts) h := by
    apply keeps_ite
    · intro hzero
      simp only [Stamped, if_pos hzero]
      exact traces_clock hno
    · intro hne
      simp only [Stamped, if_neg hne]
      exact keeps_pure fun h₁ hl ↦ ⟨hno.later hl, rfl⟩
  apply hts.bind
  rintro timestamp h₁ - ⟨hno₁, hstamped⟩
  apply (traces_getOrCreateColumnFamily hno₁ folder).bind
  rintro _ h₂ hpre ⟨hno₂, -⟩
  apply (traces_fetchAdd hno₂ folder).bind
  rintro unique h₃ hpre' ⟨hno₃, -⟩
  exact keeps_pure fun h₄ hl ↦ ⟨hno₃.later hl,
    hstamped.mono ((hpre.trans hpre').trans hl.isPrefix)⟩

end Traces

/-! ### Writing -/

private theorem written_append {folder folder' : String} {id : ID} {message : Data}
    {e : Slice × Bytes} (he : Written (h ++ [.did i (.wrote folder id message)]) pb folder' e) :
    Written h pb folder' e ∨
      folder' = folder ∧ e = (serializeID id, pb.serializeAsString message) := by
  obtain ⟨id', message', hmem, heq⟩ := he
  obtain ⟨j, hj⟩ := mem_effects.mp hmem
  rcases List.mem_append.mp hj with hold | hlast
  · exact Or.inl ⟨id', message', mem_effects.mpr ⟨j, hold⟩, heq⟩
  · cases List.mem_singleton.mp hlast
    exact Or.inr ⟨rfl, heq⟩

private theorem Traced.wrote (hs : Traced pb dir s h) {handle : ColumnFamilyHandle} {id : ID}
    {message : Data} (hmay : MayWrite i h handle.name id message) {es : ColumnFamily}
    (hes : s.family handle.name = some es) :
    Traced pb dir (s.writeFamily handle.name (OrderedStore.put IDComparator.compare
        (serializeID id) (pb.serializeAsString message) es))
      (h ++ [.did i (.wrote handle.name id message)]) := by
  have hpre := List.prefix_append h [Record.did i (Effect.wrote handle.name id message)]
  have hnew : Written (h ++ [.did i (.wrote handle.name id message)]) pb handle.name
      (serializeID id, pb.serializeAsString message) :=
    ⟨id, message, mem_effects.mpr ⟨i, List.mem_append_right h (List.mem_singleton_self _)⟩, rfl⟩
  have hdated (name : String) (e : Slice × Bytes)
      (he : Written (h ++ [.did i (.wrote handle.name id message)]) pb name e) :
      IDComparator.Dated e.1 := by
    rcases written_append he with hold | ⟨-, rfl⟩
    · exact hs.dated name e hold
    · exact IDComparator.dated_serializeID (hmay.timestamp_ne_zero hs.clocked)
  have ht := tracked_writeFamily (hs.tracked.mono fun name e he ↦ he.mono hpre) hdated hes hnew
  constructor
  · exact ht.sourced
  · intro folder e he
    rcases written_append he with hold | ⟨rfl, rfl⟩
    · obtain ⟨es', hes', e', he', hkey⟩ := hs.present folder e hold
      obtain ⟨es'', hes'', hkeys⟩ := ht.kept dir folder es' hes'
      obtain ⟨e'', he'', hkey'⟩ := hkeys e' he'
      exact ⟨es'', hes'', e'', he'', hkey'.trans hkey⟩
    · have hstored := entriesIn_writeFamily hes (OrderedStore.put IDComparator.compare
        (serializeID id) (pb.serializeAsString message) es) dir handle.name
      rw [if_pos ⟨hs.openDir.symm, rfl⟩] at hstored
      exact ⟨_, hstored, _, OrderedStore.mem_put_self _ _ es, rfl⟩
  · exact ht.named
  · exact (openDir_writeFamily s handle.name _).trans hs.openDir
  · intro h₁ j folder id' message' h₂ heq
    rcases cases_of_append_singleton heq with ⟨rfl, hlast⟩ | ⟨h₂', hold⟩
    · cases hlast
      exact hmay
    · exact hs.allowed h₁ j folder id' message' h₂' hold
  · intro j now hmem
    rcases List.mem_append.mp hmem with hold | hlast
    · exact hs.clocked j now hold
    · simp at hlast

/-- Writing what the request asks for, to the folder of a handle. -/
theorem traces_put {request : Incoming} {folder : String} {id : ID} {message : Data}
    (hno : Unwritten i h) (harrived : .arrived i request ∈ h)
    (hasks : request.Asks folder id message) (hstamped : Stamped i h request.timestamp id.timestamp)
    (wopt : WriteOptions) {cf : Option ColumnFamilyHandle} (hcf : Names folder cf) :
    Keeps (fun _ ↦ True) (Traced pb dir) (fun h' _ ↦ Unwritten i h') i
      (fun h' putStatus ↦
        if putStatus.isOk then .did i (.wrote folder id message) ∈ h' else Unwritten i h')
      (put pb wopt cf folder id message) h := by
  apply keeps_atomic
  intro env s h' _ hl hs
  have hno' := hno.later hl
  have hmay : MayWrite i h' folder id message :=
    ⟨⟨request, hl.isPrefix.subset harrived, hasks, hstamped.mono hl.isPrefix⟩, hno'⟩
  cases hr : (DbClient.put env.put wopt cf (serializeID id)
      (pb.serializeAsString message)).run s with
  | error e t =>
    rw [run_put_eq_error hr]
    exact ⟨hs, hno'⟩
  | ok putStatus t =>
    obtain ⟨rfl, handle, es, hhandle, hes, rfl⟩ := run_put_eq_ok hr
    obtain rfl : handle.name = folder := hcf handle hhandle
    simp only
    split
    · refine ⟨hs.wrote hmay hes, fun h'' hl' ↦ ?_⟩
      exact hl'.did_mem_iff.mpr (List.mem_append_right h' (List.mem_singleton_self _))
    · rw [List.map_nil, List.append_nil]
      exact ⟨hs, fun h'' hl' ↦ hno'.later hl'⟩

end TimeMachine.Interleaved
