import TimeMachine.Server.Process
import TimeMachine.Client.Bounds
import TimeMachine.Base.StateError

/-!
# What is stored

Every record of every folder sits under the sixteen-byte key of an identifier with a
timestamp and carries that identifier, and the records are in unsigned lexicographic
order, whatever the server was asked, whatever RocksDB answered, and however often it
was started. Both ways of saving build the key and the embedded identifier from one
generated identifier, whose timestamp is never zero.
-/

namespace TimeMachine.Server
open TimeMachine.Base TimeMachine.Base.StateError TimeMachine.Store TimeMachine.Client

variable (pb : Protobuf)

/-- The records of a folder as the server writes them. -/
structure Stored (es : ColumnFamily) : Prop where
  kept : OrderedStore.Kept IDComparator.compare IDComparator.Dated es
  embedded : ∀ e ∈ es, (pb.parseFromString e.2).id = some (deserializeID e.1)

/-- Every folder of every database has a property. -/
def EveryFolder (P : ColumnFamily → Prop) (r : RocksDB) : Prop :=
  ∀ dir d name es, r.disk dir = some d → d.family name = some es → P es

/-- All folders of all databases are stored that way. -/
def StoreInvariant (r : RocksDB) : Prop := EveryFolder (Stored pb) r

/-- The invariant of a client is that of its storage engine. -/
def Sound (s : DbClient) : Prop := StoreInvariant pb s.rocks

variable {pb}

/-- The empty folder. -/
theorem stored_nil : Stored pb [] := ⟨OrderedStore.kept_nil, by simp⟩

/-- Writing a message under the key of its identifier. -/
theorem stored_put {es : ColumnFamily} (h : Stored pb es) {id : ID} (hid : id.timestamp ≠ 0)
    {d : Data} (hd : d.id = some id) :
    Stored pb (OrderedStore.put IDComparator.compare (serializeID id) (pb.serializeAsString d)
      es) := by
  have hkey := IDComparator.dated_serializeID hid
  refine ⟨OrderedStore.kept_put IDComparator.dated_total h.kept hkey _, ?_⟩
  intro e he
  rcases (OrderedStore.mem_put IDComparator.dated_total h.kept hkey _ e).mp he with rfl | ⟨he, -⟩
  · rw [pb.parse_serialize, hd, deserializeID_serializeID]
  · exact h.embedded e he

/-! ### RocksDB -/

/-- No database at all. -/
theorem storeInvariant_empty : StoreInvariant pb RocksDB.empty := by
  intro dir d name es hd
  cases hd

private theorem stored_createMissing {d : Database} (l : List String)
    (h : ∀ name es, d.family name = some es → Stored pb es) {name : String} {es : ColumnFamily}
    (he : (d.createMissing l).family name = some es) : Stored pb es := by
  induction l generalizing d with
  | nil => exact h name es he
  | cons new rest ih =>
    rw [Database.createMissing] at he
    split at he
    · exact ih h he
    · refine ih (fun other es' he' ↦ ?_) he
      rw [Database.family_write] at he'
      split at he'
      · cases he'
        exact stored_nil
      · exact h other es' he'

private theorem storeInvariant_update {r : RocksDB} (h : StoreInvariant pb r) {dir : String}
    {d : Database} (hd : ∀ name es, d.family name = some es → Stored pb es) (db handle : Nat) :
    StoreInvariant pb ⟨Function.update r.disk dir (some d), db, handle⟩ := by
  intro dir' d' name es hdir hes
  by_cases hne : dir' = dir
  · subst hne
    have hdd : d = d' := by simpa using hdir
    exact hd name es (hdd ▸ hes)
  · have hdir : r.disk dir' = some d' := by simpa [Function.update_of_ne hne] using hdir
    exact h dir' d' name es hdir hes

/-- Opening a database, whether it succeeds or not. -/
theorem storeInvariant_openDB {r : RocksDB} (h : StoreInvariant pb r) (io : Status) (dir : String)
    (descriptors : List String) : StoreInvariant pb (r.openDB io dir descriptors).rocks := by
  have hold : ∀ name es, ((r.disk dir).getD Database.initial).family name = some es →
      Stored pb es := by
    intro name es hes
    cases hd : r.disk dir with
    | none =>
      rw [hd] at hes
      rw [Database.family_initial hes]
      exact stored_nil
    | some d =>
      rw [hd] at hes
      exact h dir d name es hd hes
  simp only [RocksDB.openDB]
  split
  · exact h
  · split
    · exact h
    · split
      · exact h
      · exact storeInvariant_update h (fun _ _ ↦ stored_createMissing descriptors hold) _ _

/-- Creating a folder, whether it succeeds or not. -/
theorem storeInvariant_createColumnFamily {r : RocksDB} (h : StoreInvariant pb r) (io : Status)
    (dir : String) (db : Nat) (name : String) :
    StoreInvariant pb (r.createColumnFamily io dir db name).2.2 := by
  simp only [RocksDB.createColumnFamily]
  split
  · exact h
  · cases hd : r.disk dir with
    | none => exact h
    | some d =>
      simp only
      split
      · exact h
      · refine storeInvariant_update h (fun other es hes ↦ ?_) _ _
        rw [Database.family_write] at hes
        split at hes
        · cases hes
          exact stored_nil
        · exact h dir d other es hd hes

/-! ### The client -/

section Client
open DbClient

private theorem sound_writeFamily {s : DbClient} (hs : Sound pb s) (name : String)
    {es : ColumnFamily} (hes : Stored pb es) : Sound pb (s.writeFamily name es) := by
  rw [writeFamily]
  cases hd : s.database with
  | none => exact hs
  | some d =>
    refine storeInvariant_update hs (fun other es' hes' ↦ ?_) _ _
    rw [Database.family_write] at hes'
    split at hes'
    · cases hes'
      exact hes
    · exact hs s.openDir d other es' hd hes'

/-- Using a handle reaches a folder as the server writes it. -/
theorem yields_deref (cf : Option ColumnFamilyHandle) :
    Yields (Sound pb) (deref cf) (fun p ↦ Stored pb p.2) := by
  refine yields_bind yields_get (fun s hs ↦ ?_)
  cases cf with
  | none => exact yields_throw _
  | some handle =>
    simp only
    split
    · cases hf : s.family handle.name with
      | none => exact yields_throw _
      | some es =>
        obtain ⟨d, hd, he⟩ := Option.bind_eq_some_iff.mp hf
        exact yields_pure (hs _ d _ es hd he)
    · exact yields_throw _

/-- Listing the folders. -/
theorem yields_getColumnFamalies (io : Status) :
    Yields (Sound pb) (getColumnFamalies io) (fun _ ↦ True) := by
  refine yields_bind yields_get (fun s _ ↦ ?_)
  simp only
  split
  · exact yields_pure trivial
  · exact yields_throw _

/-- Opening the database and filling the cache. -/
theorem yields_openAndCache (io : Status) (cfDescriptors : List String) :
    Yields (Sound pb) (openAndCache io cfDescriptors) (fun _ ↦ True) := by
  refine yields_bind yields_get (fun s hs ↦ ?_)
  refine yields_bind (yields_set (storeInvariant_openDB hs io s.openDir cfDescriptors))
    (fun _ _ ↦ ?_)
  refine yields_bind (yields_forM (fun cf ↦ ?_)) (fun _ _ ↦ ?_)
  · refine yields_bind (yields_bind (yields_deref (some cf)) (fun _ _ ↦ yields_pure trivial))
      (fun _ (_ : True) ↦ yields_modify (fun _ hs ↦ hs))
  · split
    · exact yields_throw _
    · exact yields_pure trivial

/-- Creating a folder. -/
theorem yields_createColumnFamily (env : Env) (name : String) :
    Yields (Sound pb) (createColumnFamily env name) (fun _ ↦ True) := by
  have hreopen (cf : Option ColumnFamilyHandle) :
      Yields (Sound pb) (do
        let cfDescriptors ← getColumnFamalies env.list
        openAndCache env.reopen cfDescriptors
        return cf) (fun _ ↦ True) :=
    yields_bind (yields_getColumnFamalies env.list) (fun _ _ ↦
      yields_bind (yields_openAndCache env.reopen _) (fun _ _ ↦ yields_pure trivial))
  refine yields_bind yields_get (fun s hs ↦ ?_)
  cases s.db with
  | none => exact yields_throw _
  | some db =>
    have hc := storeInvariant_createColumnFamily hs env.create s.openDir db name
    simp only
    generalize s.rocks.createColumnFamily env.create s.openDir db name = result at hc ⊢
    obtain ⟨status, cf, rocks⟩ := result
    refine yields_bind (yields_set (show Sound pb { s with rocks } from hc)) (fun _ _ ↦ ?_)
    split
    · split
      · exact yields_bind (yields_throw (Q := fun _ ↦ True) _) (fun _ _ ↦ hreopen cf)
      · exact hreopen cf
    · exact yields_throw _

/-- Looking a folder up. -/
theorem yields_getColumnFamily (name : String) :
    Yields (Sound pb) (getColumnFamily name) (fun _ ↦ True) :=
  yields_bind yields_get (fun _ _ ↦ yields_pure trivial)

/-- Looking a folder up or creating it. -/
theorem yields_getOrCreateColumnFamily (env : Env) (name : String) :
    Yields (Sound pb) (getOrCreateColumnFamily env name) (fun _ ↦ True) := by
  refine yields_bind (yields_getColumnFamily name) (fun found _ ↦ ?_)
  split
  · exact yields_pure trivial
  · exact yields_bind (yields_createColumnFamily env name) (fun _ _ ↦ yields_getColumnFamily name)

/-- A generated identifier has a timestamp. -/
theorem yields_generateId (env : Env) (folder : String) (ts : UInt64) :
    Yields (Sound pb) (generateId env folder ts) (fun id ↦ id.timestamp ≠ 0) := by
  refine yields_bind (yields_getOrCreateColumnFamily env folder) (fun _ _ ↦ ?_)
  refine yields_bind (Q := fun _ ↦ True) ?_ (fun unique _ ↦ yields_pure ?_)
  · refine yields_bind yields_get (fun s hs ↦ ?_)
    cases s.columnFamalies.lookup folder with
    | none => exact yields_throw _
    | some data =>
      exact yields_bind (yields_set (show Sound pb (s.cache folder _) from hs))
        (fun _ _ ↦ yields_pure trivial)
  · simp only [effectiveTs]
    split
    · exact env.now_ne_zero
    · next h => exact h

/-- Writing a message under the key of its identifier. -/
theorem yields_put (io : Status) (wopt : WriteOptions) (cf : Option ColumnFamilyHandle) {id : ID}
    (hid : id.timestamp ≠ 0) {d : Data} (hd : d.id = some id) :
    Yields (Sound pb) (put io wopt cf (serializeID id) (pb.serializeAsString d))
      (fun _ ↦ True) := by
  refine yields_bind (yields_deref cf) (fun p hp ↦ ?_)
  simp only
  split
  · exact yields_bind (yields_modify (fun s hs ↦ sound_writeFamily hs _ (stored_put hp hid hd)))
      (fun _ _ ↦ yields_pure trivial)
  · exact yields_pure trivial

/-- A constructor, whether it succeeds or not. -/
theorem sound_start {rocks : RocksDB} (h : StoreInvariant pb rocks) (impl : Impl) (env : Env)
    (cfg : Config) :
    match start impl env cfg rocks with
    | .ok _ t => StoreInvariant pb t.rocks
    | .error _ t => StoreInvariant pb t.rocks := by
  have hy : Yields (Sound pb) (construct env) (fun _ ↦ True) :=
    yields_bind (yields_modify (fun _ hs ↦ storeInvariant_openDB hs _ _ _)) (fun _ _ ↦
      yields_bind (yields_getColumnFamalies env.list) (fun _ _ ↦
        yields_openAndCache env.reopen _))
  have hrun := hy { impl, cfg, rocks, db := none, handles := [], columnFamalies := ∅ } h
  rw [start]
  split
  · next hr =>
    rw [hr] at hrun
    exact hrun.1
  · next hr =>
    rw [hr] at hrun
    exact hrun

end Client

/-! ### The server -/

/-- A gRPC `Save`. -/
theorem yields_save (env : Env) (request : SaveRequest) :
    Yields (Sound pb) (GRPCServer.save pb env request) (fun _ ↦ True) := by
  refine yields_tryCatch (yields_bind (yields_getOrCreateColumnFamily env _) (fun cf _ ↦ ?_)) ?_
  · refine yields_bind (yields_generateId env request.folder request.timestamp) (fun id hid ↦ ?_)
    refine yields_bind (yields_put env.put request.wopt cf hid rfl) (fun status _ ↦ ?_)
    split
    · exact yields_pure trivial
    · exact yields_pure trivial
  · intro e
    cases e with
    | exception what => exact yields_pure trivial
    | crash => exact yields_throw _

/-- An HTTP put. -/
theorem yields_handleRequest (env : Env) (h : SaveHandler) (body : Bytes) :
    Yields (Sound pb) (SaveHandler.handleRequest pb env h body) (fun _ ↦ True) := by
  refine yields_tryCatch (yields_bind (yields_generateId env h.name h.timestamp)
    (fun id hid ↦ ?_)) ?_
  · refine yields_bind (yields_getOrCreateColumnFamily env _) (fun cf _ ↦ ?_)
    exact yields_bind (yields_put env.put h.wopt cf hid rfl) (fun _ _ ↦ yields_pure trivial)
  · intro e
    cases e with
    | exception what => exact yields_pure trivial
    | crash => exact yields_throw _

/-- A gRPC `Get`. -/
theorem yields_getRequest (request : GetRequest) :
    Yields (Sound pb) (GRPCServer.get pb request) (fun _ ↦ True) := by
  refine yields_tryCatch (yields_bind (yields_getColumnFamily _) (fun cf _ ↦ ?_)) ?_
  · cases cf with
    | none => exact yields_pure trivial
    | some cf =>
      refine yields_bind (Q := fun _ ↦ True)
        (yields_bind (yields_deref (some cf)) (fun p _ ↦ ?_)) (fun r _ ↦ ?_)
      · simp only
        split
        · exact yields_pure trivial
        · exact yields_pure trivial
      · simp only
        split
        · exact yields_pure trivial
        · exact yields_pure trivial
  · intro e
    cases e with
    | exception what => exact yields_pure trivial
    | crash => exact yields_throw _

private theorem storeInvariant_call {α : Type} {p : Process} {x : ClientM α} {reply : α → Reply}
    (h : StoreInvariant pb p.rocks) (hx : Yields (Sound pb) x (fun _ ↦ True)) :
    StoreInvariant pb (p.call x reply).1.rocks := by
  cases p with
  | down rocks => exact h
  | running client =>
    have hr := hx client h
    simp only [Process.call]
    split
    · next hrun =>
      rw [hrun] at hr
      exact hr.1
    · next hrun =>
      rw [hrun] at hr
      exact hr
    · next hrun =>
      rw [hrun] at hr
      exact hr

/-- Every event leaves the records well formed. -/
theorem storeInvariant_step {p : Process} (h : StoreInvariant pb p.rocks) (e : Event) :
    StoreInvariant pb (p.step pb e).1.rocks := by
  cases e with
  | start impl env cfg =>
    have hs := sound_start h impl env cfg
    simp only [Process.step]
    split
    · next hr =>
      rw [hr] at hs
      exact hs
    · next hr =>
      rw [hr] at hs
      exact hs
  | save env request => exact storeInvariant_call h (yields_save env request)
  | post env name query body => exact storeInvariant_call h (yields_handleRequest env _ body)
  | create env name => exact storeInvariant_call h (yields_getOrCreateColumnFamily env name)
  | get request => exact storeInvariant_call h (yields_getRequest request)

/-- Every run leaves the records well formed. -/
theorem storeInvariant_after {p : Process} (h : StoreInvariant pb p.rocks) (events : List Event) :
    StoreInvariant pb (p.after pb events).rocks := by
  induction events generalizing p with
  | nil => exact h
  | cons e rest ih => exact ih (storeInvariant_step h e)

/-- However the server is used from an empty disk on, each record of each folder has the
sixteen-byte key of an identifier with a timestamp and embeds that identifier, and the keys of
a folder increase strictly in unsigned lexicographic order. -/
theorem stored_records_wellFormed (pb : Protobuf) (events : List Event) :
    EveryFolder
      (fun es ↦
        (∀ e ∈ es, e.1.length = 16 ∧ (deserializeID e.1).timestamp ≠ 0 ∧
          (pb.parseFromString e.2).id = some (deserializeID e.1)) ∧
        es.Pairwise (fun a b ↦ IDComparator.LexLt (deserializeID a.1) (deserializeID b.1)))
      ((Process.down RocksDB.empty).after pb events).rocks := by
  intro dir d name es hd hes
  have h₀ : StoreInvariant pb (Process.down RocksDB.empty).rocks := storeInvariant_empty
  have hst := storeInvariant_after h₀ events dir d name es hd hes
  have hchron := chronological_of_kept hst.kept
  exact ⟨fun e he ↦ ⟨(hchron.dated e he).1, (hchron.dated e he).2, hst.embedded e he⟩,
    hchron.sorted⟩

end TimeMachine.Server
