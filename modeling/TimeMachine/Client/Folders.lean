import TimeMachine.Client.Registry

/-!
# Folders

What the client is for: named folders, each with its records and the counter that
numbers the next one. A registered name maps to a folder; opening the database again
sets every counter to the unique number of the folder's last record. The operations of
a client that serves its database act on this view as the functions below.
-/

namespace TimeMachine.Client
open TimeMachine.Base TimeMachine.Base.StateError TimeMachine.Store

/-- The records of a folder and the number its next record gets. -/
structure Folder where
  records : ColumnFamily
  lastUnique : UInt64
  deriving DecidableEq

/-- The folder after its counter was set from its records. -/
def Folder.reseed (f : Folder) : Folder :=
  { f with lastUnique := (DbClient.uniqueRange f.records).till }

/-- The registered folders by name. -/
abbrev Folders := String → Option Folder

namespace Folders

/-- Every folder once the database was opened again. -/
def reopen (F : Folders) : Folders := fun name ↦ (F name).map Folder.reseed

/-- A new folder; creating it opens the database again. -/
def create (F : Folders) (name : String) : Folders :=
  Function.update F.reopen name (some ⟨[], 0⟩)

/-- Make sure the folder exists. -/
def touch (F : Folders) (name : String) : Folders :=
  if (F name).isSome then F else F.create name

/-- Advance the counter of a folder. -/
def issue (F : Folders) (name : String) : Folders :=
  Function.update F name ((F name).map (fun f ↦ { f with lastUnique := f.lastUnique + 1 }))

/-- Write a record into a folder. -/
def store (F : Folders) (name : String) (key val : Bytes) : Folders :=
  Function.update F name ((F name).map (fun f ↦
    { f with records := OrderedStore.put IDComparator.compare key val f.records }))

/-- An existing folder stays as it is. -/
theorem touch_of_isSome {F : Folders} {name : String} (h : (F name).isSome) : F.touch name = F :=
  if_pos h

/-- A folder that does not exist is created. -/
theorem touch_of_none {F : Folders} {name : String} (h : F name = none) :
    F.touch name = F.create name := if_neg (by simp [h])

/-- Making sure of a folder keeps the others. -/
theorem isSome_touch {F : Folders} (name : String) {other : String} (h : (F other).isSome) :
    (F.touch name other).isSome := by
  by_cases hs : (F name).isSome
  · rwa [touch_of_isSome hs]
  · rw [touch_of_none (by simpa using hs), create, Function.update_apply]
    split
    · rfl
    · rwa [reopen, Option.isSome_map]

/-- After making sure of it the folder exists. -/
@[simp] theorem touch_isSome (F : Folders) (name : String) : (F.touch name name).isSome := by
  by_cases h : (F name).isSome
  · rwa [touch_of_isSome h]
  · rw [touch_of_none (by simpa using h), create, Function.update_self]
    rfl

/-- A created folder is empty, and every other folder is as after opening again. -/
theorem create_apply (F : Folders) (name other : String) :
    F.create name other = if other = name then some ⟨[], 0⟩ else F.reopen other := by
  rw [create, Function.update_apply]

/-- Advancing one counter leaves the other folders alone. -/
theorem issue_of_ne (F : Folders) {name other : String} (h : other ≠ name) :
    F.issue name other = F other := Function.update_of_ne h _ _

/-- Advancing the counter of an existing folder. -/
theorem issue_self {F : Folders} {name : String} {f : Folder} (h : F name = some f) :
    F.issue name name = some { f with lastUnique := f.lastUnique + 1 } := by
  rw [issue, Function.update_self, h, Option.map_some]

/-- Advancing a counter registers nothing and drops nothing. -/
@[simp] theorem isSome_issue (F : Folders) (name other : String) :
    (F.issue name other).isSome = (F other).isSome := by
  by_cases h : other = name
  · subst h
    rw [issue, Function.update_self, Option.isSome_map]
  · rw [issue_of_ne F h]

/-- A write registers nothing and drops nothing. -/
@[simp] theorem isSome_store (F : Folders) (name other : String) (key val : Bytes) :
    (F.store name key val other).isSome = (F other).isSome := by
  by_cases h : other = name
  · subst h
    rw [store, Function.update_self, Option.isSome_map]
  · rw [store, Function.update_of_ne h]

/-- A write leaves the other folders alone. -/
theorem store_of_ne (F : Folders) {name other : String} (h : other ≠ name) (key val : Bytes) :
    F.store name key val other = F other := Function.update_of_ne h _ _

/-- A write to an existing folder. -/
theorem store_self {F : Folders} {name : String} {f : Folder} (h : F name = some f)
    (key val : Bytes) :
    F.store name key val name =
      some { f with records := OrderedStore.put IDComparator.compare key val f.records } := by
  rw [store, Function.update_self, h, Option.map_some]

/-- Every folder is in key order, under keys with a timestamp. -/
def WellKept (F : Folders) : Prop :=
  ∀ name f, F name = some f →
    OrderedStore.Kept IDComparator.compare IDComparator.Dated f.records

/-- Opening again keeps the key order. -/
theorem wellKept_reopen {F : Folders} (h : F.WellKept) : F.reopen.WellKept := by
  intro name f hf
  obtain ⟨g, hg, rfl⟩ := Option.map_eq_some_iff.mp hf
  exact h name g hg

/-- Making sure of a folder keeps the key order. -/
theorem wellKept_touch {F : Folders} (h : F.WellKept) (name : String) :
    (F.touch name).WellKept := by
  by_cases hs : (F name).isSome
  · rwa [touch_of_isSome hs]
  · rw [touch_of_none (by simpa using hs)]
    intro other f hf
    rw [create_apply] at hf
    split at hf
    · cases hf
      exact OrderedStore.kept_nil
    · exact wellKept_reopen h other f hf

/-- Advancing a counter keeps the key order. -/
theorem wellKept_issue {F : Folders} (h : F.WellKept) (name : String) :
    (F.issue name).WellKept := by
  intro other f hf
  by_cases hn : other = name
  · subst hn
    rw [issue, Function.update_self] at hf
    obtain ⟨g, hg, rfl⟩ := Option.map_eq_some_iff.mp hf
    exact h other g hg
  · rw [issue_of_ne F hn] at hf
    exact h other f hf

/-- Writing under the key of an identifier keeps the key order. -/
theorem wellKept_store {F : Folders} (h : F.WellKept) (name : String) {id : ID}
    (hid : id.timestamp ≠ 0) (val : Bytes) : (F.store name (serializeID id) val).WellKept := by
  intro other f hf
  by_cases hn : other = name
  · subst hn
    rw [store, Function.update_self] at hf
    obtain ⟨g, hg, rfl⟩ := Option.map_eq_some_iff.mp hf
    exact OrderedStore.kept_put IDComparator.dated_total (h other g hg)
      (IDComparator.dated_serializeID hid) val
  · rw [store_of_ne F hn] at hf
    exact h other f hf

end Folders

namespace DbClient

/-- The folders of a client: the names that are cached, with the stored records. -/
def view (s : DbClient) : Folders := fun name ↦
  match s.family name, s.columnFamalies.lookup name with
  | some records, some data => some ⟨records, data.lastUnique⟩
  | _, _ => none

/-- A folder holds the records of the family of its name. -/
theorem family_of_view {s : DbClient} {name : String} {f : Folder} (h : s.view name = some f) :
    s.family name = some f.records := by
  unfold view at h
  split at h
  · next hfam _ =>
    cases h
    exact hfam
  · cases h

/-- A folder is cached under its name. -/
theorem mem_keys_of_view {s : DbClient} {name : String} {f : Folder} (h : s.view name = some f) :
    name ∈ s.columnFamalies.keys := by
  unfold view at h
  cases hl : s.columnFamalies.lookup name with
  | none => simp [hl] at h
  | some data => exact AList.lookup_isSome.mp (Option.isSome_of_eq_some hl)

instance decidableForallView {P : Folder → Prop} [DecidablePred P] (s : DbClient) :
    Decidable (∀ name, ∀ f ∈ s.view name, P f) :=
  decidable_of_iff (∀ name ∈ s.columnFamalies.keys, ∀ f ∈ s.view name, P f)
    ⟨fun h name f hf ↦ h name (mem_keys_of_view hf) f hf, fun h name _ f hf ↦ h name f hf⟩

/-- The client serves some database. -/
def Serves (s : DbClient) : Prop := ∃ i d, Serving s i d

/-- The open instance was handed out before the next one. -/
theorem Serves.instance_lt {s : DbClient} (hs : Serves s) {i : Nat} (h : s.db = some i) :
    i < s.rocks.nextDb := by
  obtain ⟨j, d, hs⟩ := hs
  rw [hs.instance_eq] at h
  cases h
  exact hs.instance_lt

/-- A registered folder of a client that serves: its records and its cached data. -/
theorem view_eq_some {s : DbClient} {i : Nat} {d : Database} (hs : Serving s i d)
    {name : String} {f : Folder} :
    s.view name = some f ↔
      d.family name = some f.records ∧
        ∃ e, s.columnFamalies.lookup name = some e ∧ e.lastUnique = f.lastUnique := by
  have hfam : s.family name = d.family name := by rw [family, hs.database_eq, Option.bind_some]
  rw [view, hfam]
  cases hf : d.family name with
  | none => simp
  | some es =>
    cases he : s.columnFamalies.lookup name with
    | none => simp
    | some e =>
      rcases f with ⟨records, lastUnique⟩
      simp

/-- The records of a family are the records of the folder of that name. -/
theorem view_of_family {s : DbClient} (hs : Serves s) {name : String} {es : ColumnFamily}
    (h : s.family name = some es) : ∃ f, s.view name = some f ∧ f.records = es := by
  obtain ⟨i, d, hs⟩ := hs
  have hd : d.family name = some es := by
    rwa [family, hs.database_eq, Option.bind_some] at h
  obtain ⟨e, he⟩ := Option.isSome_iff_exists.mp
    (AList.lookup_isSome.mpr ((hs.mem_cache name).mpr ((d.mem_names name).mpr ⟨es, hd⟩)))
  exact ⟨⟨es, e.lastUnique⟩, (view_eq_some hs).mpr ⟨hd, e, he, rfl⟩, rfl⟩

/-- The folders that exist are the families of the database. -/
theorem view_isSome_iff {s : DbClient} {i : Nat} {d : Database} (hs : Serving s i d)
    {name : String} : (s.view name).isSome ↔ name ∈ d.names := by
  constructor
  · intro h
    obtain ⟨f, hf⟩ := Option.isSome_iff_exists.mp h
    exact (d.mem_names name).mpr ⟨_, ((view_eq_some hs).mp hf).1⟩
  · intro h
    obtain ⟨es, hes⟩ := (d.mem_names name).mp h
    obtain ⟨e, he⟩ := Option.isSome_iff_exists.mp
      (AList.lookup_isSome.mpr ((hs.mem_cache name).mpr h))
    exact Option.isSome_iff_exists.mpr ⟨⟨es, e.lastUnique⟩, (view_eq_some hs).mpr ⟨hes, e, he, rfl⟩⟩

/-- The cache has an entry exactly for the folders that exist. -/
theorem view_isSome_iff_lookup {s : DbClient} {i : Nat} {d : Database} (hs : Serving s i d)
    {name : String} : (s.view name).isSome ↔ (s.columnFamalies.lookup name).isSome := by
  rw [view_isSome_iff hs, AList.lookup_isSome, hs.mem_cache]

/-- Seeding the counters again depends on the stored records only. -/
theorem reopen_view {s : DbClient} {i : Nat} {d : Database} (hs : Serving s i d)
    (name : String) :
    s.view.reopen name = (d.family name).map (fun es ↦ ⟨es, (uniqueRange es).till⟩) := by
  rw [Folders.reopen]
  cases hv : s.view name with
  | none =>
    have hn : ¬ name ∈ d.names := by rw [← view_isSome_iff hs, hv]; simp
    rw [d.mem_names, not_exists] at hn
    rw [Option.eq_none_iff_forall_ne_some.mpr hn]
    rfl
  | some f =>
    rw [((view_eq_some hs).mp hv).1]
    rfl

/-- The folders after opening the database again are seeded from its families. -/
theorem view_reopened {s : DbClient} {d : Database} (hsame : s.cfg.dbName = s.openDir)
    (hd : s.database = some d) (hold : ∀ n ∈ s.columnFamalies, n ∈ d.names) (name : String) :
    (s.reopened d).view name =
      (d.family name).map (fun es ↦ ⟨es, (uniqueRange es).till⟩) := by
  have hserv := reopened_serving hsame hd hold
  cases hf : d.family name with
  | none =>
    have hn : ¬ ((s.reopened d).view name).isSome := by
      rw [view_isSome_iff hserv, d.mem_names]
      simp [hf]
    simpa using hn
  | some es =>
    have hn : name ∈ d.names := (d.mem_names name).mpr ⟨es, hf⟩
    obtain ⟨h, -, -, hl⟩ := reopened_lookup s hn
    have hseed : s.seed name = (uniqueRange es).till := by
      rw [seed, family, hd, Option.bind_some, hf, Option.getD_some]
    exact (view_eq_some hserv).mpr ⟨hf, _, hl, hseed⟩

/-- Creating a folder, on the folders. -/
theorem view_created {s : DbClient} {i : Nat} {d : Database} (hs : Serving s i d) (name : String) :
    (s.created d name).view = s.view.create name := by
  funext n
  rw [created, view_reopened (s := s.added d name) hs.same_dir (added_database s d name)
    (added_known hs name), Database.family_write, Folders.create_apply]
  split
  · rfl
  · rw [reopen_view hs]

end DbClient
end TimeMachine.Client
