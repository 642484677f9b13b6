import TimeMachine.Store.IDComparator
import TimeMachine.Store.Data
import Mathlib.Data.List.AList

/-!
# Databases, column families and handles

What the client sees of RocksDB. A database lives in a directory and keeps its
column families over close and reopen; a column family is an ordered map under
`IDComparator`. Every open hands out a new instance with one fresh handle for each
descriptor; a failed open leaves no handles and a null instance. Each call takes the
outcome of its input and output as an argument, so every failure is an input of the
run; the errors RocksDB derives from its own state are computed.
-/

namespace TimeMachine.Store
open TimeMachine.Base

/-- A `rocksdb::Status`: success, or a failure with its `ToString` text. -/
inductive Status where
  | ok
  | failed (text : String)
  deriving DecidableEq, Repr

/-- `Status::ok()`. -/
def Status.isOk : Status → Bool
  | .ok => true
  | .failed _ => false

/-- Only one status is good. -/
theorem Status.isOk_iff {s : Status} : s.isOk = true ↔ s = .ok := by
  cases s <;> simp [isOk]

/-- `s.OK` in a condition: the address of the static factory function, which is never
null, whatever status `s` holds. -/
def Status.OK (_ : Status) : Bool := true

/-- `Status::ToString()`. -/
def Status.toString : Status → String
  | .ok => "OK"
  | .failed text => text

/-- The field of `rocksdb::WriteOptions` the server sets. A write without the log is still
kept over a clean close. -/
structure WriteOptions where
  disableWAL : Bool := false
  deriving DecidableEq, Repr

/-- A `rocksdb::ColumnFamilyHandle*`: the pointer, the database instance that handed it
out, and `GetName()`. -/
structure ColumnFamilyHandle where
  pointer : Nat
  db : Nat
  name : String
  deriving DecidableEq, Repr

/-- The entries of a column family in iteration order. -/
abbrev ColumnFamily := List (Slice × Bytes)

/-- `rocksdb::kDefaultColumnFamilyName`. -/
def defaultName : String := "default"

/-- The column families of one database. The default family always exists. -/
structure Database where
  families : AList (fun _ : String ↦ ColumnFamily)
  default_mem : defaultName ∈ families

namespace Database

/-- A newly created database. -/
def initial : Database := ⟨AList.singleton defaultName [], by decide⟩

/-- The names of the column families. -/
def names (d : Database) : List String := d.families.keys

/-- The entries of a column family. -/
def family (d : Database) (name : String) : Option ColumnFamily := d.families.lookup name

/-- Set the entries of a column family, creating it if needed. -/
def write (d : Database) (name : String) (entries : ColumnFamily) : Database :=
  ⟨d.families.insert name entries, (AList.mem_insert _).mpr (Or.inr d.default_mem)⟩

/-- Create the families of the list that are missing. -/
def createMissing (d : Database) : List String → Database
  | [] => d
  | name :: rest =>
    if name ∈ d.names then d.createMissing rest else (d.write name []).createMissing rest

/-- The listed names are those of the families. -/
theorem mem_names (d : Database) (name : String) :
    name ∈ d.names ↔ ∃ es, d.family name = some es := by
  rw [names, ← AList.mem_keys, ← AList.lookup_isSome, Option.isSome_iff_exists, family]

/-- No family is listed twice. -/
theorem names_nodup (d : Database) : d.names.Nodup := d.families.keys_nodup

/-- The default family is listed. -/
theorem default_mem_names (d : Database) : defaultName ∈ d.names := d.default_mem

/-- A write sets one family and leaves the others. -/
theorem family_write (d : Database) (name other : String) (es : ColumnFamily) :
    (d.write name es).family other = if other = name then some es else d.family other := by
  by_cases h : other = name
  · subst h
    rw [if_pos rfl]
    exact AList.lookup_insert _
  · rw [if_neg h]
    exact AList.lookup_insert_ne h

/-- The families of a newly created database are empty. -/
theorem family_initial {name : String} {es : ColumnFamily}
    (h : initial.family name = some es) : es = [] := by
  by_cases hn : name = defaultName
  · subst hn
    cases h
    rfl
  · have hnone : initial.family name = none := by
      apply AList.lookup_eq_none.mpr
      rw [AList.mem_keys]
      simpa [initial, AList.keys_singleton] using hn
    rw [hnone] at h
    cases h

/-- Nothing is missing when every listed family exists. -/
theorem createMissing_of_subset (d : Database) (l : List String) (h : ∀ n ∈ l, n ∈ d.names) :
    d.createMissing l = d := by
  induction l with
  | nil => rfl
  | cons name rest ih =>
    rw [createMissing, if_pos (h name (by simp))]
    exact ih (fun n hn ↦ h n (List.mem_cons_of_mem name hn))

/-- Creating missing families leaves the others as they are. -/
theorem family_createMissing (d : Database) (l : List String) {name : String} {es : ColumnFamily}
    (h : d.family name = some es) : (d.createMissing l).family name = some es := by
  induction l generalizing d with
  | nil => exact h
  | cons new rest ih =>
    rw [createMissing]
    split
    · exact ih d h
    · next hnew =>
      have hne : name ≠ new := by
        rintro rfl
        exact hnew ((d.mem_names name).mpr ⟨es, h⟩)
      apply ih
      rw [family_write, if_neg hne, h]

/-- Afterwards every listed family exists. -/
theorem mem_createMissing (d : Database) {l : List String} {name : String} (h : name ∈ l) :
    name ∈ (d.createMissing l).names := by
  induction l generalizing d with
  | nil => cases h
  | cons new rest ih =>
    rw [createMissing]
    rcases List.mem_cons.mp h with rfl | h
    · split
      · next hold =>
        obtain ⟨es, hes⟩ := (d.mem_names name).mp hold
        exact (mem_names _ name).mpr ⟨es, family_createMissing d rest hes⟩
      · exact (mem_names _ name).mpr ⟨[], family_createMissing _ rest (by
          rw [family_write, if_pos rfl])⟩
    · split
      · exact ih d h
      · exact ih _ h

end Database

/-- The state of the storage engine: the databases by directory, and the next pointers
it hands out. -/
structure RocksDB where
  disk : String → Option Database
  nextDb : Nat := 0
  nextHandle : Nat := 0

/-- What `DB::Open` leaves behind: the status, the handles vector and the instance. -/
structure Opened where
  status : Status
  handles : List ColumnFamilyHandle
  db : Option Nat
  rocks : RocksDB

namespace RocksDB

/-- No database anywhere. -/
def empty : RocksDB := { disk := fun _ ↦ none }

/-- Replace the database of a directory. -/
def setDisk (r : RocksDB) (dir : String) (d : Database) : RocksDB :=
  { r with disk := Function.update r.disk dir (some d) }

/-- One fresh handle for each name, in order. -/
def freshHandles (pointer db : Nat) : List String → List ColumnFamilyHandle
  | [] => []
  | name :: rest => ⟨pointer, db, name⟩ :: freshHandles (pointer + 1) db rest

/-- `DB::Open` with the client's options, which create a missing database and missing
column families. All existing families have to be opened, the default one among them. -/
def openDB (r : RocksDB) (io : Status) (dir : String) (descriptors : List String) : Opened :=
  let existing := (r.disk dir).getD Database.initial
  if io.isOk = false then ⟨io, [], none, r⟩
  else if defaultName ∉ descriptors then
    ⟨.failed "Invalid argument: Default column family not specified", [], none, r⟩
  else if ∃ name ∈ existing.names, name ∉ descriptors then
    ⟨.failed "Invalid argument: You have to open all column families.", [], none, r⟩
  else
    ⟨.ok, freshHandles r.nextHandle r.nextDb descriptors, some r.nextDb,
      { disk := Function.update r.disk dir (some (existing.createMissing descriptors))
        nextDb := r.nextDb + 1
        nextHandle := r.nextHandle + descriptors.length }⟩

/-- `DB::ListColumnFamilies`: the names, in no particular order. -/
def listColumnFamilies (r : RocksDB) (io : Status) (dir : String) : Status × List String :=
  if io.isOk = false then (io, [])
  else
    match r.disk dir with
    | none => (.failed "IO error: No such file or directory", [])
    | some d => (.ok, d.names)

/-- `DB::CreateColumnFamily`: on a failure the handle is null, and an existing family is
a failure. -/
def createColumnFamily (r : RocksDB) (io : Status) (dir : String) (db : Nat) (name : String) :
    Status × Option ColumnFamilyHandle × RocksDB :=
  if io.isOk = false then (io, none, r)
  else
    match r.disk dir with
    | none => (.failed "IO error: No such file or directory", none, r)
    | some d =>
      if name ∈ d.names then (.failed "Invalid argument: Column family already exists", none, r)
      else
        (.ok, some ⟨r.nextHandle, db, name⟩,
          { r.setDisk dir (d.write name []) with nextHandle := r.nextHandle + 1 })

/-- The handles of an open carry its descriptors' names in order. -/
theorem map_name_freshHandles (pointer db : Nat) (l : List String) :
    (freshHandles pointer db l).map (·.name) = l := by
  induction l generalizing pointer with
  | nil => rfl
  | cons name rest ih => rw [freshHandles, List.map_cons, ih]

/-- The handles of an open belong to the instance it returns. -/
theorem db_freshHandles {pointer db : Nat} {l : List String} {h : ColumnFamilyHandle}
    (hm : h ∈ freshHandles pointer db l) : h.db = db := by
  induction l generalizing pointer with
  | nil => cases hm
  | cons name rest ih =>
    rcases List.mem_cons.mp hm with rfl | hr
    · rfl
    · exact ih hr

/-- Opening a database with all of its families succeeds and changes no data. -/
theorem openDB_names {r : RocksDB} {dir : String} {d : Database} (h : r.disk dir = some d) :
    r.openDB .ok dir d.names =
      ⟨.ok, freshHandles r.nextHandle r.nextDb d.names, some r.nextDb,
        { disk := r.disk, nextDb := r.nextDb + 1
          nextHandle := r.nextHandle + d.names.length }⟩ := by
  have hall : ¬ ∃ name ∈ d.names, name ∉ d.names := by
    rintro ⟨n, hn, hn'⟩
    exact hn' hn
  simp only [openDB, h, Option.getD_some, Status.isOk, Bool.true_eq_false, if_false,
    not_not.mpr d.default_mem_names, hall, d.createMissing_of_subset d.names (fun _ hn ↦ hn)]
  rw [← h, Function.update_eq_self]

/-- A trial open of the default family leaves an existing database as it is. -/
theorem trialOpen_disk {r : RocksDB} (io : Status) {dir : String} {d : Database}
    (h : r.disk dir = some d) : (r.openDB io dir [defaultName]).rocks.disk dir = some d := by
  have hsub : d.createMissing [defaultName] = d :=
    d.createMissing_of_subset _ (by simpa using d.default_mem_names)
  simp only [openDB, h, Option.getD_some, hsub]
  split
  · exact h
  · split
    · exact h
    · split
      · exact h
      · exact Function.update_self _ _ _

/-- A trial open of the default family that succeeds creates a missing database. -/
theorem trialOpen_new {r : RocksDB} {io : Status} {dir : String} (h : r.disk dir = none)
    (hio : io = .ok) :
    (r.openDB io dir [defaultName]).rocks.disk dir = some Database.initial := by
  have hnames : Database.initial.names = [defaultName] := rfl
  have hsub : Database.initial.createMissing [defaultName] = Database.initial :=
    Database.initial.createMissing_of_subset _ (fun n hn ↦ hnames ▸ hn)
  have hall : ¬ ∃ name ∈ Database.initial.names, name ∉ [defaultName] := by
    rw [hnames]
    rintro ⟨n, hn, hn'⟩
    exact hn' hn
  simp only [openDB, h, hio, Option.getD_none, Status.isOk, Bool.true_eq_false, if_false,
    List.mem_singleton, not_true_eq_false, hsub]
  rw [if_neg (by simpa using hall)]
  exact Function.update_self _ _ _

/-- Opening touches no other directory. -/
theorem openDB_disk_of_ne (r : RocksDB) (io : Status) {dir other : String}
    (descriptors : List String) (h : other ≠ dir) :
    (r.openDB io dir descriptors).rocks.disk other = r.disk other := by
  simp only [openDB]
  split
  · rfl
  · split
    · rfl
    · split
      · rfl
      · exact Function.update_of_ne h _ _

/-- If there is a database after a trial open of the default family, it is the one that was
there, or a new one where there was none. -/
theorem disk_of_trialOpen {r : RocksDB} {io : Status} {dir : String} {d : Database}
    (h : (r.openDB io dir [defaultName]).rocks.disk dir = some d) :
    (r.disk dir).getD Database.initial = d := by
  simp only [openDB] at h
  split at h
  · rw [h, Option.getD_some]
  · split at h
    · rw [h, Option.getD_some]
    · split at h
      · rw [h, Option.getD_some]
      · have hsub (e : Database) : e.createMissing [defaultName] = e :=
          e.createMissing_of_subset _ (by simpa using e.default_mem_names)
        simp only [Function.update_self, hsub, Option.some.injEq] at h
        exact h

end RocksDB
end TimeMachine.Store
