import TimeMachine.Client.Folders

/-!
# The records of the folders

What is left of the folders when the counters are left out: the records. Opening the
database again and issuing numbers leave them as they are.
-/

namespace TimeMachine.Client
open TimeMachine.Base TimeMachine.Store

/-- The records of the folders that exist. -/
abbrev Contents := String → Option ColumnFamily

namespace Folders

/-- The records of the folders. -/
def contents (F : Folders) : Contents := fun name ↦ (F name).map Folder.records

variable (F : Folders)

/-- A folder exists if it has records, or none. -/
@[simp] theorem isSome_contents (name : String) :
    (F.contents name).isSome = (F name).isSome := Option.isSome_map

/-- Opening again keeps the records. -/
@[simp] theorem contents_reopen : F.reopen.contents = F.contents := by
  funext name
  rw [contents, contents, reopen, Option.map_map]
  rfl

/-- Making sure of a folder adds an empty one at most. -/
theorem contents_touch (name : String) :
    (F.touch name).contents =
      Function.update F.contents name (some ((F.contents name).getD [])) := by
  cases hf : F name with
  | some f =>
    have hsome : F.contents name = some f.records := by rw [contents, hf, Option.map_some]
    rw [touch_of_isSome (Option.isSome_of_eq_some hf), hsome, Option.getD_some, ← hsome,
      Function.update_eq_self]
  | none =>
    have hnone : F.contents name = none := by rw [contents, hf, Option.map_none]
    rw [touch_of_none hf, hnone, Option.getD_none]
    funext other
    rw [contents, create_apply, Function.update_apply]
    split
    · rfl
    · rw [← contents_reopen F, contents]

/-- Issuing a number keeps the records. -/
@[simp] theorem contents_issue (name : String) : (F.issue name).contents = F.contents := by
  funext other
  rw [contents, contents]
  by_cases h : other = name
  · subst h
    rw [issue, Function.update_self, Option.map_map]
    rfl
  · rw [issue_of_ne F h]

/-- A write changes the records of one folder. -/
theorem contents_store (name : String) (key val : Bytes) :
    (F.store name key val).contents =
      Function.update F.contents name
        ((F.contents name).map (OrderedStore.put IDComparator.compare key val)) := by
  funext other
  by_cases h : other = name
  · subst h
    rw [Function.update_self, contents, contents, store, Function.update_self, Option.map_map,
      Option.map_map]
    rfl
  · rw [Function.update_of_ne h, contents, contents, store_of_ne F h]

end Folders
end TimeMachine.Client
