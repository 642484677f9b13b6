import Mathlib.Data.List.Perm.Basic
import Mathlib.Data.List.InsertIdx

/-!
# A pool of tasks

One task of a list takes a step: it is replaced by what became of it, or leaves the
pool when it is done. Up to the order of the pool this is taking the task out and
putting the rest back, which is how invariants over all tasks are shown to be kept.
-/

namespace TimeMachine.Base.Pool

universe u v
variable {α : Type u} {β : Type v}

/-- The pool after task `i` became `o`, or was done. -/
def replace (l : List α) (i : Nat) : Option α → List α
  | some a => l.set i a
  | none => l.eraseIdx i

/-- A pool is one of its tasks and the others. -/
theorem perm_cons_of_getElem? {l : List α} {i : Nat} {a : α} (h : l[i]? = some a) :
    l.Perm (a :: l.eraseIdx i) := by
  obtain ⟨hi, rfl⟩ := List.getElem?_eq_some_iff.mp h
  exact (List.getElem_cons_eraseIdx_perm hi).symm

/-- After a step the pool is what became of the task and the others. -/
theorem replace_perm {l : List α} {i : Nat} (hi : i < l.length) (o : Option α) :
    (replace l i o).Perm (o.toList ++ l.eraseIdx i) := by
  cases o with
  | none => exact List.Perm.refl _
  | some a => exact List.set_perm_cons_eraseIdx hi a

/-- The pool after a step, seen through a map. -/
theorem map_replace (f : α → β) (l : List α) (i : Nat) (o : Option α) :
    (replace l i o).map f = replace (l.map f) i (o.map f) := by
  cases o with
  | none => exact (List.eraseIdx_map f l i).symm
  | some a => exact List.map_set

/-- A task of the pool after a step is what became of the one that moved, or was there. -/
theorem mem_of_mem_replace {l : List α} {i : Nat} {o : Option α} {a : α}
    (h : a ∈ replace l i o) : o = some a ∨ a ∈ l := by
  cases o with
  | none => exact Or.inr (List.mem_of_mem_eraseIdx h)
  | some b =>
    rcases List.mem_or_eq_of_mem_set h with h | rfl
    · exact Or.inr h
    · exact Or.inl rfl

/-- A step takes away the one task at most. -/
theorem count_le_replace [DecidableEq α] {l : List α} {i : Nat} {a : α} (h : l[i]? = some a)
    (o : Option α) (b : α) :
    l.count b ≤ (replace l i o).count b + if a = b then 1 else 0 := by
  have hi := (List.getElem?_eq_some_iff.mp h).1
  rw [(perm_cons_of_getElem? h).count_eq, (replace_perm hi o).count_eq, List.count_append,
    List.count_cons]
  simp only [beq_iff_eq]
  omega

end TimeMachine.Base.Pool
