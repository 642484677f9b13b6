import Mathlib.Order.RelClasses
import Mathlib.Data.Set.Insert

/-!
# First in one order, least in another

What is read off the first element of a sorted collection holds of all of it only if that
element is also the least in the order asked for. For a set whose first element is least,
it is said here when it still is after one more element. With both orders turned round the
same is said of the last element and the greatest.
-/

namespace TimeMachine.Base

universe u
variable {α : Type u} (before least : α → α → Prop)

/-- An element that none of the set comes before is least in the set. -/
def Leads (S : Set α) : Prop := ∀ m ∈ S, (∀ x ∈ S, ¬ before x m) → ∀ x ∈ S, least m x

/-- An element fits a set: it is least if nothing comes before it, and otherwise something is at
most as large. -/
def Joins (S : Set α) (a : α) : Prop :=
  ((∀ x ∈ S, ¬ before x a) → ∀ x ∈ S, least a x) ∧
    ((∃ x ∈ S, before x a) → ∃ x ∈ S, least x a)

variable {before least} [IsStrictTotalOrder α before]

/-- The first element decides. -/
theorem leads_iff {S : Set α} {m : α} (hm : m ∈ S) (hfirst : ∀ x ∈ S, ¬ before x m) :
    Leads before least S ↔ ∀ x ∈ S, least m x := by
  constructor
  · intro h
    exact h m hm hfirst
  · intro h n hn hnfirst
    obtain rfl : n = m := Std.Trichotomous.trichotomous n m (hfirst n hn) (hnfirst m hm)
    exact h

/-- One more element keeps the first element least exactly if it fits. -/
theorem leads_insert_iff [IsPreorder α least] {S : Set α} {m : α} (hm : m ∈ S)
    (hfirst : ∀ x ∈ S, ¬ before x m) (h : Leads before least S) (a : α) :
    Leads before least (insert a S) ↔ Joins before least S a := by
  constructor
  · intro hinsert
    refine ⟨fun hnone x hx ↦ ?_, fun ⟨x, hx, hxa⟩ ↦ ⟨m, hm, ?_⟩⟩
    · refine hinsert a (Set.mem_insert a S) (fun y hy ↦ ?_) x (Set.mem_insert_of_mem a hx)
      rcases Set.mem_insert_iff.mp hy with rfl | hy
      · exact irrefl y
      · exact hnone y hy
    · -- the first element of the set is still the first
      refine hinsert m (Set.mem_insert_of_mem a hm) (fun y hy hym ↦ ?_) a (Set.mem_insert a S)
      rcases Set.mem_insert_iff.mp hy with rfl | hy
      · exact hfirst x hx (IsTrans.trans x y m hxa hym)
      · exact hfirst y hy hym
  · rintro ⟨hnone, hsome⟩ n hn hnfirst x hx
    have hnS (y : α) (hy : y ∈ S) : ¬ before y n := hnfirst y (Set.mem_insert_of_mem a hy)
    rcases Set.mem_insert_iff.mp hn with rfl | hmem
    · rcases Set.mem_insert_iff.mp hx with rfl | hx
      · exact refl x
      · exact hnone hnS x hx
    · have hleast := h n hmem hnS
      rcases Set.mem_insert_iff.mp hx with rfl | hx
      · by_cases hex : ∃ y ∈ S, before y x
        · obtain ⟨y, hy, hyx⟩ := hsome hex
          exact IsTrans.trans n y x (hleast y hy) hyx
        · -- none comes before it, so it is the first element itself
          have hnx : ¬ before n x := fun hlt ↦ hex ⟨n, hmem, hlt⟩
          obtain rfl : n = x := Std.Trichotomous.trichotomous n x hnx
            (hnfirst x (Set.mem_insert x S))
          exact refl n
      · exact hleast x hx

end TimeMachine.Base
