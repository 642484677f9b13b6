import Mathlib.Data.Set.Insert

/-!
# Numbered sets

Elements that come one after the other and get numbers from a counter. While each new
element comes last, the numbers rise with the elements and leave none out, and this stays
so when the counter is set back to the number of the last element.
-/

namespace TimeMachine.Base

universe u
variable {α : Type u}

/-- The numbers rise in the order of the elements, none is above the next one, and each below it
is taken. -/
structure Numbered (before : α → α → Prop) (number : α → Nat) (S : Set α) (next : Nat) : Prop where
  rising : ∀ x ∈ S, ∀ y ∈ S, before x y → number x ≤ number y
  le_next : ∀ x ∈ S, number x ≤ next
  taken : ∀ n < next, ∃ x ∈ S, number x = n

namespace Numbered
variable {before : α → α → Prop} {number : α → Nat} {S : Set α} {next : Nat}

/-- Without elements the first number is next. -/
theorem empty : Numbered before number (∅ : Set α) 0 where
  rising _ hx := hx.elim
  le_next _ hx := hx.elim
  taken n hn := absurd hn (Nat.not_lt_zero n)

/-- The next element comes last and gets the next number. -/
theorem insert_last (h : Numbered before number S next) {a : α} (ha : number a = next)
    (hlast : ∀ x ∈ S, ¬ before a x) : Numbered before number (insert a S) (next + 1) where
  rising := by
    rintro x (rfl | hx) y (rfl | hy) hxy
    · exact Nat.le_refl _
    · exact absurd hxy (hlast y hy)
    · exact ha ▸ h.le_next x hx
    · exact h.rising x hx y hy hxy
  le_next := by
    rintro x (rfl | hx)
    · exact ha ▸ Nat.le_succ _
    · exact Nat.le_succ_of_le (h.le_next x hx)
  taken n hn := by
    rcases Nat.lt_succ_iff_lt_or_eq.mp hn with hlt | rfl
    · obtain ⟨x, hx, hnum⟩ := h.taken n hlt
      exact ⟨x, Set.mem_insert_of_mem a hx, hnum⟩
    · exact ⟨a, Set.mem_insert a S, ha⟩

/-- Each number up to that of an element is taken. -/
theorem exists_of_le (h : Numbered before number S next) {x : α} (hx : x ∈ S) {n : Nat}
    (hn : n ≤ number x) : ∃ y ∈ S, number y = n := by
  rcases Nat.lt_or_eq_of_le hn with hlt | rfl
  · exact h.taken n (Nat.lt_of_lt_of_le hlt (h.le_next x hx))
  · exact ⟨x, hx, rfl⟩

/-- The counter can be set back to the number of the last element. -/
theorem rewind (h : Numbered before number S next) {last : α} (hmem : last ∈ S)
    (hlast : ∀ x ∈ S, x = last ∨ before x last) : Numbered before number S (number last) where
  rising := h.rising
  le_next x hx := by
    rcases hlast x hx with rfl | hbefore
    · exact Nat.le_refl _
    · exact h.rising x hx last hmem hbefore
  taken n hn := h.exists_of_le hmem (Nat.le_of_lt hn)

/-- The first element has the first number. -/
theorem first_eq_zero (h : Numbered before number S next) {first : α} (hmem : first ∈ S)
    (hfirst : ∀ x ∈ S, x = first ∨ before first x) : number first = 0 := by
  obtain ⟨x, hx, hzero⟩ := h.exists_of_le hmem (Nat.zero_le _)
  rcases hfirst x hx with rfl | hbefore
  · exact hzero
  · exact Nat.le_zero.mp (hzero ▸ h.rising first hmem x hx hbefore)

end Numbered
end TimeMachine.Base
