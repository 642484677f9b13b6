import Mathlib.Data.Set.Basic

/-!
# Acknowledged writes

A store that overwrites, next to the list of writes it has acknowledged: what is held
now, and what was promised. A write keeps all earlier promises exactly when the store
does not hold another value under its key; the promises are all kept at the end of a
history exactly when every write of it was of that kind.
-/

namespace TimeMachine.Base

universe u v

/-- What a store holds and what it has acknowledged. -/
structure Ledger (K : Type u) (V : Type v) where
  held : Set (K × V)
  acked : List (K × V)

namespace Ledger
variable {K : Type u} {V : Type v}

/-- An acknowledged write replaces whatever is held under its key. -/
def write (L : Ledger K V) (k : K) (v : V) : Ledger K V :=
  { held := {p | p = (k, v) ∨ (p ∈ L.held ∧ p.1 ≠ k)}, acked := L.acked ++ [(k, v)] }

/-- Every acknowledged value is held. -/
def Faithful (L : Ledger K V) : Prop := ∀ p ∈ L.acked, p ∈ L.held

/-- Every held value was acknowledged, and every acknowledged key is held with some value. -/
structure Balanced (L : Ledger K V) : Prop where
  backed : ∀ p ∈ L.held, p ∈ L.acked
  covered : ∀ p ∈ L.acked, ∃ w, (p.1, w) ∈ L.held

/-- No other value is held under the key. -/
def Agrees (L : Ledger K V) (k : K) (v : V) : Prop := ∀ w, (k, w) ∈ L.held → w = v

/-- A write keeps the ledger balanced. -/
theorem balanced_write {L : Ledger K V} (h : Balanced L) (k : K) (v : V) :
    Balanced (L.write k v) := by
  refine ⟨?_, ?_⟩
  · rintro p (rfl | ⟨hp, -⟩)
    · exact List.mem_append_right _ (List.mem_singleton_self _)
    · exact List.mem_append_left _ (h.backed p hp)
  · intro p hp
    by_cases hk : p.1 = k
    · exact ⟨v, Or.inl (by rw [hk])⟩
    · rcases List.mem_append.mp hp with hp | hp
      · obtain ⟨w, hw⟩ := h.covered p hp
        exact ⟨w, Or.inr ⟨hw, hk⟩⟩
      · rw [List.mem_singleton.mp hp] at hk
        exact absurd rfl hk

/-- After a write every promise is kept exactly when it was before and the write agrees with
what was held. -/
theorem faithful_write_iff {L : Ledger K V} (h : Balanced L) (k : K) (v : V) :
    Faithful (L.write k v) ↔ Faithful L ∧ Agrees L k v := by
  constructor
  · intro hf
    have hagree : Agrees L k v := by
      intro w hw
      rcases hf (k, w) (List.mem_append_left _ (h.backed _ hw)) with he | ⟨-, hne⟩
      · exact congrArg Prod.snd he
      · exact absurd rfl hne
    refine ⟨fun p hp ↦ ?_, hagree⟩
    rcases hf p (List.mem_append_left _ hp) with rfl | ⟨hheld, -⟩
    · obtain ⟨w, hw⟩ := h.covered _ hp
      rwa [hagree w hw] at hw
    · exact hheld
  · rintro ⟨hf, hagree⟩ p hp
    rcases List.mem_append.mp hp with hold | hnew
    · have hheld := hf p hold
      by_cases hk : p.1 = k
      · have hv : p.2 = v := hagree p.2 (by rwa [← hk])
        exact Or.inl (Prod.ext hk hv)
      · exact Or.inr ⟨hheld, hk⟩
    · exact Or.inl (List.mem_singleton.mp hnew)

end Ledger
end TimeMachine.Base
