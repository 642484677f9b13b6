import Mathlib.Algebra.BigOperators.Fin
import Mathlib.Algebra.Order.Floor.Div
import Mathlib.Order.Interval.Finset.Nat

/-!
# Scaling a range of numbers

The numbers from zero to `R` are scaled to those from zero to `w` by multiplying with `w`,
dividing by `R` and rounding down. Every number below `w` gets its share of them, `R / w`
rounded down or up. The number `w` itself gets one, so the shares are as even as they can be
only where the others get two at most.
-/

namespace TimeMachine.Base.Scaling
variable {w R k : Nat}

/-- What is scaled to `k` is an interval. -/
theorem scaled_eq_iff (hw : 0 < w) (hR : 0 < R) {r : Nat} :
    w * r / R = k ↔ (k * R) ⌈/⌉ w ≤ r ∧ r < ((k + 1) * R) ⌈/⌉ w := by
  rw [← Nat.not_le, ceilDiv_le_iff_le_mul hw, ceilDiv_le_iff_le_mul hw, Nat.not_le,
    Nat.div_eq_iff hR]
  constructor
  · rintro ⟨hlo, hhi⟩
    exact ⟨hlo, by rw [Nat.add_mul]; omega⟩
  · rintro ⟨hlo, hhi⟩
    exact ⟨hlo, by rw [Nat.add_mul] at hhi; omega⟩

/-- How many numbers are scaled to `k`. -/
def share (w R k : Nat) : Nat := ((Finset.range (R + 1)).filter fun r ↦ w * r / R = k).card

/-- Below the top the share is the length of the interval. -/
theorem share_eq (hR : 0 < R) (hk : k < w) :
    share w R k = ((k + 1) * R) ⌈/⌉ w - (k * R) ⌈/⌉ w := by
  have hw : 0 < w := by omega
  have hend : ((k + 1) * R) ⌈/⌉ w ≤ R :=
    (ceilDiv_le_iff_le_mul hw).mpr (Nat.mul_le_mul_right R hk)
  have hinterval : (Finset.range (R + 1)).filter (fun r ↦ w * r / R = k) =
      Finset.Ico ((k * R) ⌈/⌉ w) (((k + 1) * R) ⌈/⌉ w) := by
    ext r
    rw [Finset.mem_filter, Finset.mem_range, Finset.mem_Ico, scaled_eq_iff hw hR]
    omega
  rw [share, hinterval, Nat.card_Ico]

/-- Rounded up, a sum exceeds its first summand by the second, rounded down or up. -/
theorem ceilDiv_add_bounds (hw : 0 < w) (x y : Nat) :
    x ⌈/⌉ w + y / w ≤ (x + y) ⌈/⌉ w ∧ (x + y) ⌈/⌉ w ≤ x ⌈/⌉ w + y ⌈/⌉ w := by
  constructor
  · rw [Nat.ceilDiv_eq_add_pred_div, Nat.ceilDiv_eq_add_pred_div,
      ← Nat.add_mul_div_left _ _ hw]
    apply Nat.div_le_div_right
    have := Nat.mul_div_le y w
    omega
  · have hx : x ≤ w * (x ⌈/⌉ w) := (ceilDiv_le_iff_le_mul hw).mp le_rfl
    have hy : y ≤ w * (y ⌈/⌉ w) := (ceilDiv_le_iff_le_mul hw).mp le_rfl
    rw [ceilDiv_le_iff_le_mul hw, Nat.mul_add]
    omega

/-- Below the top the share is the average, rounded down or up. -/
theorem share_bounds (hR : 0 < R) (hk : k < w) :
    R / w ≤ share w R k ∧ share w R k ≤ R ⌈/⌉ w := by
  have hbounds := ceilDiv_add_bounds (by omega : 0 < w) (k * R) R
  rw [share_eq hR hk, Nat.add_mul, Nat.one_mul]
  omega

/-- The top gets one. -/
theorem share_top (hw : 0 < w) (hR : 0 < R) : share w R w = 1 := by
  have htop : (Finset.range (R + 1)).filter (fun r ↦ w * r / R = w) = {R} := by
    ext r
    rw [Finset.mem_filter, Finset.mem_range, Finset.mem_singleton]
    constructor
    · rintro ⟨hr, heq⟩
      have hlo := (Nat.le_div_iff_mul_le hR).mp (Nat.le_of_eq heq.symm)
      have := Nat.le_of_mul_le_mul_left hlo hw
      omega
    · rintro rfl
      exact ⟨Nat.lt_succ_self r, Nat.mul_div_cancel w hR⟩
  rw [share, htop, Finset.card_singleton]

/-- Zero gets everything if there is nothing else. -/
theorem share_zero : share 0 R 0 = R + 1 := by
  simp [share]

/-- Shares that cannot be halved are even. -/
theorem share_of_le_twice (hle : w ≤ R) (htwice : R ≤ 2 * w) (hk : k < w) :
    share w R k = 1 ∨ share w R k = (R + 1) ⌈/⌉ (w + 1) := by
  have hw : 0 < w := by omega
  have hbounds := share_bounds (by omega : 0 < R) hk
  have hlow : 1 ≤ R / w := (Nat.one_le_div_iff hw).mpr hle
  rcases Nat.eq_or_lt_of_le hle with rfl | hlt
  · have hhigh : w ⌈/⌉ w ≤ 1 := (ceilDiv_le_iff_le_mul hw).mpr (by omega)
    omega
  · have hhigh : R ⌈/⌉ w ≤ 2 := (ceilDiv_le_iff_le_mul hw).mpr (by omega)
    have hceil : (R + 1) ⌈/⌉ (w + 1) ≤ 2 :=
      (ceilDiv_le_iff_le_mul (Nat.succ_pos w)).mpr (by omega)
    have hmore : ¬ (R + 1) ⌈/⌉ (w + 1) ≤ 1 := by
      rw [ceilDiv_le_iff_le_mul (Nat.succ_pos w)]
      omega
    omega

/-- Every number gets the average over all of them, rounded down or up, exactly if there is none
but zero, or the average is below two. -/
theorem even_shares_iff (hR : 0 < R) (hle : w ≤ R) :
    (∀ k ≤ w, share w R k = (R + 1) / (w + 1) ∨ share w R k = (R + 1) ⌈/⌉ (w + 1)) ↔
      w = 0 ∨ R ≤ 2 * w := by
  constructor
  · intro heven
    by_contra hnot
    have htop := heven w le_rfl
    rw [share_top (by omega) hR] at htop
    have hfloor : 2 ≤ (R + 1) / (w + 1) :=
      (Nat.le_div_iff_mul_le (Nat.succ_pos w)).mpr (by omega)
    have hceil : ¬ (R + 1) ⌈/⌉ (w + 1) ≤ 1 := by
      rw [ceilDiv_le_iff_le_mul (Nat.succ_pos w)]
      omega
    omega
  · rintro (rfl | htwice) k hk
    · obtain rfl : k = 0 := by omega
      rw [share_zero, Nat.div_one]
      exact Or.inl rfl
    · have hone : (R + 1) / (w + 1) = 1 := Nat.div_eq_of_lt_le (by omega) (by omega)
      rw [hone]
      rcases Nat.eq_or_lt_of_le hk with rfl | hlt
      · exact Or.inl (share_top (by omega) hR)
      · exact share_of_le_twice hle htwice hlt

/-- The same from the other end. -/
theorem even_shares_rev_iff (hR : 0 < R) (hle : w ≤ R) :
    (∀ k ≤ w, share w R (w - k) = (R + 1) / (w + 1) ∨
        share w R (w - k) = (R + 1) ⌈/⌉ (w + 1)) ↔ w = 0 ∨ R ≤ 2 * w := by
  rw [← even_shares_iff hR hle]
  constructor
  · intro heven k hk
    have hmirror := heven (w - k) (Nat.sub_le w k)
    rwa [Nat.sub_sub_self hk] at hmirror
  · intro heven k _
    exact heven (w - k) (Nat.sub_le w k)

/-- The share, counted over a bounded type. -/
theorem card_eq_share {β : Type*} [DecidableEq β] {draw : Fin (R + 1) → β} {b : β}
    (h : ∀ r, draw r = b ↔ w * r.val / R = k) :
    (Finset.univ.filter fun r ↦ draw r = b).card = share w R k := by
  rw [share, Finset.card_filter, Finset.card_filter,
    ← Fin.sum_univ_eq_sum_range fun r ↦ if w * r / R = k then 1 else 0]
  exact Finset.sum_congr rfl fun r _ ↦ if_congr (h r) rfl rfl

/-- The share, counted from the other end. -/
theorem card_eq_share_rev {β : Type*} [DecidableEq β] {draw : Fin (R + 1) → β} {b : β}
    (h : ∀ r, draw r = b ↔ w * (R - r.val) / R = k) :
    (Finset.univ.filter fun r ↦ draw r = b).card = share w R k := by
  have hrev (r : Fin (R + 1)) : draw r.rev = b ↔ w * r.val / R = k := by
    rw [h, Fin.val_rev, Nat.add_sub_add_right, Nat.sub_sub_self (Nat.le_of_lt_succ r.isLt)]
  rw [← card_eq_share hrev]
  apply Finset.card_equiv Fin.revPerm
  intro r
  simp

end TimeMachine.Base.Scaling
