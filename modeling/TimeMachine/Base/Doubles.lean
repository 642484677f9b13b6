import Mathlib.Algebra.Order.Floor.Semiring
import Mathlib.Data.Rat.Floor
import Mathlib.Tactic.Linarith

/-!
# Scaling with rounded arithmetic

Arithmetic with `double`s rounds every result. A fraction that is scaled to a width and
shifted with such arithmetic stays between the two ends, and reaches both. What it comes
to is close to the exact result, so that in small enough steps of the fraction no whole
number between the ends is skipped.
-/

namespace TimeMachine.Base

/-- Rounding to a significand of 53 bits, with exponents as large as needed: it keeps the order and
leaves the numbers alone that fit, and what it changes is less than the last of the bits. -/
structure RoundsToDouble (rnd : ℚ → ℚ) : Prop where
  mono : Monotone rnd
  exact : ∀ n : ℕ, n ≤ 2 ^ 53 → rnd n = n
  close : ∀ (k : ℕ) (x : ℚ), |x| ≤ 2 ^ k → |rnd x - x| ≤ 2 ^ k / 2 ^ 53

/-- A fraction, scaled to a width and shifted, rounded each time. -/
def scaleRounded (rnd : ℚ → ℚ) (w f : ℕ) (x : ℚ) : ℚ := rnd (rnd (w * rnd x) + f)

/-- Exact arithmetic needs no rounding. -/
theorem roundsToDouble_id : RoundsToDouble id where
  mono := monotone_id
  exact _ _ := rfl
  close k x _ := by
    rw [id, sub_self, abs_zero]
    positivity

/-- A sequence that goes up by one at most reaches every number on its way. -/
theorem exists_eq_of_succ_le {g : ℕ → ℕ} {k n : ℕ} (hstep : ∀ i < n, g (i + 1) ≤ g i + 1)
    (hlo : g 0 ≤ k) (hhi : k ≤ g n) : ∃ i ≤ n, g i = k := by
  induction n with
  | zero => exact ⟨0, Nat.le_refl 0, Nat.le_antisymm hlo hhi⟩
  | succ n ih =>
    by_cases hk : k ≤ g n
    · obtain ⟨i, hi, heq⟩ := ih (fun i hi ↦ hstep i (Nat.lt_succ_of_lt hi)) hk
      exact ⟨i, Nat.le_succ_of_le hi, heq⟩
    · have hlast := hstep n (Nat.lt_succ_self n)
      exact ⟨n + 1, Nat.le_refl _, by omega⟩

namespace RoundsToDouble
variable {rnd : ℚ → ℚ} (h : RoundsToDouble rnd) {w f : ℕ} {x : ℚ}

include h

/-- Rounding stays between whole numbers. -/
theorem mem_Icc {a b : ℕ} (hb : b ≤ 2 ^ 53) (hab : a ≤ b) (hx : x ∈ Set.Icc (a : ℚ) b) :
    rnd x ∈ Set.Icc (a : ℚ) b := by
  constructor
  · rw [← h.exact a (Nat.le_trans hab hb)]
    exact h.mono hx.1
  · rw [← h.exact b hb]
    exact h.mono hx.2

/-- A fraction stays one. -/
theorem fraction (hx : x ∈ Set.Icc (0 : ℚ) 1) : rnd x ∈ Set.Icc (0 : ℚ) 1 := by
  have hmem := h.mem_Icc (a := 0) (b := 1) (by decide) (by decide) (x := x)
  rw [Nat.cast_zero, Nat.cast_one] at hmem
  exact hmem hx

/-- A fraction scaled to a width stays within it. -/
theorem width (hw : w ≤ 2 ^ 53) (hx : x ∈ Set.Icc (0 : ℚ) 1) :
    rnd (w * rnd x) ∈ Set.Icc (0 : ℚ) w := by
  obtain ⟨hlo, hhi⟩ := h.fraction hx
  have hmem := h.mem_Icc (a := 0) (b := w) hw (Nat.zero_le w) (x := w * rnd x)
  rw [Nat.cast_zero] at hmem
  exact hmem ⟨by positivity, mul_le_of_le_one_right (Nat.cast_nonneg w) hhi⟩

/-- Shifted, it stays between the ends. -/
theorem scaleRounded_mem (hfit : f + w ≤ 2 ^ 53) (hx : x ∈ Set.Icc (0 : ℚ) 1) :
    scaleRounded rnd w f x ∈ Set.Icc (f : ℚ) (f + w : ℕ) := by
  obtain ⟨hlo, hhi⟩ := h.width (w := w) (by omega) hx
  refine h.mem_Icc hfit (Nat.le_add_right f w) ⟨?_, ?_⟩
  · linarith
  · push_cast
    linarith

/-- The lower end is reached. -/
theorem scaleRounded_zero (hf : f ≤ 2 ^ 53) : scaleRounded rnd w f 0 = f := by
  have hzero : rnd 0 = 0 := by
    have hexact := h.exact 0 (by decide)
    rwa [Nat.cast_zero] at hexact
  rw [scaleRounded, hzero, mul_zero, hzero, zero_add, h.exact f hf]

/-- The upper end is reached. -/
theorem scaleRounded_one (hfit : f + w ≤ 2 ^ 53) : scaleRounded rnd w f 1 = (f + w : ℕ) := by
  have hone : rnd 1 = 1 := by
    have hexact := h.exact 1 (by decide)
    rwa [Nat.cast_one] at hexact
  rw [scaleRounded, hone, mul_one, h.exact w (by omega), ← Nat.cast_add, Nat.add_comm w f,
    h.exact _ hfit]

/-- The result is close to the exact one. -/
theorem scaleRounded_close (hw : w ≤ 2 ^ 31) (hf : f ≤ 2 ^ 31) (hx : x ∈ Set.Icc (0 : ℚ) 1) :
    |scaleRounded rnd w f x - (w * x + f)| ≤ 1 / 2 ^ 20 := by
  obtain ⟨hxlo, hxhi⟩ := hx
  obtain ⟨hlo, hhi⟩ := h.fraction ⟨hxlo, hxhi⟩
  obtain ⟨hwlo, hwhi⟩ := h.width (Nat.le_trans hw (by decide)) ⟨hxlo, hxhi⟩
  have hwq : (w : ℚ) ≤ 2 ^ 31 := by exact_mod_cast hw
  have hfq : (f : ℚ) ≤ 2 ^ 31 := by exact_mod_cast hf
  have hpos : (0 : ℚ) ≤ w := Nat.cast_nonneg w
  have hfpos : (0 : ℚ) ≤ f := Nat.cast_nonneg f
  -- the error of the fraction, scaled with it
  have hfraction : |w * rnd x - w * x| ≤ 2 ^ 31 * (1 / 2 ^ 53) := by
    have hclose := h.close 0 x (by rw [abs_of_nonneg hxlo]; linarith)
    rw [← mul_sub, abs_mul, abs_of_nonneg hpos]
    exact mul_le_mul hwq (by simpa using hclose) (abs_nonneg _) (by norm_num)
  -- the errors of the product and of the sum
  have hproduct : |rnd (w * rnd x) - w * rnd x| ≤ 2 ^ 31 / 2 ^ 53 := by
    refine h.close 31 _ ?_
    rw [abs_of_nonneg (mul_nonneg hpos hlo)]
    exact (mul_le_of_le_one_right hpos hhi).trans hwq
  have hsum : |rnd (rnd (w * rnd x) + f) - (rnd (w * rnd x) + f)| ≤ 2 ^ 32 / 2 ^ 53 := by
    refine h.close 32 _ ?_
    rw [abs_of_nonneg (add_nonneg hwlo hfpos)]
    linarith
  rw [scaleRounded]
  rw [abs_le] at hfraction hproduct hsum ⊢
  constructor <;> linarith

/-- In steps that are at most half as wide as a whole number no whole number is skipped. -/
theorem exists_floor_scaleRounded {R k : ℕ} (hR : 0 < R) (hw : w ≤ 2 ^ 31) (hf : f ≤ 2 ^ 31)
    (hhalf : 2 * w ≤ R) (hk : k ≤ w) :
    ∃ r ≤ R, ⌊scaleRounded rnd w f (r / R)⌋₊ = f + k := by
  have hRq : (0 : ℚ) < R := Nat.cast_pos.mpr hR
  have hmem {r : ℕ} (hr : r ≤ R) : (r / R : ℚ) ∈ Set.Icc (0 : ℚ) 1 :=
    ⟨by positivity, (div_le_one hRq).mpr (Nat.cast_le.mpr hr)⟩
  refine exists_eq_of_succ_le (g := fun r ↦ ⌊scaleRounded rnd w f (r / R)⌋₊) ?_ ?_ ?_
  · intro r hr
    have hnonneg := (h.scaleRounded_mem (w := w) (f := f) (by omega) (hmem hr.le)).1
    have hthis := abs_le.mp (h.scaleRounded_close hw hf (hmem hr.le))
    have hnext := abs_le.mp (h.scaleRounded_close hw hf (hmem (Nat.succ_le_of_lt hr)))
    have hwidth : (w / R : ℚ) ≤ 1 / 2 := by
      rw [div_le_div_iff₀ hRq two_pos]
      exact_mod_cast (by omega : w * 2 ≤ 1 * R)
    have hstep : (w * ((r + 1 : ℕ) / R) : ℚ) = w * (r / R) + w / R := by
      push_cast
      ring
    rw [← Nat.floor_add_one ((Nat.cast_nonneg f).trans hnonneg)]
    refine Nat.floor_le_floor ?_
    linarith
  · rw [Nat.cast_zero, zero_div, h.scaleRounded_zero (by omega), Nat.floor_natCast]
    exact Nat.le_add_right f k
  · rw [div_self hRq.ne', h.scaleRounded_one (by omega), Nat.floor_natCast]
    exact Nat.add_le_add_left hk f

end RoundsToDouble
end TimeMachine.Base
