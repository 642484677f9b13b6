import TimeMachine.Server.Draws
import TimeMachine.Base.Scaling
import Mathlib.Tactic.Ring

/-!
# How often a number is drawn

The upper bound of a range is drawn for one result of `rand()` alone, whatever the width:
the width is scaled, and not the count of numbers in the range. The draws are uniform only
where the range has one number, or so many that no other is drawn for more than two results.
-/

namespace TimeMachine.Server
open TimeMachine.Base TimeMachine.Client

/-- The results of `rand()` for which a number is drawn. -/
def drawCount (draw : Rand → UInt64) (unique : UInt64) : Nat :=
  (Finset.univ.filter fun r ↦ draw r = unique).card

/-- The upper bound less the lower one. -/
def width (range : UniqueRange) : Nat := range.till.toNat - range.from'.toNat

/-- Every number of the range is drawn for its share of the results of `rand()`, rounded down
or up. -/
def Uniform (draw : Rand → UInt64) (range : UniqueRange) : Prop :=
  ∀ unique, range.from' ≤ unique → unique ≤ range.till →
    drawCount draw unique = (randMax + 1) / (width range + 1) ∨
      drawCount draw unique = (randMax + 1) ⌈/⌉ (width range + 1)

section
variable {range : UniqueRange} {draw : Rand → UInt64}

/-- A number of the range, by its distance from the lower bound. -/
theorem toNat_from_add (h : range.from' ≤ range.till) {k : Nat} (hk : k ≤ width range) :
    (UInt64.ofNat (range.from'.toNat + k)).toNat = range.from'.toNat + k := by
  have hle := UInt64.le_iff_toNat_le.mp h
  have htill := range.till.toNat_lt
  unfold width at hk
  rw [UInt64.toNat_ofNat']
  omega

/-- Uniformity, by the distances from the lower bound. -/
theorem uniform_iff_forall_le (h : range.from' ≤ range.till) {count : Nat → Nat}
    (hcount : ∀ k ≤ width range,
      drawCount draw (UInt64.ofNat (range.from'.toNat + k)) = count k) :
    Uniform draw range ↔ ∀ k ≤ width range, count k = (randMax + 1) / (width range + 1) ∨
      count k = (randMax + 1) ⌈/⌉ (width range + 1) := by
  have hle := UInt64.le_iff_toNat_le.mp h
  constructor
  · intro huniform k hk
    have hnat := toNat_from_add h hk
    rw [← hcount k hk]
    apply huniform
    · rw [UInt64.le_iff_toNat_le, hnat]
      exact Nat.le_add_right _ _
    · unfold width at hk
      rw [UInt64.le_iff_toNat_le, hnat]
      omega
  · intro heven unique hlo hhi
    have hlo := UInt64.le_iff_toNat_le.mp hlo
    have hhi := UInt64.le_iff_toNat_le.mp hhi
    have hk : unique.toNat - range.from'.toNat ≤ width range := by
      unfold width
      omega
    have hcounted := hcount _ hk
    rw [Nat.add_sub_cancel' hlo, UInt64.ofNat_toNat] at hcounted
    rw [hcounted]
    exact heven _ hk

/-- Over HTTP each number is drawn for its share. -/
theorem SubsamplingHandler.drawCount_eq (h : range.from' ≤ range.till) {k : Nat}
    (hk : k ≤ width range) : drawCount (SubsamplingHandler.draw id range)
      (UInt64.ofNat (range.from'.toNat + k)) = Scaling.share (width range) randMax k := by
  have hdrawn (r : Rand) : SubsamplingHandler.draw id range r =
      UInt64.ofNat (range.from'.toNat + k) ↔ width range * r.val / randMax = k := by
    rw [← UInt64.toNat_inj, toNat_draw h, toNat_from_add h hk]
    exact Nat.add_left_cancel_iff
  exact Scaling.card_eq_share (R := randMax) hdrawn

/-- The draw over HTTP is uniform for a single number, and for more than 2^30 of them. -/
theorem SubsamplingHandler.uniform_iff (h : range.from' ≤ range.till)
    (hwidth : width range ≤ randMax) : Uniform (SubsamplingHandler.draw id range) range ↔
      width range = 0 ∨ 2 ^ 30 ≤ width range := by
  rw [uniform_iff_forall_le h fun k hk ↦ SubsamplingHandler.drawCount_eq h hk,
    Scaling.even_shares_iff (by decide) hwidth]
  have hmax : randMax = 2 ^ 31 - 1 := rfl
  omega

/-- Shifted below zero, the scaled result of `rand()` is rounded up, which is rounding down from
the other end. -/
theorem scaled_of_neg {w r : Nat} {from' : Int} (hneg : from' + w ≤ 0) (hr : r ≤ randMax) :
    scaled w from' r = from' + w - (w * (randMax - r) / randMax : Nat) := by
  have hmirror : (w : Int) * r + from' * randMax =
      -(((w * (randMax - r) : Nat) : Int) + -(from' + w) * randMax) := by
    push_cast [Nat.cast_sub hr]
    ring
  have hnonneg : 0 ≤ ((w * (randMax - r) : Nat) : Int) + -(from' + w) * randMax :=
    Int.add_nonneg (Int.natCast_nonneg _) (Int.mul_nonneg (by omega) (Int.natCast_nonneg _))
  rw [scaled, hmirror, Int.neg_tdiv, Int.tdiv_eq_ediv_of_nonneg hnonneg,
    Int.add_mul_ediv_right _ _ (by decide)]
  push_cast
  ring

/-- A scaled result of `rand()` is between the lower bound and the upper one. -/
theorem scaled_mem (w : Nat) (from' : Int) {r : Nat} (hr : r ≤ randMax) :
    from' ≤ scaled w from' r ∧ scaled w from' r ≤ from' + w := by
  have hprod : (w : Int) * r ≤ w * randMax :=
    Int.mul_le_mul_of_nonneg_left (by omega) (Int.natCast_nonneg w)
  have hnonneg : 0 ≤ (w : Int) * r := Int.mul_nonneg (by omega) (by omega)
  have hlow := Int.tdiv_le_tdiv (by decide : 0 < (randMax : Int))
    (Int.add_le_add_right hnonneg (from' * randMax))
  have hhigh := Int.tdiv_le_tdiv (by decide : 0 < (randMax : Int))
    (Int.add_le_add_right hprod (from' * randMax))
  rw [Int.zero_add, Int.mul_tdiv_cancel _ (by decide)] at hlow
  rw [← Int.add_mul, Int.mul_tdiv_cancel _ (by decide), Int.add_comm (w : Int)] at hhigh
  exact ⟨hlow, hhigh⟩

/-- The number drawn over gRPC from a range no wider than `RAND_MAX`. -/
theorem GRPCServer.draw_of_narrow (h : range.from' ≤ range.till) (hwidth : width range ≤ randMax)
    (r : Rand) : GRPCServer.draw id range r = UInt64.ofInt
      (scaled (width range) ((range.from'.toNat : Int).bmod (2 ^ 32)) r.val) := by
  have hsmall : ((width range : Nat) : Int).bmod (2 ^ 32) = width range := by
    have hmax : randMax = 2 ^ 31 - 1 := rfl
    exact Int.bmod_eq_of_le (by omega) (by omega)
  rw [GRPCServer.draw_eq, toInt_sub_toInt64_toInt32, toInt_toInt64_toInt32,
    ← Int.ofNat_sub (UInt64.le_iff_toNat_le.mp h), ← width, hsmall]

/-- From a small lower bound on the draws are the same. -/
theorem GRPCServer.draw_of_lt (h : range.from' ≤ range.till) (hwidth : width range ≤ randMax)
    (hfrom : range.from'.toNat < 2 ^ 31) :
    GRPCServer.draw id range = SubsamplingHandler.draw id range := by
  have htill := range.till.toNat_lt
  have hmax : randMax = 2 ^ 31 - 1 := rfl
  unfold width at hwidth
  funext r
  exact (draw_eq_draw_iff h r).mpr ((scaled_narrow_iff (by omega)).mpr (Or.inl (by omega)) r)

/-- From a large lower bound on each number is drawn for the share of the one that is as far
from the other end. -/
theorem GRPCServer.drawCount_of_le (h : range.from' ≤ range.till) (hwidth : width range ≤ randMax)
    (hfrom : 2 ^ 64 - 2 ^ 31 ≤ range.from'.toNat) {k : Nat} (hk : k ≤ width range) :
    drawCount (GRPCServer.draw id range) (UInt64.ofNat (range.from'.toNat + k)) =
      Scaling.share (width range) randMax (width range - k) := by
  have hle := UInt64.le_iff_toNat_le.mp h
  have hlt := range.from'.toNat_lt
  have htill := range.till.toNat_lt
  obtain ⟨m, hm, hmlo, hmhi⟩ := bmod_spec range.from'.toNat
  have hneg : (range.from'.toNat : Int).bmod (2 ^ 32) = range.from'.toNat - 2 ^ 64 := by omega
  have hsum : (range.from'.toNat : Int) - 2 ^ 64 + width range ≤ 0 := by
    unfold width
    omega
  have hdrawn (r : Rand) : GRPCServer.draw id range r =
      UInt64.ofNat (range.from'.toNat + k) ↔
        width range * (randMax - r.val) / randMax = width range - k := by
    have hscale : width range * (randMax - r.val) / randMax ≤ width range :=
      scale_le _ ⟨randMax - r.val, by have : randMax = 2 ^ 31 - 1 := rfl; omega⟩
    rw [GRPCServer.draw_of_narrow h hwidth, hneg,
      scaled_of_neg hsum (Nat.le_of_lt_succ r.isLt), ← UInt64.toNat_inj, toNat_from_add h hk,
      UInt64.ofInt, UInt64.toNat_ofNat']
    generalize width range * (randMax - r.val) / randMax = q at hscale ⊢
    have hbound : range.from'.toNat + width range < 2 ^ 64 := by
      unfold width
      omega
    omega
  exact Scaling.card_eq_share_rev (R := randMax) hdrawn

/-- From any other lower bound on the lower bound itself is not drawn. -/
theorem GRPCServer.draw_ne_from (h : range.from' ≤ range.till) (hwidth : width range ≤ randMax)
    (hlarge : 2 ^ 31 ≤ range.from'.toNat) (hsmall : range.from'.toNat < 2 ^ 64 - 2 ^ 31)
    (r : Rand) : GRPCServer.draw id range r ≠ range.from' := by
  obtain ⟨m, hm, hmlo, hmhi⟩ := bmod_spec range.from'.toNat
  have hmem := scaled_mem (width range) ((range.from'.toNat : Int).bmod (2 ^ 32))
    (Nat.le_of_lt_succ r.isLt)
  have hmax : randMax = 2 ^ 31 - 1 := rfl
  intro heq
  rw [GRPCServer.draw_of_narrow h hwidth, ← UInt64.toNat_inj, UInt64.ofInt,
    UInt64.toNat_ofNat'] at heq
  omega

/-- A number that is not drawn makes a draw uneven. -/
theorem not_uniform_of_ne (h : range.from' ≤ range.till) (hwidth : width range ≤ randMax)
    (hne : ∀ r, draw r ≠ range.from') : ¬ Uniform draw range := by
  intro huniform
  have hzero : drawCount draw range.from' = 0 :=
    Finset.card_eq_zero.mpr (Finset.filter_eq_empty_iff.mpr fun r _ ↦ hne r)
  have hfloor : 0 < (randMax + 1) / (width range + 1) :=
    Nat.div_pos (Nat.succ_le_succ hwidth) (Nat.succ_pos _)
  have hceil : ¬ (randMax + 1) ⌈/⌉ (width range + 1) ≤ 0 := by
    rw [ceilDiv_le_iff_le_mul (Nat.succ_pos _)]
    omega
  have heven := huniform range.from' (UInt64.le_refl _) h
  omega

/-- The draw over gRPC is uniform for the same counts of numbers, if the lower bound is an `int`,
taken with its sign or not. -/
theorem GRPCServer.uniform_iff (h : range.from' ≤ range.till) (hwidth : width range ≤ randMax) :
    Uniform (GRPCServer.draw id range) range ↔
      (width range = 0 ∨ 2 ^ 30 ≤ width range) ∧
        (range.from'.toNat < 2 ^ 31 ∨ 2 ^ 64 - 2 ^ 31 ≤ range.from'.toNat) := by
  by_cases hlt : range.from'.toNat < 2 ^ 31
  · rw [GRPCServer.draw_of_lt h hwidth hlt, SubsamplingHandler.uniform_iff h hwidth,
      and_iff_left (Or.inl hlt)]
  by_cases hge : 2 ^ 64 - 2 ^ 31 ≤ range.from'.toNat
  · rw [and_iff_left (Or.inr hge),
      uniform_iff_forall_le h fun k hk ↦ GRPCServer.drawCount_of_le h hwidth hge hk,
      Scaling.even_shares_rev_iff (by decide) hwidth]
    have hmax : randMax = 2 ^ 31 - 1 := rfl
    omega
  · refine iff_of_false ?_ (by omega)
    exact not_uniform_of_ne h hwidth (GRPCServer.draw_ne_from h hwidth (by omega) (by omega))

end

/-- For every range in order with at most `RAND_MAX + 1` numbers, the draws give each number its
share of the results of `rand()` exactly if the range has one number or more than 2^30 of them
and, over gRPC, the lower bound is below 2^31 or at least 2^64 - 2^31. -/
theorem draws_uniform_iff {range : UniqueRange} (h : range.from' ≤ range.till)
    (hwidth : width range + 1 ≤ randMax + 1) :
    (Uniform (SubsamplingHandler.draw id range) range ↔
        width range = 0 ∨ 2 ^ 30 ≤ width range) ∧
      (Uniform (GRPCServer.draw id range) range ↔
        (width range = 0 ∨ 2 ^ 30 ≤ width range) ∧
          (range.from'.toNat < 2 ^ 31 ∨ 2 ^ 64 - 2 ^ 31 ≤ range.from'.toNat)) :=
  have hwidth := Nat.le_of_succ_le_succ hwidth
  ⟨SubsamplingHandler.uniform_iff h hwidth, GRPCServer.uniform_iff h hwidth⟩

/-- A single number is drawn for every result of `rand()`. -/
theorem draws_uniform_one : Uniform (SubsamplingHandler.draw id ⟨7, 7⟩) ⟨7, 7⟩ ∧
    Uniform (GRPCServer.draw id ⟨7, 7⟩) ⟨7, 7⟩ := by
  have hle : (⟨7, 7⟩ : UniqueRange).from' ≤ (⟨7, 7⟩ : UniqueRange).till := by decide
  have huniform := draws_uniform_iff hle (by decide)
  exact ⟨huniform.1.mpr (by decide), huniform.2.mpr (by decide)⟩

/-- Of two numbers the second is drawn for one result of `rand()`, and not for every other. -/
theorem draws_uneven : drawCount (SubsamplingHandler.draw id ⟨0, 1⟩) 1 = 1 ∧
    ¬ ∀ range : UniqueRange, range.from' ≤ range.till → width range + 1 ≤ randMax + 1 →
      Uniform (SubsamplingHandler.draw id range) range ∧
        Uniform (GRPCServer.draw id range) range := by
  have hle : (⟨0, 1⟩ : UniqueRange).from' ≤ (⟨0, 1⟩ : UniqueRange).till := by decide
  constructor
  · rw [← Scaling.share_top (by decide : 0 < 1) (by decide : 0 < randMax)]
    exact SubsamplingHandler.drawCount_eq hle (k := 1) (by decide)
  · intro hall
    have huniform := (hall ⟨0, 1⟩ hle (by decide)).1
    rw [SubsamplingHandler.uniform_iff hle (by decide)] at huniform
    revert huniform
    decide

end TimeMachine.Server
