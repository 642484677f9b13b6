import TimeMachine.Server.Subsample
import Mathlib.Data.Rat.Lemmas

/-!
# What a subsample draws

With exact arithmetic a draw scales the result of `rand()` to the width of the range and
adds the lower bound. The HTTP handler does this in unsigned 64-bit numbers and stays in
the range. The gRPC handler holds the bounds in `int`s, which keeps the result for ranges
below 2^31 only.
-/

namespace TimeMachine.Server
open TimeMachine.Base TimeMachine.Store TimeMachine.Client

/-- The scaled result of `rand()`, shifted by the lower bound and truncated. -/
def scaled (width from' : Int) (r : Nat) : Int := (width * r + from' * randMax).tdiv randMax

/-- The conversion truncates a fraction. -/
theorem toULong_div (a : Int) {b : Nat} (hb : 0 < b) :
    toULong ((a : ℚ) / b) = UInt64.ofInt (a.tdiv b) := by
  have hne : (b : Int) ≠ 0 := by omega
  obtain ⟨c, hnum, hden⟩ := Rat.num_den_mk hne (Rat.divInt_eq_div a b).symm
  have hc : 0 < c := by
    by_contra hle
    have hprod : c * (((a : ℚ) / (b : Int)).den : Int) ≤ 0 :=
      Int.mul_nonpos_of_nonpos_of_nonneg (by omega) (by omega)
    omega
  rw [Int.cast_natCast] at hnum hden
  rw [toULong]
  congr 1
  conv_rhs => rw [hnum, hden]
  exact (Int.mul_tdiv_mul_of_pos _ _ hc).symm

/-- The sum the handlers form, with exact arithmetic. -/
theorem toULong_scaled (width from' : Int) (r : Rand) :
    toULong (width * (r.val / randMax : ℚ) + from') = UInt64.ofInt (scaled width from' r.val) := by
  have hmax : (randMax : ℚ) ≠ 0 := by decide
  have hfraction : (width * (r.val / randMax : ℚ) + from') =
      ((width * r.val + from' * randMax : Int) : ℚ) / randMax := by
    push_cast
    rw [eq_div_iff hmax, add_mul, mul_assoc, div_mul_cancel₀ _ hmax]
  rw [hfraction, toULong_div _ (by decide), scaled]

/-- Truncation rounds down, except that it rounds a negative fraction up. -/
theorem scaled_eq (width from' : Int) (r : Nat) :
    scaled width from' r = width * r / randMax + from' +
      if 0 ≤ width * r + from' * randMax ∨ (randMax : Int) ∣ width * r then 0 else 1 := by
  have hdvd : (randMax : Int) ∣ width * r + from' * randMax ↔ (randMax : Int) ∣ width * r :=
    Int.dvd_add_left (Int.dvd_mul_left _ _)
  rw [scaled, Int.tdiv_eq_ediv, Int.add_mul_ediv_right _ _ (by decide)]
  congr 1
  exact if_congr (or_congr Iff.rfl hdvd) rfl rfl

/-- Nothing is rounded where `rand()` scales to a whole number. -/
theorem scaled_of_dvd {width : Int} {r : Nat} (h : (randMax : Int) ∣ width * r) (from' : Int) :
    scaled width from' r = width * r / randMax + from' := by
  rw [scaled_eq, if_pos (Or.inr h), Int.add_zero]

/-- For unsigned numbers it rounds down. -/
theorem scaled_natCast (width from' r : Nat) :
    scaled width from' r = ((from' + width * r / randMax : Nat) : Int) := by
  have hnonneg : 0 ≤ (width : Int) * r + from' * randMax :=
    Int.natCast_nonneg (width * r + from' * randMax)
  rw [scaled_eq, if_pos (Or.inl hnonneg), Int.add_zero, Int.add_comm]
  rfl

/-- A scaled result of `rand()` is at most the width. -/
theorem scale_le (width : Nat) (r : Rand) : width * r.val / randMax ≤ width := by
  apply Nat.div_le_of_le_mul
  rw [Nat.mul_comm]
  exact Nat.mul_le_mul_right width (Nat.le_of_lt_succ r.isLt)

/-- From the lower bound on, a scaled result of `rand()` does not pass the upper bound. -/
theorem add_scale_le {range : UniqueRange} (h : range.from' ≤ range.till) (r : Rand) :
    range.from'.toNat + (range.till.toNat - range.from'.toNat) * r.val / randMax ≤
      range.till.toNat :=
  Nat.add_le_of_le_sub' (UInt64.le_iff_toNat_le.mp h) (scale_le _ r)

/-- The number drawn over gRPC. -/
theorem GRPCServer.draw_eq (range : UniqueRange) (r : Rand) :
    GRPCServer.draw id range r = UInt64.ofInt
      (scaled (range.till.toInt64.toInt32 - range.from'.toInt64.toInt32).toInt
        range.from'.toInt64.toInt32.toInt r.val) := toULong_scaled _ _ r

/-- The number drawn over HTTP. -/
theorem SubsamplingHandler.draw_eq (range : UniqueRange) (r : Rand) :
    SubsamplingHandler.draw id range r = UInt64.ofInt
      (scaled (range.till - range.from').toNat range.from'.toNat r.val) := by
  rw [← toULong_scaled]
  rfl

/-- Over HTTP the number drawn is the lower bound plus the scaled result of `rand()`. -/
theorem SubsamplingHandler.toNat_draw {range : UniqueRange} (h : range.from' ≤ range.till)
    (r : Rand) : (SubsamplingHandler.draw id range r).toNat =
      range.from'.toNat + (range.till.toNat - range.from'.toNat) * r.val / randMax := by
  have htill := range.till.toNat_lt
  have hsum := add_scale_le h r
  rw [draw_eq, scaled_natCast, UInt64.toNat_sub_of_le _ _ h, UInt64.ofInt, UInt64.toNat_ofNat']
  generalize range.from'.toNat + _ * r.val / randMax = x at hsum ⊢
  omega

/-- What becomes of a number that is converted to `int`. -/
theorem toInt_toInt64_toInt32 (x : UInt64) :
    x.toInt64.toInt32.toInt = (x.toNat : Int).bmod (2 ^ 32) := by
  rw [Int64.toInt_toInt32]
  show (x.toBitVec.toInt).bmod (2 ^ 32) = _
  rw [BitVec.toInt_eq_toNat_bmod, Int.bmod_bmod_of_dvd (by decide)]
  rfl

/-- The difference of two numbers that were converted to `int`. -/
theorem toInt_sub_toInt64_toInt32 (x y : UInt64) :
    (x.toInt64.toInt32 - y.toInt64.toInt32).toInt =
      ((x.toNat : Int) - y.toNat).bmod (2 ^ 32) := by
  rw [Int32.toInt_sub, toInt_toInt64_toInt32, toInt_toInt64_toInt32, Int.sub_bmod_bmod,
    Int.bmod_sub_bmod]

/-- The `int` a number becomes differs from it by a multiple of 2^32. -/
theorem bmod_spec (x : Int) : ∃ k, x.bmod (2 ^ 32) = x - 2 ^ 32 * k ∧
    -2 ^ 31 ≤ x.bmod (2 ^ 32) ∧ x.bmod (2 ^ 32) < 2 ^ 31 := by
  refine ⟨(x - x.bmod (2 ^ 32)) / 2 ^ 32, ?_, ?_⟩
  · simp only [Int.bmod]
    split <;> omega
  · simp only [Int.bmod]
    split <;> omega

/-- Computed with the bounds as `int`s, all draws are the same modulo 2^64 exactly if the lower
bound and the width are `int`s as they are, or the lower bound is one as a negative number and
the width is zero or `RAND_MAX`. -/
theorem scaled_narrow_iff {f w : Nat} (hlt : f + w < 2 ^ 64) :
    (∀ r : Rand, scaled ((w : Int).bmod (2 ^ 32)) ((f : Int).bmod (2 ^ 32)) r.val % 2 ^ 64 =
        ((f + w * r.val / randMax : Nat) : Int)) ↔
      (f < 2 ^ 31 ∧ w < 2 ^ 31) ∨ (2 ^ 64 - 2 ^ 31 ≤ f ∧ (w = 0 ∨ w = 2 ^ 31 - 1)) := by
  obtain ⟨kf, hf, hflo, hfhi⟩ := bmod_spec f
  obtain ⟨kw, hw, hwlo, hwhi⟩ := bmod_spec w
  generalize (f : Int).bmod (2 ^ 32) = F at *
  generalize (w : Int).bmod (2 ^ 32) = W at *
  constructor
  · intro hall
    -- the least, the second and the greatest result of `rand()` tell all cases apart
    have hfirst : F % 2 ^ 64 = f := by
      have h := hall 0
      rw [scaled_of_dvd (by simp)] at h
      simpa using h
    have hlast : (W + F) % 2 ^ 64 = f + w := by
      have h := hall ⟨randMax, by decide⟩
      rw [scaled_of_dvd (Int.dvd_mul_left _ _), Int.mul_ediv_cancel _ (by decide),
        Nat.mul_div_cancel _ (by decide)] at h
      exact h
    have hsecond : (W / 2147483647 + F +
        if 0 ≤ W + F * 2147483647 ∨ (2147483647 : Int) ∣ W then 0 else 1) % 2 ^ 64 =
          f + w / 2147483647 := by
      have h := hall 1
      rw [scaled_eq] at h
      have hone : ((1 : Rand).val : Int) = 1 := rfl
      have hmax : (randMax : Int) = 2147483647 := rfl
      push_cast [hone, hmax, Int.mul_one] at h
      exact h
    split at hsecond <;> omega
  · rintro (⟨hfsmall, hwsmall⟩ | ⟨hflarge, hwidth⟩) r
    · have hF : F = f := by omega
      have hW : W = w := by omega
      have hscale := scale_le w r
      rw [hF, hW, scaled_natCast]
      generalize w * r.val / randMax = q at hscale ⊢
      omega
    · have hF : F = f - 2 ^ 64 := by omega
      have hW : W = w := by omega
      have hscale := scale_le w r
      have hdvd : (randMax : Int) ∣ (w : Int) * r.val := by
        rcases hwidth with rfl | rfl
        · simp
        · exact Int.dvd_mul_right _ _
      rw [hF, hW, scaled_of_dvd hdvd]
      have hcast : (w : Int) * r.val / randMax = ((w * r.val / randMax : Nat) : Int) := rfl
      rw [hcast]
      generalize w * r.val / randMax = q at hscale ⊢
      omega

/-- A number drawn over HTTP is in the range. -/
theorem SubsamplingHandler.draw_mem {range : UniqueRange} (h : range.from' ≤ range.till)
    (r : Rand) : range.from' ≤ SubsamplingHandler.draw id range r ∧
      SubsamplingHandler.draw id range r ≤ range.till := by
  rw [UInt64.le_iff_toNat_le, UInt64.le_iff_toNat_le, toNat_draw h]
  exact ⟨Nat.le_add_right _ _, add_scale_le h r⟩

/-- When the two draws make the same of a result of `rand()`. -/
theorem draw_eq_draw_iff {range : UniqueRange} (h : range.from' ≤ range.till) (r : Rand) :
    GRPCServer.draw id range r = SubsamplingHandler.draw id range r ↔
      scaled (((range.till.toNat - range.from'.toNat : Nat) : Int).bmod (2 ^ 32))
          ((range.from'.toNat : Int).bmod (2 ^ 32)) r.val % 2 ^ 64 =
        ((range.from'.toNat +
          (range.till.toNat - range.from'.toNat) * r.val / randMax : Nat) : Int) := by
  have htill := range.till.toNat_lt
  have hsum := add_scale_le h r
  rw [← UInt64.toNat_inj, SubsamplingHandler.toNat_draw h, GRPCServer.draw_eq,
    toInt_sub_toInt64_toInt32, toInt_toInt64_toInt32,
    ← Int.ofNat_sub (UInt64.le_iff_toNat_le.mp h), UInt64.ofInt, UInt64.toNat_ofNat']
  generalize scaled _ _ _ = x
  generalize range.from'.toNat + _ * r.val / randMax = y at hsum ⊢
  omega

/-- For every range in order the two draws look up the same number for each result of `rand()`,
and one in the range, exactly if the lower bound and the width of the range are below 2^31, or
the lower bound is at least 2^64 - 2^31 and the width is zero or `RAND_MAX`. -/
theorem draws_agree_iff {range : UniqueRange} (h : range.from' ≤ range.till) :
    (∀ r : Rand, GRPCServer.draw id range r = SubsamplingHandler.draw id range r ∧
        range.from' ≤ SubsamplingHandler.draw id range r ∧
        SubsamplingHandler.draw id range r ≤ range.till) ↔
      (range.from'.toNat < 2 ^ 31 ∧ range.till.toNat - range.from'.toNat < 2 ^ 31) ∨
        (2 ^ 64 - 2 ^ 31 ≤ range.from'.toNat ∧
          (range.till.toNat - range.from'.toNat = 0 ∨
            range.till.toNat - range.from'.toNat = 2 ^ 31 - 1)) := by
  have hle := UInt64.le_iff_toNat_le.mp h
  have htill := range.till.toNat_lt
  rw [← scaled_narrow_iff (by omega)]
  apply forall_congr'
  intro r
  rw [and_iff_left (SubsamplingHandler.draw_mem h r), draw_eq_draw_iff h]

/-- The draws agree on a folder with six numbers. -/
theorem draws_agree_six : GRPCServer.draw id ⟨0, 5⟩ = SubsamplingHandler.draw id ⟨0, 5⟩ := by
  have hle : (⟨0, 5⟩ : UniqueRange).from' ≤ (⟨0, 5⟩ : UniqueRange).till := by decide
  funext r
  exact ((draws_agree_iff hle).mpr (Or.inl (by decide)) r).1

/-- In a folder with the numbers from 0 to 2^31 the last number is drawn over HTTP, and 2^64 - 2^31
over gRPC. -/
theorem draws_disagree :
    ¬ ∀ range : UniqueRange, range.from' ≤ range.till →
      ∀ r : Rand, GRPCServer.draw id range r = SubsamplingHandler.draw id range r ∧
        range.from' ≤ SubsamplingHandler.draw id range r ∧
        SubsamplingHandler.draw id range r ≤ range.till := by
  intro hall
  have hsame := (hall ⟨0, 2 ^ 31⟩ (by decide) ⟨randMax, by decide⟩).1
  revert hsame
  decide +kernel

end TimeMachine.Server
