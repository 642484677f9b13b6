import TimeMachine.Server.Sampling
import Mathlib.Algebra.Order.Floor.Div

/-!
# The batch loop

How often the loop over the batches runs, and where it writes the keys. The step is an
`int` taken from an unsigned number: whenever the loop body runs, it is between one and
the amount, so the loop counts down to its end. The buffer for the keys of a batch has
sixteen times the step bytes, a product that leaves the range of `int` for steps from
2^27 on.
-/

namespace TimeMachine.Server
open TimeMachine.Base TimeMachine.Store TimeMachine.Client

/-- Unless the amount is zero or too large for an `int`, the loop body does not run. -/
theorem countdown_of_not_runs {amount : UInt32} (batchSize : UInt32)
    (h : ¬ (0 < amount.toNat ∧ amount.toNat < 2 ^ 31)) :
    countdown (stepOf amount batchSize) amount.toInt32.toInt = some [] := by
  apply countdown_of_nonpos
  by_cases hsmall : amount.toNat < 2 ^ 31
  · rw [toInt_toInt32 hsmall]
    omega
  · have := toInt32_neg (Nat.le_of_not_lt hsmall)
    omega

/-- The loop of a sample with a positive step, which runs as often as the step goes into the
amount, rounded up. -/
theorem countdown_of_runs {amount : UInt32} (batchSize : UInt32)
    (h : 0 < amount.toNat ∧ amount.toNat < 2 ^ 31) :
    ∃ l, countdown (stepOf amount batchSize) amount.toInt32.toInt = some l ∧
      l.length = amount.toNat ⌈/⌉ min (batchOf batchSize) amount.toNat := by
  have hstep : 0 < min (batchOf batchSize) amount.toNat :=
    Nat.lt_min.mpr ⟨batchOf_pos batchSize, h.1⟩
  rw [stepOf_eq h.2, toInt_toInt32 h.2, Nat.ceilDiv_eq_add_pred_div]
  exact countdown_of_pos _ _ hstep

/-- The batch loop ends for all amounts and batch sizes. Whenever its body runs, the step is
between one and the amount, and the loop variable and what it is set to next are `int`s. The
body runs as often as the step goes into the amount, rounded up, if the amount is a positive
`int`, and not at all otherwise. -/
theorem batch_loop_ends (amount batchSize : UInt32) :
    ∃ l, countdown (stepOf amount batchSize) amount.toInt32.toInt = some l ∧
      (∀ pb cf draw rand, batchLoop pb cf draw rand amount batchSize =
        batches pb cf draw rand (stepOf amount batchSize).toNat l 0) ∧
      (∀ i ∈ l, (1 ≤ stepOf amount batchSize ∧ stepOf amount batchSize ≤ amount.toNat) ∧
        IsInt i ∧ IsInt (i - stepOf amount batchSize)) ∧
      l.length = if 0 < amount.toNat ∧ amount.toNat < 2 ^ 31 then
        amount.toNat ⌈/⌉ (stepOf amount batchSize).toNat else 0 := by
  by_cases hruns : 0 < amount.toNat ∧ amount.toNat < 2 ^ 31
  · obtain ⟨l, hl, hlen⟩ := countdown_of_runs batchSize hruns
    have hstep := stepOf_eq hruns.2 batchSize
    have hpos := batchOf_pos batchSize
    refine ⟨l, hl, fun pb cf draw rand ↦ by rw [batchLoop, hl], fun i hi ↦ ?_, ?_⟩
    · obtain ⟨hi0, hin⟩ := bounds_of_mem_countdown hl hi
      rw [toInt_toInt32 hruns.2] at hin
      simp only [IsInt]
      omega
    · rw [if_pos hruns, hlen, hstep, Int.toNat_natCast]
  · have hl := countdown_of_not_runs batchSize hruns
    refine ⟨[], hl, fun pb cf draw rand ↦ by rw [batchLoop, hl], fun i hi ↦ ?_, ?_⟩
    · cases hi
    · rw [if_neg hruns, List.length_nil]

/-- In every iteration of the two loops the key is written inside the buffer, whose size was
computed without overflow. -/
def KeysFit (amount batchSize : UInt32) : Prop :=
  ∀ l, countdown (stepOf amount batchSize) amount.toInt32.toInt = some l → ∀ i ∈ l, ∀ j : Int,
    0 ≤ j → j < stepOf amount batchSize →
      IsInt (16 * stepOf amount batchSize) ∧
        keyOffset j + 16 ≤ (bufferSize (stepOf amount batchSize)).toInt

/-- If sixteen times the step is an `int`, it is the size of the buffer. -/
theorem toInt_bufferSize {step : Int} (hstep : 0 ≤ step) (h : IsInt (16 * step)) :
    (bufferSize step).toInt = 16 * step := by
  have hval : (Int32.ofInt step).toInt = step := Int32.toInt_ofInt_of_le (by omega) (by
    have := h.2
    omega)
  rw [bufferSize, Int32.toInt_mul, hval]
  exact Int.bmod_eq_of_le h.1 h.2

/-- The keys of all batches fit into their buffers exactly if there are no batches, because the
amount is zero or too large for an `int`, or the batch size or the amount is below 2^27. -/
theorem keys_fit_iff (amount batchSize : UInt32) :
    KeysFit amount batchSize ↔ amount.toNat = 0 ∨ 2 ^ 31 ≤ amount.toNat ∨
      min (batchOf batchSize) amount.toNat < 2 ^ 27 := by
  by_cases hruns : 0 < amount.toNat ∧ amount.toNat < 2 ^ 31
  · obtain ⟨l, hl, hlen⟩ := countdown_of_runs batchSize hruns
    have hstep := stepOf_eq hruns.2 batchSize
    have hmin : 0 < min (batchOf batchSize) amount.toNat :=
      Nat.lt_min.mpr ⟨batchOf_pos batchSize, hruns.1⟩
    constructor
    · intro hfit
      -- the body runs at least once, with the first key
      have hne : l ≠ [] := by
        rintro rfl
        rw [List.length_nil, eq_comm, Nat.ceilDiv_eq_add_pred_div, Nat.div_eq_zero_iff] at hlen
        omega
      obtain ⟨i, hi⟩ := List.exists_mem_of_ne_nil l hne
      have hint := (hfit l hl i hi 0 (Int.le_refl 0) (by omega)).1
      simp only [IsInt] at hint
      omega
    · intro hsmall l' hl' i hi j hj0 hj
      have hint : IsInt (16 * stepOf amount batchSize) := by
        simp only [IsInt]
        omega
      refine ⟨hint, ?_⟩
      rw [toInt_bufferSize (by omega) hint, keyOffset]
      omega
  · constructor
    · intro _
      omega
    · intro _ l hl i hi
      rw [countdown_of_not_runs batchSize hruns] at hl
      cases hl
      cases hi

/-- One batch of 2^27 keys: their buffer has 2^31 bytes, which is not an `int`. -/
theorem keys_overflow : ¬ ∀ amount batchSize : UInt32, KeysFit amount batchSize := by
  intro hall
  have hstep : stepOf (2 ^ 27) (2 ^ 27) = 2 ^ 27 := by decide
  have hcount : countdown (2 ^ 27) (2 ^ 27) = some [2 ^ 27] := by
    rw [countdown, if_neg (by decide), if_neg (by decide), countdown_of_nonpos (by decide)]
    rfl
  have hfit := hall (2 ^ 27) (2 ^ 27)
  rw [KeysFit, hstep] at hfit
  have hint := (hfit _ hcount _ List.mem_cons_self 0 (by decide) (by decide)).1
  exact absurd hint.2 (by decide)

end TimeMachine.Server
