import Mathlib.Algebra.Group.Int.Defs

/-!
# Loops that count down

The values the variable of `for (i = n; i > 0; i = i - step)` takes on in the body of
the loop. With a positive step the body runs as often as the step goes into the start,
rounded up; without one the loop does not end, or leaves the range of the variable.
-/

namespace TimeMachine.Base

/-- The values of the loop variable, if the loop ends. -/
def countdown (step i : Int) : Option (List Int) :=
  if i ≤ 0 then some []
  else if step ≤ 0 then none
  else (countdown step (i - step)).map (i :: ·)
termination_by i.toNat

/-- A loop that starts at zero or below does not run. -/
theorem countdown_of_nonpos {step i : Int} (h : i ≤ 0) : countdown step i = some [] := by
  rw [countdown, if_pos h]

/-- The loop variable stays between zero and the start. -/
theorem bounds_of_mem_countdown {step n : Int} {l : List Int} (h : countdown step n = some l)
    {i : Int} (hi : i ∈ l) : 0 < i ∧ i ≤ n := by
  induction n using countdown.induct step generalizing l with
  | case1 n hn =>
    rw [countdown_of_nonpos hn] at h
    cases h
    cases hi
  | case2 n hn hstep =>
    rw [countdown, if_neg hn, if_pos hstep] at h
    cases h
  | case3 n hn hstep ih =>
    rw [countdown, if_neg hn, if_neg hstep] at h
    obtain ⟨rest, hrest, rfl⟩ := Option.map_eq_some_iff.mp h
    rcases List.mem_cons.mp hi with rfl | hi
    · omega
    · have := ih hrest hi
      omega

/-- With a positive step the body runs as often as the step goes into the start, rounded up. -/
theorem countdown_of_pos (step n : Nat) (hstep : 0 < step) :
    ∃ l, countdown step n = some l ∧ l.length = (n + step - 1) / step := by
  induction n using Nat.strongRecOn with
  | ind n ih =>
    rcases Nat.eq_zero_or_pos n with rfl | hn
    · refine ⟨[], countdown_of_nonpos (Int.le_refl _), ?_⟩
      rw [Nat.zero_add, Nat.div_eq_of_lt (by omega), List.length_nil]
    · rw [countdown, if_neg (by omega), if_neg (by omega)]
      by_cases hle : step ≤ n
      · obtain ⟨l, hl, hlen⟩ := ih (n - step) (by omega)
        have hcast : (n : Int) - step = ((n - step : Nat) : Int) := by omega
        have hround : n + step - 1 = n - step + step - 1 + step := by omega
        refine ⟨(n : Int) :: l, by rw [hcast, hl, Option.map_some], ?_⟩
        rw [List.length_cons, hlen, hround, Nat.add_div_right _ hstep]
      · have hround : (n + step - 1) / step = 1 :=
          Nat.div_eq_of_lt_le (by omega) (by omega)
        refine ⟨[(n : Int)], ?_, by rw [hround, List.length_singleton]⟩
        rw [countdown_of_nonpos (by omega), Option.map_some]

/-- Rounding up to whole steps changes nothing exactly if the step divides. -/
theorem ceil_mul_eq_iff {step n : Nat} (hstep : 0 < step) :
    (n + step - 1) / step * step = n ↔ step ∣ n := by
  constructor
  · intro h
    exact ⟨_, by rw [Nat.mul_comm]; exact h.symm⟩
  · rintro ⟨k, rfl⟩
    have hk : (step * k + step - 1) / step = k := by
      rw [Nat.add_sub_assoc hstep, Nat.mul_add_div hstep, Nat.div_eq_of_lt (by omega),
        Nat.add_zero]
    rw [hk, Nat.mul_comm]

end TimeMachine.Base
