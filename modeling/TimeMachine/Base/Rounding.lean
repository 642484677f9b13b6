import Mathlib.Data.Nat.Log
import Mathlib.Data.Int.Order.Basic
import Mathlib.Tactic.Ring

/-!
# Rounding integers to a fixed precision

Conversion of an integer to the nearest number whose significand has a given
number of bits, ties to the even significand, as IEEE arithmetic converts it.
Rounding is monotone and steps only at the halfway points between neighbouring
numbers of the precision, which is what decides whether two integers are still
told apart after rounding.
-/

namespace TimeMachine.Base.Rounding

/-- `n / d` rounded to the nearest integer, ties to the even one. -/
def divHalfEven (n d : Nat) : Nat :=
  if 2 * (n % d) < d then n / d
  else if d < 2 * (n % d) then n / d + 1
  else if n / d % 2 = 0 then n / d
  else n / d + 1

/-- The number with a significand of `p` bits nearest to `n`, ties to even. -/
def round (p n : Nat) : Nat :=
  let d := 2 ^ (n.log2 + 1 - p)
  divHalfEven n d * d

/-- Rounding of a signed integer. -/
def roundInt (p : Nat) (z : Int) : Int := z.sign * round p z.natAbs

/-! ### Quotients -/

/-- A multiple of the divisor is divided exactly. -/
theorem divHalfEven_mul (q : Nat) {d : Nat} (hd : 0 < d) : divHalfEven (q * d) d = q := by
  rw [divHalfEven, Nat.mul_mod_left, Nat.mul_div_cancel q hd, if_pos (by omega)]

private theorem divHalfEven_add (q r : Nat) {d : Nat} (hr : r < d) :
    divHalfEven (d * q + r) d =
      if 2 * r < d then q else if d < 2 * r then q + 1 else if q % 2 = 0 then q else q + 1 := by
  obtain ⟨hq, hm⟩ := (Nat.div_mod_unique (Nat.zero_lt_of_lt hr)).mpr
    ⟨Nat.add_comm r (d * q), hr⟩
  rw [divHalfEven, hm, hq]

/-- The rounded quotient steps just after a halfway point over an even quotient and at the
halfway point over an odd one, by one. -/
theorem divHalfEven_succ (n : Nat) {h : Nat} (hh : 0 < h) :
    divHalfEven (n + 1) (2 * h) = divHalfEven n (2 * h) +
      if (n / (2 * h) % 2 = 0 ∧ n % (2 * h) = h) ∨ (n / (2 * h) % 2 = 1 ∧ n % (2 * h) + 1 = h)
      then 1 else 0 := by
  have hr : n % (2 * h) < 2 * h := Nat.mod_lt n (by omega)
  have hn : 2 * h * (n / (2 * h)) + n % (2 * h) = n := Nat.div_add_mod n (2 * h)
  generalize n / (2 * h) = q at hn ⊢
  generalize n % (2 * h) = r at hn hr ⊢
  by_cases hlast : r + 1 = 2 * h
  · have hnext : n + 1 = (q + 1) * (2 * h) := by rw [Nat.add_mul, Nat.mul_comm q]; omega
    rw [hnext, divHalfEven_mul (q + 1) (by omega), ← hn, divHalfEven_add q r hr]
    split_ifs <;> omega
  · have hnext : n + 1 = 2 * h * q + (r + 1) := by omega
    rw [hnext, divHalfEven_add q (r + 1) (by omega), ← hn, divHalfEven_add q r hr]
    split_ifs <;> omega

/-! ### Rounding to a precision -/

/-- A number that fits the precision is not changed. -/
theorem round_of_lt {p n : Nat} (hp : 0 < p) (h : n < 2 ^ p) : round p n = n := by
  have hl : n.log2 + 1 - p = 0 := by
    rcases Nat.eq_zero_or_pos n with rfl | hn
    · have hz : Nat.log2 0 = 0 := rfl
      omega
    · have := (Nat.log2_lt (by omega)).mpr h
      omega
  have hd := divHalfEven_mul n Nat.one_pos
  rw [Nat.mul_one] at hd
  rw [round, hl, Nat.pow_zero, hd, Nat.mul_one]

/-- Between two powers of two, both included, numbers are rounded to multiples of one spacing. -/
theorem round_eq_of_binade {p k n : Nat} (hp : 0 < p) (hpk : p ≤ k) (hlo : 2 ^ k ≤ n)
    (hhi : n ≤ 2 ^ (k + 1)) :
    round p n = divHalfEven n (2 * 2 ^ (k - p)) * (2 * 2 ^ (k - p)) := by
  have hn : n ≠ 0 := by
    have := Nat.two_pow_pos k
    omega
  by_cases hlt : n < 2 ^ (k + 1)
  · have hl : n.log2 = k := (Nat.log2_eq_iff hn).mpr ⟨hlo, hlt⟩
    have he : k + 1 - p = (k - p) + 1 := by omega
    rw [round, hl, he, Nat.pow_succ']
  · have hpow : n = 2 ^ (k + 1) := by omega
    have hl : n.log2 = k + 1 := by rw [hpow, Nat.log2_two_pow]
    have hcoarse : n = 2 ^ (p - 1) * 2 ^ (k + 1 + 1 - p) := by
      rw [hpow, ← Nat.pow_add]
      congr 1
      omega
    have hfine : n = 2 ^ p * (2 * 2 ^ (k - p)) := by
      rw [hpow, ← Nat.pow_succ', ← Nat.pow_add]
      congr 1
      omega
    have hc : divHalfEven n (2 ^ (k + 1 + 1 - p)) = 2 ^ (p - 1) := by
      have := divHalfEven_mul (2 ^ (p - 1)) (Nat.two_pow_pos (k + 1 + 1 - p))
      rwa [← hcoarse] at this
    have hf : divHalfEven n (2 * 2 ^ (k - p)) = 2 ^ p := by
      have := divHalfEven_mul (2 ^ p) (Nat.mul_pos Nat.two_pos (Nat.two_pow_pos (k - p)))
      rwa [← hfine] at this
    rw [round, hl, hc, hf, ← hcoarse, ← hfine]

/-- The first power of two past the precision is not changed either. -/
theorem round_of_le {p n : Nat} (hp : 0 < p) (h : n ≤ 2 ^ p) : round p n = n := by
  rcases Nat.lt_or_eq_of_le h with hlt | heq
  · exact round_of_lt hp hlt
  · have hsplit : n = 2 ^ (p - 1) * (2 * 2 ^ (p - p)) := by
      rw [heq, Nat.sub_self, Nat.pow_zero, Nat.mul_one, ← Nat.pow_succ]
      congr 1
      omega
    have hd := divHalfEven_mul (2 ^ (p - 1)) (d := 2 * 2 ^ (p - p)) (by simp)
    rw [← hsplit] at hd
    have hup : n ≤ 2 ^ (p + 1) := by
      rw [Nat.pow_succ]
      omega
    rw [round_eq_of_binade hp (Nat.le_refl p) (by omega) hup, hd, ← hsplit]

/-- `m` lies halfway between two neighbouring numbers of precision `p`, the lower of them with
the full significand `q`. -/
def Halfway (p q m : Nat) : Prop := 2 ^ (p - 1) ≤ q ∧ q < 2 ^ p ∧ ∃ j, m = (2 * q + 1) * 2 ^ j

/-- A point where rounding to precision `p` steps lies between `x` and `y`: `x` is below the
precision, or they are on two sides of a halfway point, which goes to its even neighbour. -/
def Parted (p x y : Nat) : Prop :=
  x < 2 ^ p ∨ ∃ q m, Halfway p q m ∧ if q % 2 = 0 then x ≤ m ∧ m < y else x < m ∧ m ≤ y

private theorem halfway_bounds {p q j : Nat} (hp : 0 < p) (hlo : 2 ^ (p - 1) ≤ q)
    (hhi : q < 2 ^ p) :
    2 ^ (p + j) ≤ (2 * q + 1) * 2 ^ j - 1 ∧ (2 * q + 1) * 2 ^ j < 2 ^ (p + j + 1) := by
  have hj := Nat.two_pow_pos j
  have hpp : 2 ^ p = 2 * 2 ^ (p - 1) := by
    rw [← Nat.pow_succ']
    congr 1
    omega
  constructor
  · have : 2 ^ p * 2 ^ j ≤ (2 * q) * 2 ^ j := Nat.mul_le_mul_right _ (by omega)
    rw [Nat.pow_add, Nat.add_mul]
    omega
  · have : (2 * q + 2) * 2 ^ j ≤ (2 * 2 ^ p) * 2 ^ j := Nat.mul_le_mul_right _ (by omega)
    rw [Nat.pow_succ', Nat.pow_add, ← Nat.mul_assoc]
    rw [Nat.add_mul] at this ⊢
    omega

private theorem parted_succ_iff {p k n : Nat} (hp : 0 < p) (hpk : p ≤ k) (hlo : 2 ^ k ≤ n)
    (hhi : n < 2 ^ (k + 1)) :
    Parted p n (n + 1) ↔
      (n / (2 * 2 ^ (k - p)) % 2 = 0 ∧ n % (2 * 2 ^ (k - p)) = 2 ^ (k - p)) ∨
      (n / (2 * 2 ^ (k - p)) % 2 = 1 ∧ n % (2 * 2 ^ (k - p)) + 1 = 2 ^ (k - p)) := by
  have hpn : 2 ^ p ≤ n := Nat.le_trans (Nat.pow_le_pow_right Nat.two_pos hpk) hlo
  have hh := Nat.two_pow_pos (k - p)
  have hn : 2 * 2 ^ (k - p) * (n / (2 * 2 ^ (k - p))) + n % (2 * 2 ^ (k - p)) = n :=
    Nat.div_add_mod n (2 * 2 ^ (k - p))
  have hd : 0 < 2 * 2 ^ (k - p) := by omega
  constructor
  · rintro (hlt | ⟨q, m, ⟨hq, hq', j, rfl⟩, hm⟩)
    · omega
    · obtain ⟨hb, hb'⟩ := halfway_bounds (j := j) hp hq hq'
      -- the halfway point fixes the binade, hence the spacing
      have hnear : (2 * q + 1) * 2 ^ j - 1 ≤ n ∧ n ≤ (2 * q + 1) * 2 ^ j := by
        split at hm <;> omega
      have hk : k = p + j := by
        have h1 : n.log2 = k := (Nat.log2_eq_iff (by omega)).mpr ⟨hlo, hhi⟩
        have h2 : n.log2 = p + j := (Nat.log2_eq_iff (by omega)).mpr ⟨by omega, by omega⟩
        omega
      have hj : k - p = j := by omega
      have hexp : (2 * q + 1) * 2 ^ j = 2 * 2 ^ j * q + 2 ^ j := by ring
      rw [hj] at hh hd ⊢
      rw [hexp] at hm
      by_cases heven : q % 2 = 0
      · rw [if_pos heven] at hm
        have hqr : n / (2 * 2 ^ j) = q ∧ n % (2 * 2 ^ j) = 2 ^ j :=
          (Nat.div_mod_unique hd).mpr ⟨by omega, by omega⟩
        obtain ⟨hdiv, hmod⟩ := hqr
        exact Or.inl ⟨by rw [hdiv, heven], hmod⟩
      · rw [if_neg heven] at hm
        have hqr : n / (2 * 2 ^ j) = q ∧ n % (2 * 2 ^ j) = 2 ^ j - 1 :=
          (Nat.div_mod_unique hd).mpr ⟨by omega, by omega⟩
        obtain ⟨hdiv, hmod⟩ := hqr
        exact Or.inr ⟨by rw [hdiv]; omega, by omega⟩
  · intro hstep
    have hpow : 2 ^ p * 2 ^ (k - p) = 2 ^ k := by
      rw [← Nat.pow_add]
      congr 1
      omega
    have hpp : 2 ^ p = 2 * 2 ^ (p - 1) := by
      rw [← Nat.pow_succ']
      congr 1
      omega
    have hq : 2 ^ (p - 1) ≤ n / (2 * 2 ^ (k - p)) := by
      rw [Nat.le_div_iff_mul_le hd]
      have : 2 ^ (p - 1) * (2 * 2 ^ (k - p)) = 2 ^ p * 2 ^ (k - p) := by rw [hpp]; ring
      omega
    have hq' : n / (2 * 2 ^ (k - p)) < 2 ^ p := by
      rw [Nat.div_lt_iff_lt_mul hd]
      have : 2 ^ p * (2 * 2 ^ (k - p)) = 2 ^ (k + 1) := by rw [Nat.pow_succ, ← hpow]; ring
      omega
    refine Or.inr ⟨n / (2 * 2 ^ (k - p)), _, ⟨hq, hq', k - p, rfl⟩, ?_⟩
    have hexp : (2 * (n / (2 * 2 ^ (k - p))) + 1) * 2 ^ (k - p) =
        2 * 2 ^ (k - p) * (n / (2 * 2 ^ (k - p))) + 2 ^ (k - p) := by ring
    rw [hexp]
    split <;> omega

private theorem round_succ {p : Nat} (hp : 0 < p) (n : Nat) :
    round p n ≤ round p (n + 1) ∧ (round p n < round p (n + 1) ↔ Parted p n (n + 1)) := by
  by_cases hlt : n < 2 ^ p
  · rw [round_of_lt hp hlt, round_of_le hp hlt]
    exact ⟨by omega, fun _ ↦ Or.inl hlt, fun _ ↦ by omega⟩
  · have hn : n ≠ 0 := by
      have := Nat.two_pow_pos p
      omega
    obtain ⟨hlo, hhi⟩ := (Nat.log2_eq_iff hn).mp rfl
    have hpk : p ≤ n.log2 := (Nat.le_log2 hn).mpr (by omega)
    rw [round_eq_of_binade hp hpk hlo (by omega), round_eq_of_binade hp hpk (by omega) hhi,
      divHalfEven_succ n (Nat.two_pow_pos _), parted_succ_iff hp hpk hlo hhi]
    have hd : 0 < 2 * 2 ^ (n.log2 - p) := by
      have := Nat.two_pow_pos (n.log2 - p)
      omega
    generalize divHalfEven n (2 * 2 ^ (n.log2 - p)) = q
    split
    · next hstep =>
      have hmul : q * (2 * 2 ^ (n.log2 - p)) < (q + 1) * (2 * 2 ^ (n.log2 - p)) :=
        Nat.mul_lt_mul_of_pos_right (Nat.lt_succ_self q) hd
      exact ⟨Nat.le_of_lt hmul, fun _ ↦ hstep, fun _ ↦ hmul⟩
    · next hstay =>
      rw [Nat.add_zero]
      exact ⟨Nat.le_refl _, fun h ↦ absurd h (Nat.lt_irrefl _), fun h ↦ absurd h hstay⟩

/-- Rounding is monotone. -/
theorem round_mono {p : Nat} (hp : 0 < p) {x y : Nat} (h : x ≤ y) : round p x ≤ round p y := by
  induction y, h using Nat.le_induction with
  | base => exact Nat.le_refl _
  | succ y _ ih => exact Nat.le_trans ih (round_succ hp y).1

private theorem parted_iff {p x y : Nat} (h : x < y) :
    Parted p x y ↔ ∃ z, x ≤ z ∧ z < y ∧ Parted p z (z + 1) := by
  constructor
  · rintro (hlt | ⟨q, m, hm, hside⟩)
    · exact ⟨x, Nat.le_refl x, h, Or.inl hlt⟩
    · by_cases heven : q % 2 = 0
      · rw [if_pos heven] at hside
        refine ⟨m, hside.1, hside.2, Or.inr ⟨q, m, hm, ?_⟩⟩
        rw [if_pos heven]
        omega
      · rw [if_neg heven] at hside
        refine ⟨m - 1, by omega, by omega, Or.inr ⟨q, m, hm, ?_⟩⟩
        rw [if_neg heven]
        omega
  · rintro ⟨z, hxz, hzy, hlt | ⟨q, m, hm, hside⟩⟩
    · exact Or.inl (by omega)
    · refine Or.inr ⟨q, m, hm, ?_⟩
      split at hside
      · next heven => rw [if_pos heven]; omega
      · next hodd => rw [if_neg hodd]; omega

/-- Two numbers are still told apart after rounding exactly if they are parted. -/
theorem round_lt_iff {p : Nat} (hp : 0 < p) {x y : Nat} (h : x < y) :
    round p x < round p y ↔ Parted p x y := by
  rw [parted_iff h]
  constructor
  · intro hlt
    by_contra hnone
    -- without a step in between, the rounded value stays the same up to `y`
    have hsame : ∀ z, x ≤ z → z ≤ y → round p z = round p x := by
      intro z hxz
      induction z, hxz using Nat.le_induction with
      | base => exact fun _ ↦ rfl
      | succ z hxz ih =>
        intro hzy
        obtain ⟨hle, hiff⟩ := round_succ hp z
        have hstay : ¬ round p z < round p (z + 1) := fun hs ↦
          hnone ⟨z, hxz, by omega, hiff.mp hs⟩
        have := ih (by omega)
        omega
    have := hsame y (by omega) (Nat.le_refl y)
    omega
  · rintro ⟨z, hxz, hzy, hz⟩
    calc round p x ≤ round p z := round_mono hp hxz
      _ < round p (z + 1) := (round_succ hp z).2.mpr hz
      _ ≤ round p y := round_mono hp hzy

/-- Two numbers are rounded to different ones exactly if they are parted. -/
theorem round_ne_iff {p : Nat} (hp : 0 < p) {x y : Nat} (h : x < y) :
    round p x ≠ round p y ↔ Parted p x y := by
  rw [← round_lt_iff hp h]
  have := round_mono hp (Nat.le_of_lt h)
  omega

/-- Rounding a nonnegative integer. -/
theorem roundInt_natCast {p : Nat} (n : Nat) : roundInt p n = round p n := by
  rcases Nat.eq_zero_or_pos n with rfl | hn
  · simp [roundInt, round, divHalfEven]
  · rw [roundInt, Int.sign_eq_one_of_pos (by omega), Int.one_mul, Int.natAbs_natCast]

end TimeMachine.Base.Rounding
