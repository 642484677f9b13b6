import Mathlib.Algebra.Ring.Nat
import Mathlib.Data.List.Basic

/-!
# Prefixes under a quota

A producer that stops at the first element its quota refuses, where the quota looks at
how many elements and how many bytes went before, yields the longest prefix whose
elements are all admitted.
-/

namespace TimeMachine.Base

universe u
variable {α : Type u}

/-- `P` is the longest prefix of `F` whose positions are all admitted. -/
structure LongestPrefix (Admitted : Nat → Prop) (P F : List α) : Prop where
  isPrefix : P <+: F
  admitted : ∀ i < P.length, Admitted i
  longest : ∀ Q, Q <+: F → (∀ i < Q.length, Admitted i) → Q <+: P

/-- A position is in the longest prefix exactly if it is admitted with all positions before. -/
theorem LongestPrefix.lt_length_iff {Admitted : Nat → Prop} {P F : List α}
    (h : LongestPrefix Admitted P F) {k : Nat} :
    k < P.length ↔ k < F.length ∧ ∀ j ≤ k, Admitted j := by
  constructor
  · intro hk
    exact ⟨Nat.lt_of_lt_of_le hk h.isPrefix.length_le, fun j hj ↦ h.admitted j (by omega)⟩
  · rintro ⟨hk, hall⟩
    have hlen : (F.take (k + 1)).length = k + 1 := by
      rw [List.length_take]
      omega
    have hprefix := h.longest (F.take (k + 1)) (List.take_prefix _ _) fun i hi ↦ hall i (by omega)
    have := hprefix.length_le
    omega

/-- What one condition selects, then what another does, is what either selects, where nothing the
second selects comes before something the first does and nothing is selected by both. -/
theorem filter_append_filter {p q : α → Bool} {l : List α}
    (horder : l.Pairwise (fun a b ↦ ¬ (q a ∧ p b))) (hone : ∀ a ∈ l, ¬ (p a ∧ q a)) :
    l.filter p ++ l.filter q = l.filter (fun a ↦ p a || q a) := by
  induction l with
  | nil => rfl
  | cons a rest ih =>
    obtain ⟨hfirst, hrest⟩ := List.pairwise_cons.mp horder
    have ih := ih hrest fun b hb ↦ hone b (List.mem_cons_of_mem a hb)
    cases hp : p a with
    | true =>
      have hq : q a = false := by simpa [hp] using hone a List.mem_cons_self
      simp [hp, hq, ih]
    | false =>
      cases hq : q a with
      | false => simp [hp, hq, ih]
      | true =>
        have hnone : rest.filter p = [] :=
          List.filter_eq_nil_iff.mpr fun b hb hpb ↦ hfirst b hb ⟨hq, hpb⟩
        rw [hnone, List.nil_append] at ih
        simp [hp, hq, hnone, ih]

/-- `S` is the longest suffix of `F` whose positions, counted from the end, are all admitted. -/
structure LongestSuffix (Admitted : Nat → Prop) (S F : List α) : Prop where
  isSuffix : S <:+ F
  admitted : ∀ i < S.length, Admitted i
  longest : ∀ T, T <:+ F → (∀ i < T.length, Admitted i) → T <:+ S

/-- The longest prefix of the reverse is the longest suffix, reversed. -/
theorem LongestPrefix.reverse {Admitted : Nat → Prop} {P F : List α}
    (h : LongestPrefix Admitted P F.reverse) : LongestSuffix Admitted P.reverse F := by
  refine ⟨?_, fun i hi ↦ h.admitted i (by rwa [List.length_reverse] at hi), fun T hT hall ↦ ?_⟩
  · rw [← List.reverse_prefix, List.reverse_reverse]
    exact h.isPrefix
  · have hprefix := h.longest T.reverse (List.reverse_prefix.mpr hT) (by rwa [List.length_reverse])
    rw [← List.reverse_prefix, List.reverse_reverse]
    exact hprefix

namespace Quota

/-- The elements produced before the quota refuses one; it is asked with the number and the
total size of what went before. -/
def limit (allows : Nat → Nat → Bool) (size : α → Nat) (count total : Nat) : List α → List α
  | [] => []
  | x :: rest =>
    if allows count total then x :: limit allows size (count + 1) (total + size x) rest else []

/-- The elements produced are the longest prefix that is admitted. -/
theorem limit_longest (allows : Nat → Nat → Bool) (size : α → Nat) (count total : Nat)
    (l : List α) :
    LongestPrefix (fun i ↦ allows (count + i) (total + ((l.take i).map size).sum) = true)
      (limit allows size count total l) l := by
  induction l generalizing count total with
  | nil =>
    refine ⟨List.prefix_rfl, ?_, fun Q hQ _ ↦ hQ⟩
    intro i hi
    simp [limit] at hi
  | cons x rest ih =>
    rw [limit]
    split
    · next hok =>
      have hrest := ih (count + 1) (total + size x)
      have hshift (i : Nat) : (allows (count + (i + 1))
          (total + (((x :: rest).take (i + 1)).map size).sum) = true) =
          (allows (count + 1 + i) (total + size x + ((rest.take i).map size).sum) = true) := by
        rw [List.take_succ_cons, List.map_cons, List.sum_cons]
        congr 2 <;> omega
      refine ⟨List.cons_prefix_cons.mpr ⟨rfl, hrest.isPrefix⟩, ?_, ?_⟩
      · intro i hi
        cases i with
        | zero => simpa using hok
        | succ i =>
          rw [hshift]
          exact hrest.admitted i (by simpa using hi)
      · intro Q hQ hall
        cases Q with
        | nil => exact List.nil_prefix
        | cons y Q =>
          obtain ⟨rfl, hQ'⟩ := List.cons_prefix_cons.mp hQ
          refine List.cons_prefix_cons.mpr ⟨rfl, hrest.longest Q hQ' ?_⟩
          intro i hi
          rw [← hshift]
          exact hall (i + 1) (by simpa using hi)
    · next hno =>
      refine ⟨List.nil_prefix, fun i hi ↦ absurd hi (Nat.not_lt_zero i), ?_⟩
      intro Q hQ hall
      cases Q with
      | nil => exact List.nil_prefix
      | cons y Q =>
        have := hall 0 (by simp)
        simp only [Nat.add_zero, List.take_zero, List.map_nil, List.sum_nil] at this
        exact absurd this hno

end Quota
end TimeMachine.Base
