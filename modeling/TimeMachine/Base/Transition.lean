import Mathlib.Data.List.Basic

/-!
# Runs of labelled partial steps

A step takes a state and a label to the next state, if the label is enabled. Runs
follow a list of labels. `Along` states a condition on every step a run takes, as a
condition on the state before the step and its label; the induction rules carry an
invariant over a run, with and without such a condition, and runs over to an
abstraction. `AtEach` is such a condition where the state is a function of the labels
so far.
-/

namespace TimeMachine.Base

universe u v
variable {σ : Type u} {ℓ : Type v} (step : σ → ℓ → Option σ)

/-- Follow the labels in order; `none` as soon as one is not enabled. -/
def run (s : σ) : List ℓ → Option σ
  | [] => some s
  | l :: ls => (step s l).bind (fun s' ↦ run s' ls)

/-- Every step the run takes meets the condition. -/
def Along (C : σ → ℓ → Prop) (s : σ) : List ℓ → Prop
  | [] => True
  | l :: ls => C s l ∧ ∀ s', step s l = some s' → Along C s' ls

/-- A condition that can be checked can be checked along a run. -/
instance Along.decidable {C : σ → ℓ → Prop} [∀ s l, Decidable (C s l)] :
    ∀ s ls, Decidable (Along step C s ls)
  | _, [] => isTrue trivial
  | s, l :: ls =>
    have (s' : σ) : Decidable (Along step C s' ls) := Along.decidable s' ls
    inferInstanceAs (Decidable (C s l ∧ ∀ s', s' ∈ step s l → Along step C s' ls))

variable {step}

/-- A run of one more label. -/
theorem run_cons_eq_some {s t : σ} {l : ℓ} {ls : List ℓ} :
    run step s (l :: ls) = some t ↔ ∃ s', step s l = some s' ∧ run step s' ls = some t := by
  rw [run, Option.bind_eq_some_iff]

/-- Runs compose. -/
theorem run_append (s : σ) (ls ms : List ℓ) :
    run step s (ls ++ ms) = (run step s ls).bind (fun t ↦ run step t ms) := by
  induction ls generalizing s with
  | nil => rfl
  | cons l ls ih =>
    rw [List.cons_append, run, run]
    cases step s l with
    | none => rfl
    | some s' => exact ih s'

/-- A run splits at any point of its labels. -/
theorem run_append_eq_some {s t : σ} {ls ms : List ℓ} :
    run step s (ls ++ ms) = some t ↔
      ∃ r, run step s ls = some r ∧ run step r ms = some t := by
  rw [run_append, Option.bind_eq_some_iff]

/-- What every step preserves, every run preserves. -/
theorem run_invariant {I : σ → Prop}
    (hstep : ∀ s l s', step s l = some s' → I s → I s') {s t : σ} {ls : List ℓ}
    (h : run step s ls = some t) (hs : I s) : I t := by
  induction ls generalizing s with
  | nil =>
    cases h
    exact hs
  | cons l ls ih =>
    obtain ⟨s', hl, hr⟩ := run_cons_eq_some.mp h
    exact ih hr (hstep s l s' hl hs)

/-- What every step preserves of the labels so far and the state, every run preserves. -/
theorem run_history {H : List ℓ → σ → Prop}
    (hstep : ∀ past s l s', step s l = some s' → H past s → H (past ++ [l]) s') {s t : σ}
    {past ls : List ℓ} (h : run step s ls = some t) (hs : H past s) : H (past ++ ls) t := by
  induction ls generalizing s past with
  | nil =>
    cases h
    rwa [List.append_nil]
  | cons l ls ih =>
    obtain ⟨s', hl, hr⟩ := run_cons_eq_some.mp h
    rw [List.append_cons]
    exact ih hr (hstep past s l s' hl hs)

/-- What every step meeting the condition preserves, every run of such steps preserves. -/
theorem run_invariant_along {C : σ → ℓ → Prop} {I : σ → Prop}
    (hstep : ∀ s l s', step s l = some s' → C s l → I s → I s') {s t : σ} {ls : List ℓ}
    (h : run step s ls = some t) (hc : Along step C s ls) (hs : I s) : I t := by
  induction ls generalizing s with
  | nil =>
    cases h
    exact hs
  | cons l ls ih =>
    obtain ⟨s', hl, hr⟩ := run_cons_eq_some.mp h
    exact ih hr (hc.2 s' hl) (hstep s l s' hl hc.1 hs)

/-- A condition on the steps of a run holds of the steps of its parts. -/
theorem along_append {C : σ → ℓ → Prop} {s t : σ} {ls ms : List ℓ}
    (h : run step s ls = some t) :
    Along step C s (ls ++ ms) ↔ Along step C s ls ∧ Along step C t ms := by
  induction ls generalizing s with
  | nil =>
    cases h
    simp [Along]
  | cons l ls ih =>
    obtain ⟨s', hl, hr⟩ := run_cons_eq_some.mp h
    have hi := ih hr
    simp only [List.cons_append, Along, hl, Option.some.injEq, forall_eq', hi, and_assoc]

/-- A condition on all labels holds along the run. -/
theorem along_of_forall {P : ℓ → Prop} {ls : List ℓ} (h : ∀ l ∈ ls, P l) (s : σ) :
    Along step (fun _ l ↦ P l) s ls := by
  induction ls generalizing s with
  | nil => trivial
  | cons l ls ih =>
    exact ⟨h l List.mem_cons_self, fun s' _ ↦ ih (fun m hm ↦ h m (List.mem_cons_of_mem l hm)) s'⟩

/-- Two conditions hold along a run when both hold along it. -/
theorem along_and {C D : σ → ℓ → Prop} {s : σ} {ls : List ℓ} (hc : Along step C s ls)
    (hd : Along step D s ls) : Along step (fun s l ↦ C s l ∧ D s l) s ls := by
  induction ls generalizing s with
  | nil => trivial
  | cons l ls ih => exact ⟨⟨hc.1, hd.1⟩, fun s' hl ↦ ih (hc.2 s' hl) (hd.2 s' hl)⟩

/-- What follows from the condition and an invariant kept under it holds along the run. -/
theorem along_of_along {C D : σ → ℓ → Prop} {I : σ → Prop}
    (hstep : ∀ s l s', step s l = some s' → C s l → I s → I s')
    (himp : ∀ s l, C s l → I s → D s l) {s : σ} {ls : List ℓ}
    (hc : Along step C s ls) (hs : I s) : Along step D s ls := by
  induction ls generalizing s with
  | nil => trivial
  | cons l ls ih =>
    exact ⟨himp s l hc.1 hs, fun s' hl ↦ ih (hc.2 s' hl) (hstep s l s' hl hc.1 hs)⟩

/-- If a step without the condition leads where no step leads out of, a run that ends elsewhere
met the condition throughout. -/
theorem along_of_trap {C D : σ → ℓ → Prop} {B : σ → Prop}
    (hfall : ∀ s l s', step s l = some s' → D s l → ¬ C s l → B s')
    (hstay : ∀ s l s', step s l = some s' → D s l → B s → B s') {s t : σ} {ls : List ℓ}
    (h : run step s ls = some t) (hd : Along step D s ls) (ht : ¬ B t) : Along step C s ls := by
  induction ls generalizing s with
  | nil => trivial
  | cons l ls ih =>
    obtain ⟨s', hl, hr⟩ := run_cons_eq_some.mp h
    refine ⟨?_, fun r hr' ↦ ?_⟩
    · by_contra hc
      exact ht (run_invariant_along hstay hr (hd.2 s' hl) (hfall s l s' hl hd.1 hc))
    · rw [hl] at hr'
      cases hr'
      exact ih hr (hd.2 s' hl)

/-- A condition on steps that says of each that it leads to a good state holds along a run from a
good state exactly if all states reached on it are good. -/
theorem along_iff_reached {C : σ → ℓ → Prop} {I G : σ → Prop}
    (hstep : ∀ s l s', step s l = some s' → I s → I s')
    (hcond : ∀ s l, I s → G s → (C s l ↔ ∀ s', step s l = some s' → G s'))
    {s : σ} (hs : I s) (hg : G s) (ls : List ℓ) :
    Along step C s ls ↔ ∀ ms t, ms <+: ls → run step s ms = some t → G t := by
  induction ls generalizing s with
  | nil =>
    refine iff_of_true trivial fun ms t hms h ↦ ?_
    rw [List.prefix_nil.mp hms] at h
    cases h
    exact hg
  | cons l ls ih =>
    constructor
    · rintro ⟨hc, hrest⟩ ms t hms h
      cases ms with
      | nil =>
        cases h
        exact hg
      | cons m ms =>
        obtain ⟨rfl, hpre⟩ := List.cons_prefix_cons.mp hms
        obtain ⟨s', hl, hr⟩ := run_cons_eq_some.mp h
        have hg' := (hcond s m hs hg).mp hc s' hl
        exact (ih (hstep s m s' hl hs) hg').mp (hrest s' hl) ms t hpre hr
    · intro h
      have hnext (s' : σ) (hl : step s l = some s') : G s' :=
        h [l] s' (List.cons_prefix_cons.mpr ⟨rfl, List.nil_prefix⟩)
          (run_cons_eq_some.mpr ⟨s', hl, rfl⟩)
      refine ⟨(hcond s l hs hg).mpr hnext, fun s' hl ↦ ?_⟩
      refine (ih (hstep s l s' hl hs) (hnext s' hl)).mpr fun ms t hms hr ↦ ?_
      exact h (l :: ms) t (List.cons_prefix_cons.mpr ⟨rfl, hms⟩)
        (run_cons_eq_some.mpr ⟨s', hl, hr⟩)

/-! ### Simulation -/

section Simulation
variable {τ : Type*} {astep : τ → ℓ → Option τ} {abs : σ → τ} {I : σ → Prop} {P : ℓ → Prop}

/-- A run whose steps are steps of an abstraction is a run of the abstraction. -/
theorem run_simulation
    (hsim : ∀ s l, I s → P l →
      (step s l).map abs = astep (abs s) l ∧ ∀ s', step s l = some s' → I s')
    {s : σ} {ls : List ℓ} (hs : I s) (hls : ∀ l ∈ ls, P l) :
    (run step s ls).map abs = run astep (abs s) ls ∧ ∀ t, run step s ls = some t → I t := by
  induction ls generalizing s with
  | nil =>
    refine ⟨rfl, ?_⟩
    rintro t ⟨rfl⟩
    exact hs
  | cons l ls ih =>
    obtain ⟨habs, hkeep⟩ := hsim s l hs (hls l List.mem_cons_self)
    cases hl : step s l with
    | none =>
      rw [hl, Option.map_none] at habs
      simp only [run, hl, ← habs, Option.bind_none, Option.map_none, true_and]
      rintro t ⟨⟩
    | some s' =>
      rw [hl, Option.map_some] at habs
      simp only [run, hl, ← habs, Option.bind_some]
      exact ih (hkeep s' hl) (fun m hm ↦ hls m (List.mem_cons_of_mem l hm))

/-- A condition on steps that is one of the abstraction holds along a run exactly if it holds
along the run of the abstraction. -/
theorem along_simulation
    (hsim : ∀ s l, I s → P l →
      (step s l).map abs = astep (abs s) l ∧ ∀ s', step s l = some s' → I s')
    {C : σ → ℓ → Prop} {D : τ → ℓ → Prop} (hcond : ∀ s l, C s l ↔ D (abs s) l)
    {s : σ} {ls : List ℓ} (hs : I s) (hls : ∀ l ∈ ls, P l) :
    Along step C s ls ↔ Along astep D (abs s) ls := by
  induction ls generalizing s with
  | nil => exact Iff.rfl
  | cons l ls ih =>
    obtain ⟨habs, hkeep⟩ := hsim s l hs (hls l List.mem_cons_self)
    have hrest := fun m hm ↦ hls m (List.mem_cons_of_mem l hm)
    rw [Along, Along, hcond, ← habs]
    simp only [Option.map_eq_some_iff]
    refine and_congr_right fun _ ↦ ⟨?_, ?_⟩
    · rintro h - ⟨s', hl, rfl⟩
      exact (ih (hkeep s' hl) hrest).mp (h s' hl)
    · intro h s' hl
      exact (ih (hkeep s' hl) hrest).mpr (h _ ⟨s', hl, rfl⟩)

end Simulation

/-! ### Conditions on the labels so far -/

/-- Each label meets a condition on the labels before it. -/
def AtEach (P : List ℓ → ℓ → Prop) (ls : List ℓ) : Prop :=
  ∀ pre l post, ls = pre ++ l :: post → P pre l

/-- No label, no condition. -/
theorem atEach_nil (P : List ℓ → ℓ → Prop) : AtEach P [] := by
  intro pre l post h
  cases pre <;> cases h

/-- One more label at the end. -/
theorem atEach_concat {P : List ℓ → ℓ → Prop} {ls : List ℓ} {l : ℓ} :
    AtEach P (ls ++ [l]) ↔ AtEach P ls ∧ P ls l := by
  constructor
  · intro h
    refine ⟨fun pre m post he ↦ h pre m (post ++ [l]) ?_, h ls l [] rfl⟩
    rw [he, List.append_assoc, List.cons_append]
  · rintro ⟨hall, hlast⟩ pre m post he
    rcases List.eq_nil_or_concat post with rfl | ⟨post', m', rfl⟩
    · obtain ⟨rfl, hm⟩ := List.append_inj' he rfl
      cases hm
      exact hlast
    · rw [List.concat_eq_append, ← List.cons_append, ← List.append_assoc] at he
      exact hall pre m post' (List.append_inj' he rfl).1

/-! ### Merges -/

/-- The third list is a merge of the first two: both in order, interleaved at will. -/
inductive Merge {α : Type u} : List α → List α → List α → Prop
  | nil : Merge [] [] []
  | left {a : α} {as bs ms : List α} : Merge as bs ms → Merge (a :: as) bs (a :: ms)
  | right {b : α} {as bs ms : List α} : Merge as bs ms → Merge as (b :: bs) (b :: ms)

/-- The first list is part of the merge. -/
theorem Merge.mem_of_left {α : Type u} {as bs ms : List α} (h : Merge as bs ms) {a : α}
    (ha : a ∈ as) : a ∈ ms := by
  induction h with
  | nil => cases ha
  | left _ ih =>
    rcases List.mem_cons.mp ha with rfl | ha
    · exact List.mem_cons_self
    · exact List.mem_cons_of_mem _ (ih ha)
  | right _ ih => exact List.mem_cons_of_mem _ (ih ha)

end TimeMachine.Base
