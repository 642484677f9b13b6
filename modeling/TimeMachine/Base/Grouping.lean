import Mathlib.Data.List.Nodup

/-!
# Grouping by a key

The values of a list gathered under their keys: a group for each key, the keys in the
order in which they first appear, the values of a group in the order of the list. A
list has exactly one grouping. One group for each entry, which is what is left when
nothing is merged, is the grouping only of a list whose keys are distinct.
-/

namespace TimeMachine.Base

variable {α κ β : Type} [DecidableEq κ]

/-- The groups are the values of the list, gathered under their keys. -/
structure IsGrouping (key : α → κ) (value : α → β) (l : List α) (groups : List (κ × List β)) :
    Prop where
  distinct : (groups.map Prod.fst).Nodup
  order : groups.map Prod.fst = (l.map key).eraseDups
  gathered : ∀ g ∈ groups, g.2 = (l.filter (key · = g.1)).map value
  kept : (groups.flatMap Prod.snd).Perm (l.map value)

/-- The grouping of a list. -/
def group (key : α → κ) (value : α → β) (l : List α) : List (κ × List β) :=
  (l.map key).eraseDups.map fun k ↦ (k, (l.filter (key · = k)).map value)

/-! ### The keys -/

/-- The keys in the order of their first appearance are distinct. -/
theorem nodup_eraseDups (ks : List κ) : ks.eraseDups.Nodup := by
  cases ks with
  | nil => exact List.nodup_nil
  | cons k ks =>
    rw [List.eraseDups_cons, List.nodup_cons]
    constructor
    · simp [List.mem_eraseDups]
    · exact nodup_eraseDups _
termination_by ks.length
decreasing_by
  have hle := List.length_filter_le (fun b ↦ !b == k) ks
  rw [List.length_cons]
  omega

/-- Distinct keys are kept as they are. -/
theorem eraseDups_of_nodup {ks : List κ} (h : ks.Nodup) : ks.eraseDups = ks := by
  induction ks with
  | nil => rfl
  | cons k ks ih =>
    obtain ⟨hk, hks⟩ := List.nodup_cons.mp h
    have hfilter : ks.filter (fun b ↦ !b == k) = ks := by
      apply List.filter_eq_self.mpr
      rintro b hb
      simpa using fun hbk : b = k ↦ hk (hbk ▸ hb)
    rw [List.eraseDups_cons, hfilter, ih hks]

/-! ### The values -/

/-- The entries of distinct keys, one key after the other, are the entries with one of these
keys. -/
theorem flatMap_filter_perm (key : α → κ) (l : List α) {ks : List κ} (h : ks.Nodup) :
    (ks.flatMap fun k ↦ l.filter (key · = k)).Perm (l.filter (key · ∈ ks)) := by
  induction ks with
  | nil => simp
  | cons k ks ih =>
    obtain ⟨hk, hks⟩ := List.nodup_cons.mp h
    have hhead : (l.filter (key · ∈ k :: ks)).filter (key · = k) = l.filter (key · = k) := by
      rw [List.filter_filter]
      apply List.filter_congr
      intro x _
      simp only [List.mem_cons]
      grind
    have htail : (l.filter (key · ∈ k :: ks)).filter (fun x ↦ !decide (key x = k)) =
        l.filter (key · ∈ ks) := by
      rw [List.filter_filter]
      apply List.filter_congr
      intro x _
      grind
    have hsplit := List.filter_append_perm (fun x ↦ decide (key x = k))
      (l.filter (key · ∈ k :: ks))
    rw [hhead, htail] at hsplit
    rw [List.flatMap_cons]
    exact ((ih hks).append_left _).trans hsplit

/-- With distinct keys, an entry is the only one with its key. -/
theorem filter_key_eq {key : α → κ} {l : List α} (h : (l.map key).Nodup) {x : α} (hx : x ∈ l) :
    l.filter (key · = key x) = [x] := by
  induction l with
  | nil => cases hx
  | cons y l ih =>
    rw [List.map_cons, List.nodup_cons] at h
    obtain ⟨hy, hl⟩ := h
    rcases List.mem_cons.mp hx with rfl | hx
    · have hnone : l.filter (key · = key x) = [] := by
        apply List.filter_eq_nil_iff.mpr
        intro z hz hzx
        exact hy (of_decide_eq_true hzx ▸ List.mem_map_of_mem hz)
      rw [List.filter_cons_of_pos (by simp), hnone]
    · have hne : key y ≠ key x := fun hyx ↦ hy (hyx ▸ List.mem_map_of_mem hx)
      rw [List.filter_cons_of_neg (by simpa using hne), ih hl hx]

/-! ### The grouping -/

/-- Every list has a grouping. -/
theorem isGrouping_group (key : α → κ) (value : α → β) (l : List α) :
    IsGrouping key value l (group key value l) := by
  have hkeys : (group key value l).map Prod.fst = (l.map key).eraseDups := by
    rw [group, List.map_map]
    exact List.map_id' _
  refine ⟨hkeys ▸ nodup_eraseDups _, hkeys, ?_, ?_⟩
  · intro g hg
    obtain ⟨k, -, rfl⟩ := List.mem_map.mp hg
    rfl
  · have hall : l.filter (key · ∈ (l.map key).eraseDups) = l := by
      apply List.filter_eq_self.mpr
      intro x hx
      exact decide_eq_true (List.mem_eraseDups.mpr (List.mem_map_of_mem hx))
    have hperm := (flatMap_filter_perm key l (nodup_eraseDups (l.map key))).map value
    rw [hall, List.map_flatMap] at hperm
    rwa [group, List.flatMap_map]

/-- A list has no other grouping. -/
theorem IsGrouping.eq_group {key : α → κ} {value : α → β} {l : List α}
    {groups : List (κ × List β)} (h : IsGrouping key value l groups) :
    groups = group key value l := by
  rw [group, ← h.order, List.map_map]
  refine (List.map_id groups).symm.trans (List.map_congr_left fun g hg ↦ ?_)
  exact Prod.ext rfl (h.gathered g hg)

/-- A group for each entry is the grouping exactly if the keys are distinct. -/
theorem isGrouping_singletons_iff (key : α → κ) (value : α → β) (l : List α) :
    IsGrouping key value l (l.map fun x ↦ (key x, [value x])) ↔ (l.map key).Nodup := by
  have hkeys : (l.map fun x ↦ (key x, [value x])).map Prod.fst = l.map key := by
    rw [List.map_map]
    rfl
  constructor
  · intro h
    exact hkeys ▸ h.distinct
  · intro h
    refine ⟨hkeys.symm ▸ h, hkeys.trans (eraseDups_of_nodup h).symm, ?_, ?_⟩
    · intro g hg
      obtain ⟨x, hx, rfl⟩ := List.mem_map.mp hg
      rw [filter_key_eq h hx]
      rfl
    · rw [List.flatMap_map]
      exact List.Perm.of_eq (List.flatMap_pure_eq_map value l)

end TimeMachine.Base
