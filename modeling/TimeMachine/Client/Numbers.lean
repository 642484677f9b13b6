import TimeMachine.Client.Coverage
import TimeMachine.Client.Folders
import TimeMachine.Base.Numbering

/-!
# Folders written in order

As long as no write to a folder has an earlier timestamp than one before it and every
number is written, the numbers of its records rise from zero with their keys and leave
none out. Opening the database again sets the counter to the last of them, which may be
given out once more, and keeps this.
-/

namespace TimeMachine.Client
open TimeMachine.Base TimeMachine.Store
open IDComparator hiding compare

/-- The number of an identifier. -/
def number (x : ID) : Nat := x.unique.toNat

/-- Records in the order of their keys that were written under these timestamps, and whose numbers
rise and leave none out. -/
structure Folder.InOrder (stamps : List UInt64) (f : Folder) : Prop where
  kept : OrderedStore.Kept IDComparator.compare Dated f.records
  numbered : Numbered LexLt number (idsOf f.records) f.lastUnique.toNat
  stamped : ∀ x ∈ idsOf f.records, x.timestamp ∈ stamps
  lastUnique_le : f.lastUnique.toNat ≤ stamps.length

/-- What is not after another identifier is it, or before it. -/
theorem eq_or_lexLt {x y : ID} (h : ¬ LexLt y x) : x = y ∨ LexLt x y := by
  by_contra hnot
  rw [not_or] at hnot
  exact hnot.1 (Std.Trichotomous.trichotomous (r := LexLt) x y hnot.2 h)

/-- An entry before one that is at most at a timestamp is so too. -/
theorem atMost_of_lexLt {t : UInt64} {d e : Slice × Bytes}
    (hlt : LexLt (deserializeID d.1) (deserializeID e.1)) (he : AtMost t e) : AtMost t d := by
  simp only [AtMost, entryTs, LexLt] at hlt he ⊢
  grind

/-- What is at most at a timestamp is so at a later one. -/
theorem atMost_mono {t t' : UInt64} (hle : t ≤ t') {e : Slice × Bytes} (he : AtMost t e) :
    AtMost t' e := by
  simp only [AtMost] at he ⊢
  grind

/-- No identifier is among no entries. -/
theorem idsOf_nil : idsOf [] = ∅ := by
  simp [idsOf]

namespace Folder.InOrder
variable {stamps : List UInt64} {f : Folder}

/-- A new folder. -/
theorem created (stamps : List UInt64) : Folder.InOrder stamps ⟨[], 0⟩ where
  kept := OrderedStore.kept_nil
  numbered := idsOf_nil ▸ Numbered.empty
  stamped x hx := by
    rw [idsOf_nil] at hx
    exact hx.elim
  lastUnique_le := Nat.zero_le _

/-- The first number of a folder with records is zero. -/
theorem from_eq_zero (h : f.InOrder stamps) (hne : f.records ≠ []) :
    (DbClient.uniqueRange f.records).from' = 0 := by
  obtain ⟨first, hmem, hfrom, hnone⟩ := exists_first (chronological_of_kept h.kept) hne
  rw [← hfrom, ← UInt64.toNat_inj]
  exact h.numbered.first_eq_zero hmem fun x hx ↦ (eq_or_lexLt (hnone x hx)).imp_left Eq.symm

/-- Setting the counter from the records. -/
theorem reseed (h : f.InOrder stamps) : f.reseed.InOrder stamps := by
  by_cases hne : f.records = []
  · obtain ⟨records, lastUnique⟩ := f
    obtain rfl : records = [] := hne
    exact created stamps
  · obtain ⟨last, hmem, htill, hnone⟩ := exists_last (chronological_of_kept h.kept) hne
    have hlast : f.reseed.lastUnique = last.unique := htill.symm
    have hle : number last ≤ f.lastUnique.toNat := h.numbered.le_next last hmem
    refine ⟨h.kept, ?_, h.stamped, ?_⟩
    · rw [hlast]
      exact h.numbered.rewind hmem fun x hx ↦ eq_or_lexLt (hnone x hx)
    · rw [hlast]
      exact Nat.le_trans hle h.lastUnique_le

/-- Writing a record under the next number, with a timestamp not before the others. -/
theorem saved (h : f.InOrder stamps) {ts : UInt64} (hts : ts ≠ 0) (hlate : ∀ t ∈ stamps, t ≤ ts)
    (hlen : stamps.length + 1 < 2 ^ 64) (val : Bytes) :
    Folder.InOrder (stamps ++ [ts])
      { records := OrderedStore.put IDComparator.compare (serializeID ⟨ts, f.lastUnique⟩) val
          f.records
        lastUnique := f.lastUnique + 1 } := by
  have hids := idsOf_put h.kept (show (⟨ts, f.lastUnique⟩ : ID).timestamp ≠ 0 from hts) val
  have hle := h.lastUnique_le
  have hnext : (f.lastUnique + 1).toNat = f.lastUnique.toNat + 1 := by
    rw [UInt64.toNat_add, UInt64.toNat_one, Nat.mod_eq_of_lt (by omega)]
  refine ⟨OrderedStore.kept_put dated_total h.kept (dated_serializeID hts) val, ?_, ?_, ?_⟩
  · simp only [hids, hnext]
    refine h.numbered.insert_last rfl fun x hx hlt ↦ ?_
    -- at the same timestamp no stored number is above the next one
    rcases hlt with hlt | ⟨-, hlt⟩
    · exact UInt64.not_lt.mpr (hlate _ (h.stamped x hx)) hlt
    · have hnum := h.numbered.le_next x hx
      rw [UInt64.lt_iff_toNat_lt] at hlt
      exact Nat.not_lt.mpr hnum hlt
  · simp only [hids]
    rintro x (rfl | hx)
    · exact List.mem_append_right stamps List.mem_cons_self
    · exact List.mem_append_left [ts] (h.stamped x hx)
  · rw [hnext, List.length_append, List.length_singleton]
    omega

/-- The last number of a folder with records is at most that of its counter. -/
theorem till_le (h : f.InOrder stamps) (hne : f.records ≠ []) :
    (DbClient.uniqueRange f.records).till.toNat ≤ f.lastUnique.toNat := by
  obtain ⟨last, hmem, htill, -⟩ := exists_last (chronological_of_kept h.kept) hne
  rw [← htill]
  exact h.numbered.le_next last hmem

/-- No number is above the last. -/
theorem le_till (h : f.InOrder stamps) {x : ID} (hx : x ∈ idsOf f.records) :
    x.unique ≤ (DbClient.uniqueRange f.records).till := by
  have hne : f.records ≠ [] := by
    intro hnil
    rw [hnil, idsOf_nil] at hx
    exact hx
  obtain ⟨last, hmem, htill, hnone⟩ := exists_last (chronological_of_kept h.kept) hne
  rw [← htill]
  rcases eq_or_lexLt (hnone x hx) with rfl | hlt
  · exact UInt64.le_refl _
  · exact UInt64.le_iff_toNat_le.mpr (h.numbered.rising x hx last hmem hlt)

/-- Each number up to the last is found by itself alone. -/
theorem found (h : f.InOrder stamps) (hne : f.records ≠ []) {unique : UInt64}
    (hu : unique ≤ (DbClient.uniqueRange f.records).till) : Found f.records unique := by
  have hchron := chronological_of_kept h.kept
  obtain ⟨last, hmem, htill, -⟩ := exists_last hchron hne
  rw [← htill, UInt64.le_iff_toNat_le] at hu
  obtain ⟨x, ⟨e, he, rfl⟩, hnum⟩ := h.numbered.exists_of_le hmem hu
  -- the first of the records with the number
  have hsome : (f.records.find? fun d ↦ (deserializeID d.1).unique = unique).isSome :=
    List.find?_isSome.mpr ⟨e, he, decide_eq_true (UInt64.toNat_inj.mp hnum)⟩
  obtain ⟨d, hd⟩ := Option.isSome_iff_exists.mp hsome
  obtain ⟨hd, before, after, hsplit, hbefore⟩ := List.find?_eq_some_iff_append.mp hd
  refine ⟨before, d, after, hsplit, of_decide_eq_true hd, fun c hc ↦ ?_⟩
  have hne' : (deserializeID c.1).unique ≠ unique := by simpa using hbefore c hc
  have hsorted := hchron.sorted
  rw [hsplit] at hsorted
  have hlt := (List.pairwise_append.mp hsorted).2.2 c hc d List.mem_cons_self
  have hle := h.numbered.rising _ ⟨c, by simp [hsplit, hc], rfl⟩ _ ⟨d, by simp [hsplit], rfl⟩ hlt
  rw [number, number, of_decide_eq_true hd, ← UInt64.le_iff_toNat_le] at hle
  exact Std.lt_of_le_of_ne hle hne'

/-! ### Periods -/

/-- An entry found by a number up to that of the newest one at most at a timestamp is at most at
it. -/
theorem atMost_of_find (h : f.InOrder stamps) {t : UInt64} {z : Slice × Bytes}
    (hz : Newest f.records t z) {unique : UInt64} (hle : unique ≤ entryUnique z)
    {e : Slice × Bytes}
    (he : OrderedStore.find IDComparator.compare (serializeID ⟨0, unique⟩) f.records = some e) :
    AtMost t e := by
  obtain ⟨before, after, hsplit, hunique, hbefore⟩ := split_of_find he
  have hmem : e ∈ f.records := OrderedStore.mem_of_find he
  -- the entry found does not come after the newest one, which would be found before it
  have hnot : ¬ LexLt (deserializeID z.1) (deserializeID e.1) := by
    intro hlt
    have hstored := hz.stored
    have hsorted := (chronological_of_kept h.kept).sorted
    rw [hsplit] at hstored hsorted
    rcases List.mem_append.mp hstored with hz' | hz'
    · exact UInt64.not_lt.mpr hle (hbefore z hz')
    · rcases List.mem_cons.mp hz' with rfl | hz'
      · exact lexLt_irrefl _ hlt
      · exact lexLt_asymm hlt
          ((List.pairwise_cons.mp (List.pairwise_append.mp hsorted).2.1).1 z hz')
  rcases eq_or_lexLt hnot with heq | hlt
  · have hat := hz.atMost
    rwa [AtMost, entryTs, ← heq] at hat
  · exact atMost_of_lexLt hlt hz.atMost

/-- An entry with a larger number than the newest one at most at a timestamp is not at most at
it. -/
theorem not_atMost_of_lt (h : f.InOrder stamps) {t : UInt64} {y : Slice × Bytes}
    (hy : Newest f.records t y) {e : Slice × Bytes} (he : e ∈ f.records)
    (hlt : entryUnique y < entryUnique e) : ¬ AtMost t e := by
  intro hat
  rcases eq_or_lexLt (hy.newest e he hat) with heq | hbefore
  · rw [entryUnique, entryUnique, heq] at hlt
    exact UInt64.lt_irrefl _ hlt
  · have hle := h.numbered.rising _ ⟨e, he, rfl⟩ _ ⟨y, hy.stored, rfl⟩ hbefore
    exact Nat.not_lt.mpr hle (UInt64.lt_iff_toNat_lt.mp hlt)

/-- If anything is at most at a timestamp, there is a newest such entry. -/
theorem exists_newest (h : f.InOrder stamps) {t : UInt64} (ht : t ≠ 0) {e : Slice × Bytes}
    (he : e ∈ f.records) (hat : AtMost t e) : ∃ z, Newest f.records t z := by
  have hchron := chronological_of_kept h.kept
  cases hp : DbClient.seekForPrev (serializeID { timestamp := t }) f.records with
  | none => exact absurd hat ((hchron.seekForPrev_eq_none_iff ht).mp hp e he)
  | some p => exact ⟨p.current, hchron.newest_of_seekForPrev ht hp⟩

section Period
variable (h : f.InOrder stamps) {fromTs tillTs : UInt64} (hfrom : fromTs ≠ 0)
  (hle : fromTs ≤ tillTs) {z : Slice × Bytes} (hz : Newest f.records tillTs z)

include h hfrom hle hz

/-- The range of a period ends with the newest entry at most at its end, and is in order. -/
theorem period_range :
    (DbClient.uniqueRangeForTS fromTs tillTs f.records).till = entryUnique z ∧
      (DbClient.uniqueRangeForTS fromTs tillTs f.records).from' ≤ entryUnique z := by
  have hchron := chronological_of_kept h.kept
  have htill : tillTs ≠ 0 := by
    rintro rfl
    exact hfrom (UInt64.le_zero_iff.mp hle)
  constructor
  · rcases hchron.uniqueAt_seekForPrev htill with ⟨d, hd, heq⟩ | ⟨hnone, -⟩
    · exact heq.symm.trans (hd.unique_eq hz)
    · exact absurd hz (hnone z)
  · rcases hchron.uniqueAt_seekForPrev hfrom with ⟨y, hy, heq⟩ | ⟨-, hzero⟩
    · have hbound : entryUnique y ≤ entryUnique z := by
        rcases eq_or_lexLt (hz.newest y hy.stored (atMost_mono hle hy.atMost)) with hid | hlt
        · rw [entryUnique, entryUnique, hid]
          exact UInt64.le_refl _
        · exact UInt64.le_iff_toNat_le.mpr
            (h.numbered.rising _ ⟨y, hy.stored, rfl⟩ _ ⟨z, hz.stored, rfl⟩ hlt)
      exact heq.symm.trans_le hbound
    · exact hzero.trans_le UInt64.zero_le

/-- An entry found by a number in the range of a period is not after the start of its end, and
not before its beginning, unless it has the number of the newest entry there. -/
theorem found_in_period {unique : UInt64}
    (hlo : (DbClient.uniqueRangeForTS fromTs tillTs f.records).from' ≤ unique)
    (hhi : unique ≤ (DbClient.uniqueRangeForTS fromTs tillTs f.records).till)
    {e : Slice × Bytes}
    (he : OrderedStore.find IDComparator.compare (serializeID ⟨0, unique⟩) f.records = some e) :
    AtMost tillTs e ∧
      (fromTs ≤ entryTs e ∨ ∃ y, Newest f.records fromTs y ∧ entryUnique e = entryUnique y) := by
  have hmem : e ∈ f.records := OrderedStore.mem_of_find he
  obtain ⟨-, -, -, hunique, -⟩ := split_of_find he
  rw [(period_range h hfrom hle hz).1] at hhi
  refine ⟨h.atMost_of_find hz hhi he, ?_⟩
  by_cases hat : AtMost fromTs e
  · -- only entries with the number of the newest one are found so early
    obtain ⟨y, hy⟩ := h.exists_newest hfrom hmem hat
    refine Or.inr ⟨y, hy, ?_⟩
    rcases (chronological_of_kept h.kept).uniqueAt_seekForPrev hfrom with
      ⟨d, hd, heq⟩ | ⟨hnone, -⟩
    · have hyle : entryUnique y ≤ entryUnique e := by
        rw [hy.unique_eq hd, heq, entryUnique, hunique]
        exact hlo
      by_contra hne
      exact h.not_atMost_of_lt hy hmem (Std.lt_of_le_of_ne hyle (Ne.symm hne)) hat
    · exact absurd hy (hnone y)
  · left
    rw [AtMost, not_or] at hat
    exact UInt64.not_lt.mp hat.1

end Period

end Folder.InOrder

/-- The folder of this name, if there is one, was written in order. -/
def Folders.InOrder (stamps : List UInt64) (name : String) (F : Folders) : Prop :=
  ∀ f ∈ F name, f.InOrder stamps

namespace Folders.InOrder
variable {stamps : List UInt64} {name : String} {F : Folders}

/-- Opening the database again. -/
theorem reopen (h : F.InOrder stamps name) : F.reopen.InOrder stamps name := by
  intro f hf
  obtain ⟨g, hg, rfl⟩ := Option.map_eq_some_iff.mp hf
  exact (h g hg).reseed

/-- Making sure of a folder. -/
theorem touch (h : F.InOrder stamps name) (other : String) :
    (F.touch other).InOrder stamps name := by
  by_cases hs : (F other).isSome
  · rwa [touch_of_isSome hs]
  · rw [touch_of_none (by simpa using hs)]
    intro f hf
    rw [Option.mem_def, create_apply] at hf
    split at hf
    · cases hf
      exact Folder.InOrder.created stamps
    · exact h.reopen f hf

end Folders.InOrder
end TimeMachine.Client
