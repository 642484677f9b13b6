import TimeMachine.Client.UniqueRanges
import TimeMachine.Base.Extremes
import Mathlib.Data.Set.Image

/-!
# The range of a whole folder

The range of a folder is read off its first and its last record, and these come first and
last by their timestamps. So the range covers the numbers of all records only if the first
one has the smallest number as well and the last one the largest. It is said here of what
kind one more record must be to keep it so.
-/

namespace TimeMachine.Client
open TimeMachine.Base TimeMachine.Store
open IDComparator hiding compare

/-- The range of a folder with records is from the smallest number of all to the largest. -/
def Covers (entries : ColumnFamily) : Prop :=
  entries ≠ [] → Smallest entries (fun _ ↦ True) (DbClient.uniqueRange entries).from' ∧
    Largest entries (fun _ ↦ True) (DbClient.uniqueRange entries).till

/-- The number of an identifier goes with its timestamp at either end of a folder. If no record
is before it, none has a smaller number, and else some record has none larger. If no record is
after it, none has a larger number, and else some record has none smaller. -/
def Fits (entries : ColumnFamily) (id : ID) : Prop :=
  ((∀ e ∈ entries, ¬ LexLt (deserializeID e.1) id) → ∀ e ∈ entries, id.unique ≤ entryUnique e) ∧
  ((∃ e ∈ entries, LexLt (deserializeID e.1) id) → ∃ e ∈ entries, entryUnique e ≤ id.unique) ∧
  ((∀ e ∈ entries, ¬ LexLt id (deserializeID e.1)) → ∀ e ∈ entries, entryUnique e ≤ id.unique) ∧
  ((∃ e ∈ entries, LexLt id (deserializeID e.1)) → ∃ e ∈ entries, id.unique ≤ entryUnique e)

instance Fits.decidable (entries : ColumnFamily) (id : ID) : Decidable (Fits entries id) :=
  inferInstanceAs (Decidable (_ ∧ _ ∧ _ ∧ _))

/-- The order of the keys as one of Mathlib's. -/
instance lexLt_strictTotal : IsStrictTotalOrder ID LexLt where
  trichotomous x y hxy hyx := by
    rw [LexLt] at hxy hyx
    rw [ID.mk.injEq]
    grind
  irrefl := lexLt_irrefl
  trans _ _ _ := lexLt_trans

/-- The first identifier has no larger number than the second. -/
def NumberLe (x y : ID) : Prop := x.unique ≤ y.unique

instance numberLe_preorder : IsPreorder ID NumberLe where
  refl x := UInt64.le_refl x.unique
  trans _ _ _ := UInt64.le_trans

/-- The identifiers of the records of a folder. -/
def idsOf (entries : ColumnFamily) : Set ID := (fun e ↦ deserializeID e.1) '' {e | e ∈ entries}

section
variable {entries : ColumnFamily}

/-- An identifier fits a folder if it does so at either end. -/
theorem fits_iff {id : ID} : Fits entries id ↔
    Joins LexLt NumberLe (idsOf entries) id ∧
      Joins (Function.swap LexLt) (Function.swap NumberLe) (idsOf entries) id := by
  simp only [Joins, idsOf, Set.forall_mem_image, Set.exists_mem_image, Set.mem_ofPred_eq, and_assoc]
  exact Iff.rfl

/-- A write adds one identifier. -/
theorem idsOf_put (h : OrderedStore.Kept IDComparator.compare Dated entries) {id : ID}
    (hid : id.timestamp ≠ 0) (val : Bytes) :
    idsOf (OrderedStore.put IDComparator.compare (serializeID id) val entries) =
      insert id (idsOf entries) := by
  have hmem := OrderedStore.mem_put dated_total h (dated_serializeID hid) val
  ext x
  simp only [idsOf, Set.mem_image, Set.mem_ofPred_eq, Set.mem_insert_iff]
  constructor
  · rintro ⟨e, he, rfl⟩
    rcases (hmem e).mp he with rfl | ⟨he, -⟩
    · exact Or.inl (deserializeID_serializeID id)
    · exact Or.inr ⟨e, he, rfl⟩
  · rintro (rfl | ⟨e, he, rfl⟩)
    · exact ⟨_, (hmem _).mpr (Or.inl rfl), deserializeID_serializeID x⟩
    · by_cases hkey : e.1 = serializeID id
      · exact ⟨_, (hmem _).mpr (Or.inl rfl), by rw [hkey]⟩
      · exact ⟨e, (hmem e).mpr (Or.inr ⟨he, hkey⟩), rfl⟩

/-- The lower end is the number of a record that no other is before. -/
theorem exists_first (h : Chronological entries) (hne : entries ≠ []) :
    ∃ first ∈ idsOf entries, first.unique = (DbClient.uniqueRange entries).from' ∧
      ∀ x ∈ idsOf entries, ¬ LexLt x first := by
  obtain ⟨e, rest, rfl⟩ := List.exists_cons_of_ne_nil hne
  refine ⟨_, Set.mem_image_of_mem _ (show e ∈ e :: rest from List.mem_cons_self), rfl,
    Set.forall_mem_image.mpr fun d hd hlt ↦ ?_⟩
  rcases List.mem_cons.mp hd with rfl | hd
  · exact lexLt_irrefl _ hlt
  · exact lexLt_asymm ((List.pairwise_cons.mp h.sorted).1 d hd) hlt

/-- The upper end is the number of a record that no other is after. -/
theorem exists_last (h : Chronological entries) (hne : entries ≠ []) :
    ∃ last ∈ idsOf entries, last.unique = (DbClient.uniqueRange entries).till ∧
      ∀ x ∈ idsOf entries, ¬ LexLt last x := by
  obtain ⟨rest, e, rfl⟩ := (List.eq_nil_or_concat' entries).resolve_left hne
  have he : e ∈ rest ++ [e] := by simp
  refine ⟨_, Set.mem_image_of_mem _ he, ?_, Set.forall_mem_image.mpr fun d hd hlt ↦ ?_⟩
  · simp only [DbClient.uniqueRange, OrderedStore.seekToLast, List.getLast?_concat]
  · rcases List.mem_append.mp hd with hd | hd
    · exact lexLt_asymm ((List.pairwise_append.mp h.sorted).2.2 d hd e List.mem_cons_self) hlt
    · rw [List.mem_singleton.mp hd] at hlt
      exact lexLt_irrefl _ hlt

/-- Whether the range covers all numbers depends on the set of the identifiers only. -/
theorem covers_iff (h : Chronological entries) (hne : entries ≠ []) : Covers entries ↔
    Leads LexLt NumberLe (idsOf entries) ∧
      Leads (Function.swap LexLt) (Function.swap NumberLe) (idsOf entries) := by
  obtain ⟨first, hfirst, hfrom, hnone⟩ := exists_first h hne
  obtain ⟨last, hlast, htill, hnone'⟩ := exists_last h hne
  have hswap : ∀ x ∈ idsOf entries, ¬ Function.swap LexLt x last := hnone'
  rw [Covers, imp_iff_right hne, leads_iff hfirst hnone, leads_iff hlast hswap, ← hfrom, ← htill,
    idsOf, Set.forall_mem_image, Set.forall_mem_image]
  obtain ⟨d, hd, rfl⟩ := hfirst
  obtain ⟨e, he, rfl⟩ := hlast
  refine and_congr ⟨fun hs c hc ↦ hs.le c hc trivial, fun hall ↦ ?_⟩
    ⟨fun hl c hc ↦ hl.ge c hc trivial, fun hall ↦ ?_⟩
  · exact ⟨⟨d, hd, trivial, rfl⟩, fun c hc _ ↦ hall hc⟩
  · exact ⟨⟨e, he, trivial, rfl⟩, fun c hc _ ↦ hall hc⟩

/-- After a write the range still covers all numbers exactly if the identifier fits. -/
theorem covers_put_iff (h : OrderedStore.Kept IDComparator.compare Dated entries)
    (hcovers : Covers entries) {id : ID} (hid : id.timestamp ≠ 0) (val : Bytes) :
    Covers (OrderedStore.put IDComparator.compare (serializeID id) val entries) ↔
      Fits entries id := by
  have hput := chronological_of_kept
    (OrderedStore.kept_put dated_total h (dated_serializeID hid) val)
  rw [covers_iff hput (OrderedStore.put_ne_nil _ _ _), idsOf_put h hid, fits_iff]
  by_cases hne : entries = []
  · subst hne
    simp [Leads, Joins, idsOf, NumberLe]
  · have hchron := chronological_of_kept h
    obtain ⟨hleads, hleads'⟩ := (covers_iff hchron hne).mp hcovers
    obtain ⟨first, hfirst, -, hnone⟩ := exists_first hchron hne
    obtain ⟨last, hlast, -, hnone'⟩ := exists_last hchron hne
    exact and_congr (leads_insert_iff hfirst hnone hleads id)
      (leads_insert_iff hlast hnone' hleads' id)

end
end TimeMachine.Client
