import TimeMachine.Client.Bounds

/-!
# Ranges of unique numbers

What the two reads of a range of unique numbers find. Both ends of the range of a period
come from a seek for the start of a timestamp, which is on the last record up to there.
At the lower end that is the record before the period, unless the period begins with
the first record of all; at the upper end it misses the records of the last timestamp.
-/

namespace TimeMachine.Client
open TimeMachine.Base TimeMachine.Store
open IDComparator hiding compare

/-- The unique number in the key of an entry. -/
def entryUnique (e : Slice × Bytes) : UInt64 := (deserializeID e.1).unique

/-- The smallest unique number of the entries selected. -/
structure Smallest (entries : ColumnFamily) (selected : Slice × Bytes → Prop)
    (unique : UInt64) : Prop where
  attained : ∃ e ∈ entries, selected e ∧ entryUnique e = unique
  le : ∀ e ∈ entries, selected e → unique ≤ entryUnique e

/-- The largest unique number of the entries selected. -/
structure Largest (entries : ColumnFamily) (selected : Slice × Bytes → Prop)
    (unique : UInt64) : Prop where
  attained : ∃ e ∈ entries, selected e ∧ entryUnique e = unique
  ge : ∀ e ∈ entries, selected e → entryUnique e ≤ unique

/-- The newest entry that is at most at a timestamp. -/
structure Newest (entries : ColumnFamily) (t : UInt64) (e : Slice × Bytes) : Prop where
  stored : e ∈ entries
  atMost : AtMost t e
  newest : ∀ d ∈ entries, AtMost t d → ¬ LexLt (deserializeID e.1) (deserializeID d.1)

/-- The period between two timestamps, both ends included. -/
def InPeriod (fromTs tillTs : UInt64) (e : Slice × Bytes) : Prop :=
  fromTs ≤ entryTs e ∧ entryTs e ≤ tillTs

instance InPeriod.decidable (fromTs tillTs : UInt64) (e : Slice × Bytes) :
    Decidable (InPeriod fromTs tillTs e) :=
  inferInstanceAs (Decidable (fromTs ≤ entryTs e ∧ entryTs e ≤ tillTs))

/-- The newest entries at most at a timestamp have one unique number. -/
theorem Newest.unique_eq {entries : ColumnFamily} {t : UInt64} {d e : Slice × Bytes}
    (hd : Newest entries t d) (he : Newest entries t e) : entryUnique d = entryUnique e := by
  have hde := hd.newest e he.stored he.atMost
  have hed := he.newest d hd.stored hd.atMost
  simp only [LexLt, entryUnique] at *
  grind

/-- A seek for timestamp zero compares by number, so it ends on a record with number zero, if on
any. -/
theorem uniqueAt_seekForPrev_zero (entries : ColumnFamily) :
    DbClient.uniqueAt (DbClient.seekForPrev (serializeID { timestamp := 0 }) entries) = 0 := by
  cases hp : DbClient.seekForPrev (serializeID { timestamp := 0 }) entries with
  | none => rfl
  | some p =>
    obtain ⟨-, hcur, -⟩ := Cursor.seekForPrev_eq_some hp
    have hle : IDComparator.compare p.current.1 (serializeID ⟨0, 0⟩) ≤ 0 := of_decide_eq_true hcur
    rcases Int.lt_or_eq_of_le hle with hlt | heq
    · exact absurd ((compare_wildcard_neg_iff _ _).mp hlt) UInt64.not_lt_zero
    · exact (compare_wildcard_eq_zero_iff _ _).mp heq

/-- The range of a folder is in order exactly if its first record has no larger number than its
last. -/
theorem uniqueRange_le_iff (entries : ColumnFamily) :
    (DbClient.uniqueRange entries).from' ≤ (DbClient.uniqueRange entries).till ↔
      ∀ first ∈ entries.head?, ∀ last ∈ entries.getLast?,
        entryUnique first ≤ entryUnique last := by
  rcases List.eq_nil_or_concat' entries with rfl | ⟨before, last, rfl⟩
  · exact iff_of_true (UInt64.le_refl 0) (by simp)
  · obtain ⟨first, hfirst⟩ : ∃ first, (before ++ [last]).head? = some first :=
      Option.ne_none_iff_exists'.mp (by simp)
    simp only [DbClient.uniqueRange, OrderedStore.seekToFirst, OrderedStore.seekToLast, hfirst,
      List.getLast?_concat, Option.mem_some_iff, forall_eq', entryUnique]

namespace Chronological
variable {entries : ColumnFamily}

/-- A seek for a timestamp ends on the newest entry that is at most at it. -/
theorem newest_of_seekForPrev (h : Chronological entries) {t : UInt64} (ht : t ≠ 0)
    {p : Position (Slice × Bytes)}
    (hp : DbClient.seekForPrev (serializeID { timestamp := t }) entries = some p) :
    Newest entries t p.current := by
  obtain ⟨hsplit, hcur, hafter⟩ := Cursor.seekForPrev_eq_some hp
  have hat (d : Slice × Bytes) (hd : d ∈ entries) := compare_start_iff (h.dated d hd) ht
  have hstored : p.current ∈ entries := by
    rw [hsplit]
    simp
  refine ⟨hstored, (hat _ hstored).mp (of_decide_eq_true hcur), fun d hd hatd hlt ↦ ?_⟩
  have hsorted := h.sorted
  rw [hsplit] at hsorted hd
  rcases List.mem_append.mp hd with hd | hd
  · -- entries before the current one do not come after it
    exact lexLt_asymm ((List.pairwise_append.mp hsorted).2.2 d hd p.current List.mem_cons_self) hlt
  · rcases List.mem_cons.mp hd with rfl | hd
    · exact lexLt_irrefl _ hlt
    · have hmem : d ∈ entries := by
        rw [hsplit]
        simp [hd]
      exact of_decide_eq_false (hafter d hd) ((hat d hmem).mpr hatd)

/-- Where the unique numbers increase, they are ordered as the keys are. -/
theorem lexLt_iff_unique_lt (h : Chronological entries) (hu : UniquesIncrease entries)
    {d e : Slice × Bytes} (hd : d ∈ entries) (he : e ∈ entries) :
    LexLt (deserializeID d.1) (deserializeID e.1) ↔ entryUnique d < entryUnique e := by
  let Agree (a b : Slice × Bytes) : Prop :=
    LexLt (deserializeID a.1) (deserializeID b.1) ↔ entryUnique a < entryUnique b
  have hboth := h.sorted.and hu
  refine List.Pairwise.forall_of_forall_of_flip (R := Agree) ?_ ?_ ?_ hd he
  · intro a _
    exact iff_of_false (lexLt_irrefl _) (UInt64.lt_irrefl _)
  · exact hboth.imp fun hab ↦ iff_of_true hab.1 hab.2
  · refine hboth.imp fun hab ↦ iff_of_false ?_ ?_
    · exact lexLt_asymm hab.1
    · exact UInt64.not_lt.mpr (UInt64.le_of_lt hab.2)

/-- Among increasing unique numbers, a larger one is not on an earlier key. -/
theorem unique_le_of_not_lexLt (h : Chronological entries) (hu : UniquesIncrease entries)
    {d e : Slice × Bytes} (hd : d ∈ entries) (he : e ∈ entries)
    (hlt : ¬ LexLt (deserializeID e.1) (deserializeID d.1)) : entryUnique d ≤ entryUnique e := by
  rw [h.lexLt_iff_unique_lt hu he hd] at hlt
  exact UInt64.not_lt.mp hlt

/-- The order of the keys is that of the timestamps first. -/
theorem ts_le_of_unique_le (h : Chronological entries) (hu : UniquesIncrease entries)
    {d e : Slice × Bytes} (hd : d ∈ entries) (he : e ∈ entries)
    (hle : entryUnique d ≤ entryUnique e) : entryTs d ≤ entryTs e := by
  have hlt := mt (h.lexLt_iff_unique_lt hu he hd).mp (UInt64.not_lt.mpr hle)
  rw [LexLt, not_or] at hlt
  exact UInt64.not_lt.mp hlt.1

/-- The number found for a timestamp is that of the newest entry at most at it, or zero. -/
theorem uniqueAt_seekForPrev (h : Chronological entries) {t : UInt64} (ht : t ≠ 0) :
    (∃ e, Newest entries t e ∧ entryUnique e =
        DbClient.uniqueAt (DbClient.seekForPrev (serializeID { timestamp := t }) entries)) ∨
      ((∀ e, ¬ Newest entries t e) ∧
        DbClient.uniqueAt (DbClient.seekForPrev (serializeID { timestamp := t }) entries) = 0) := by
  cases hp : DbClient.seekForPrev (serializeID { timestamp := t }) entries with
  | none =>
    refine Or.inr ⟨fun e he ↦ ?_, rfl⟩
    exact (h.seekForPrev_eq_none_iff ht).mp hp e he.stored he.atMost
  | some p => exact Or.inl ⟨p.current, h.newest_of_seekForPrev ht hp, rfl⟩

/-- The range of a period is in order if it has no lower bound; else exactly if the newest record
at most at the lower bound has number zero, or there is an upper bound and the newest record at
most at that has no smaller number. -/
theorem uniqueRangeForTS_le_iff (h : Chronological entries) (fromTs tillTs : UInt64) :
    (DbClient.uniqueRangeForTS fromTs tillTs entries).from' ≤
        (DbClient.uniqueRangeForTS fromTs tillTs entries).till ↔
      (fromTs ≠ 0 → ∀ f, Newest entries fromTs f → entryUnique f = 0 ∨
        tillTs ≠ 0 ∧ ∃ t, Newest entries tillTs t ∧ entryUnique f ≤ entryUnique t) := by
  simp only [DbClient.uniqueRangeForTS]
  by_cases hfrom : fromTs = 0
  · rw [hfrom, uniqueAt_seekForPrev_zero]
    exact iff_of_true UInt64.zero_le fun hne ↦ absurd rfl hne
  · rw [imp_iff_right hfrom]
    rcases h.uniqueAt_seekForPrev hfrom with ⟨f, hf, heq⟩ | ⟨hnone, heq⟩
    · have hone (P : UInt64 → Prop) :
          (∀ e, Newest entries fromTs e → P (entryUnique e)) ↔ P (entryUnique f) :=
        ⟨fun hall ↦ hall f hf, fun hp e he ↦ he.unique_eq hf ▸ hp⟩
      rw [← heq, hone fun u ↦ u = 0 ∨ tillTs ≠ 0 ∧ ∃ t, Newest entries tillTs t ∧
        u ≤ entryUnique t]
      by_cases htill : tillTs = 0
      · rw [htill, uniqueAt_seekForPrev_zero, UInt64.le_zero_iff]
        simp
      · rcases h.uniqueAt_seekForPrev htill with ⟨t, ht, heq'⟩ | ⟨hnone, heq'⟩
        · rw [← heq']
          constructor
          · exact fun hle ↦ Or.inr ⟨htill, t, ht, hle⟩
          · rintro (hzero | ⟨-, t', ht', hle⟩)
            · rw [hzero]
              exact UInt64.zero_le
            · rwa [ht'.unique_eq ht] at hle
        · rw [heq', UInt64.le_zero_iff]
          refine ⟨Or.inl, fun hor ↦ hor.resolve_right ?_⟩
          rintro ⟨-, t, ht, -⟩
          exact hnone t ht
    · rw [heq]
      exact iff_of_true UInt64.zero_le fun f hf ↦ absurd hf (hnone f)

section Period
variable (h : Chronological entries) (hu : UniquesIncrease entries) {fromTs tillTs : UInt64}
  (hfrom : 0 < fromTs) (hle : fromTs ≤ tillTs) (hex : ∃ e ∈ entries, InPeriod fromTs tillTs e)
include h hu hfrom hle hex

private theorem smallest_iff :
    Smallest entries (InPeriod fromTs tillTs) (DbClient.uniqueAt
        (DbClient.seekForPrev (serializeID { timestamp := fromTs }) entries)) ↔
      ∃ e ∈ entries, entryUnique e = 0 ∧ fromTs ≤ entryTs e := by
  have hne : fromTs ≠ 0 := UInt64.pos_iff_ne_zero.mp hfrom
  obtain ⟨d, hd, hdfrom, hdtill⟩ := hex
  cases hp : DbClient.seekForPrev (serializeID { timestamp := fromTs }) entries with
  | none =>
    show Smallest entries _ 0 ↔ _
    constructor
    · rintro ⟨⟨e, he, hperiod, hzero⟩, -⟩
      exact ⟨e, he, hzero, hperiod.1⟩
    · rintro ⟨e, he, hzero, hefrom⟩
      have hde : entryTs e ≤ entryTs d := h.ts_le_of_unique_le hu he hd (by
        rw [hzero]
        exact UInt64.zero_le)
      exact ⟨⟨e, he, ⟨hefrom, UInt64.le_trans hde hdtill⟩, hzero⟩, fun _ _ _ ↦ UInt64.zero_le⟩
  | some p =>
    show Smallest entries _ (entryUnique p.current) ↔ _
    obtain ⟨hstored, hat, hnewest⟩ := h.newest_of_seekForPrev hne hp
    constructor
    · rintro ⟨⟨e, he, hperiod, heq⟩, -⟩
      -- the record found is not before the period, so it is at its start
      have hts : fromTs ≤ entryTs p.current := UInt64.le_trans hperiod.1
        (h.ts_le_of_unique_le hu he hstored (UInt64.le_of_eq heq))
      have hstart := hat.resolve_left (UInt64.not_lt.mpr hts)
      exact ⟨p.current, hstored, hstart.2, hts⟩
    · rintro ⟨e, he, hzero, hefrom⟩
      have hts : fromTs ≤ entryTs p.current := UInt64.le_trans hefrom
        (h.ts_le_of_unique_le hu he hstored (by
          rw [hzero]
          exact UInt64.zero_le))
      obtain ⟨hstart, hcur⟩ := hat.resolve_left (UInt64.not_lt.mpr hts)
      have hcur : entryUnique p.current = 0 := hcur
      rw [hcur]
      refine ⟨⟨p.current, hstored, ⟨hts, ?_⟩, hcur⟩, fun _ _ _ ↦ UInt64.zero_le⟩
      rw [hstart]
      exact hle

private theorem largest_iff :
    Largest entries (InPeriod fromTs tillTs) (DbClient.uniqueAt
        (DbClient.seekForPrev (serializeID { timestamp := tillTs }) entries)) ↔
      ∀ e ∈ entries, entryTs e = tillTs → entryUnique e = 0 := by
  have hne : tillTs ≠ 0 := UInt64.pos_iff_ne_zero.mp (UInt64.lt_of_lt_of_le hfrom hle)
  have hin (e : Slice × Bytes) (he : entryTs e = tillTs) : InPeriod fromTs tillTs e := by
    rw [InPeriod, he]
    exact ⟨hle, UInt64.le_refl _⟩
  obtain ⟨d, hd, hdfrom, hdtill⟩ := hex
  -- without such a record everything up to the end is at most at it
  have hall (hlast : ∀ e ∈ entries, entryTs e = tillTs → entryUnique e = 0)
      (e : Slice × Bytes) (he : e ∈ entries) (hle : entryTs e ≤ tillTs) : AtMost tillTs e := by
    rcases UInt64.lt_or_eq_of_le hle with hlt | heq
    · exact Or.inl hlt
    · exact Or.inr ⟨heq, hlast e he heq⟩
  cases hp : DbClient.seekForPrev (serializeID { timestamp := tillTs }) entries with
  | none =>
    show Largest entries _ 0 ↔ _
    constructor
    · rintro ⟨-, hge⟩ e he hts
      exact UInt64.le_zero_iff.mp (hge e he (hin e hts))
    · intro hlast
      exact absurd (hall hlast d hd hdtill) ((h.seekForPrev_eq_none_iff hne).mp hp d hd)
  | some p =>
    show Largest entries _ (entryUnique p.current) ↔ _
    obtain ⟨hstored, hat, hnewest⟩ := h.newest_of_seekForPrev hne hp
    constructor
    · rintro ⟨-, hge⟩ e he hts
      have hle' := hge e he (hin e hts)
      have hlate := h.ts_le_of_unique_le hu he hstored hle'
      rw [hts] at hlate
      have hzero : entryUnique p.current = 0 := (hat.resolve_left (UInt64.not_lt.mpr hlate)).2
      rw [hzero] at hle'
      exact UInt64.le_zero_iff.mp hle'
    · intro hlast
      have htop (e : Slice × Bytes) (he : e ∈ entries) (hle : entryTs e ≤ tillTs) :
          entryUnique e ≤ entryUnique p.current :=
        h.unique_le_of_not_lexLt hu he hstored (hnewest e he (hall hlast e he hle))
      refine ⟨⟨p.current, hstored, ⟨?_, ?_⟩, rfl⟩, fun e he hperiod ↦ htop e he hperiod.2⟩
      · exact UInt64.le_trans hdfrom (h.ts_le_of_unique_le hu hd hstored (htop d hd hdtill))
      · rcases hat with hlt | ⟨heq, -⟩
        · exact UInt64.le_of_lt hlt
        · exact UInt64.le_of_eq heq

end Period
end Chronological

/-- On a folder whose unique numbers increase in key order, the range of a period with a record
in it is from the smallest to the largest number of the period exactly if the record with number
zero is stored and not before the period, and no record of the last timestamp has another
number. -/
theorem period_range_iff {entries : ColumnFamily} (h : Chronological entries)
    (hu : UniquesIncrease entries) {fromTs tillTs : UInt64} (hfrom : 0 < fromTs)
    (hle : fromTs ≤ tillTs) (hex : ∃ e ∈ entries, InPeriod fromTs tillTs e) :
    (Smallest entries (InPeriod fromTs tillTs)
        (DbClient.uniqueRangeForTS fromTs tillTs entries).from' ∧
      Largest entries (InPeriod fromTs tillTs)
        (DbClient.uniqueRangeForTS fromTs tillTs entries).till) ↔
      (∃ e ∈ entries, entryUnique e = 0 ∧ fromTs ≤ entryTs e) ∧
        ∀ e ∈ entries, entryTs e = tillTs → entryUnique e = 0 :=
  and_congr (h.smallest_iff hu hfrom hle hex) (h.largest_iff hu hfrom hle hex)

/-- The period from 2 to 6 over the records (3, 0), (5, 1) and (7, 2). -/
theorem period_range_two :
    Smallest [(serializeID ⟨3, 0⟩, []), (serializeID ⟨5, 1⟩, []), (serializeID ⟨7, 2⟩, [])]
        (InPeriod 2 6) 0 ∧
      Largest [(serializeID ⟨3, 0⟩, []), (serializeID ⟨5, 1⟩, []), (serializeID ⟨7, 2⟩, [])]
        (InPeriod 2 6) 1 :=
  (period_range_iff (by decide) (by decide) (by decide : (0 : UInt64) < 2)
    (by decide : (2 : UInt64) ≤ 6) (by decide)).mpr (by decide)

/-- The period from 5 to 7 over the records (3, 0), (5, 1) and (7, 2): the range is from 0 to 1,
and the numbers of the period are 1 and 2. -/
theorem period_range_shifted :
    ¬ ∀ (entries : ColumnFamily) (fromTs tillTs : UInt64), Chronological entries →
      UniquesIncrease entries → 0 < fromTs → fromTs ≤ tillTs →
      (∃ e ∈ entries, InPeriod fromTs tillTs e) →
      Smallest entries (InPeriod fromTs tillTs)
          (DbClient.uniqueRangeForTS fromTs tillTs entries).from' ∧
        Largest entries (InPeriod fromTs tillTs)
          (DbClient.uniqueRangeForTS fromTs tillTs entries).till := by
  intro hall
  obtain ⟨hsmallest, -⟩ := hall
    [(serializeID ⟨3, 0⟩, []), (serializeID ⟨5, 1⟩, []), (serializeID ⟨7, 2⟩, [])] 5 7 (by decide)
    (by decide) (by decide) (by decide) (by decide)
  have hattained := hsmallest.attained
  revert hattained
  decide

end TimeMachine.Client
