import TimeMachine.Client.Scan

/-!
# Scans of a store in chronological order

Where the seek leaves the iterator and what the bound checks select from there, on a
store whose keys all have a timestamp and increase by timestamp and unique number.
Forwards this is exactly the requested range. Backwards it is the same range without
its ends: the seek key has unique number zero, the lower check excludes its bound, and
a store with nothing up to `till` is scanned from its last record.
-/

namespace TimeMachine.Client
open TimeMachine.Base TimeMachine.Store
open IDComparator hiding compare

/-- A store in chronological order. -/
structure Chronological (entries : ColumnFamily) : Prop where
  dated : ∀ e ∈ entries, Dated e.1
  sorted : entries.Pairwise (fun a b ↦ LexLt (deserializeID a.1) (deserializeID b.1))

instance Chronological.decidable (entries : ColumnFamily) : Decidable (Chronological entries) :=
  decidable_of_iff ((∀ e ∈ entries, e.1.length = 16 ∧ (deserializeID e.1).timestamp ≠ 0) ∧
      entries.Pairwise (fun a b ↦ LexLt (deserializeID a.1) (deserializeID b.1)))
    ⟨fun h ↦ ⟨h.1, h.2⟩, fun h ↦ ⟨h.dated, h.sorted⟩⟩

/-- A store of dated keys in the order of the comparator is in chronological order. -/
theorem chronological_of_kept {entries : ColumnFamily}
    (h : OrderedStore.Kept IDComparator.compare Dated entries) : Chronological entries := by
  refine ⟨h.keys, h.sorted.imp_of_mem ?_⟩
  intro a b ha hb hab
  exact (compare_neg_iff_lexLt (h.keys a ha) (h.keys b hb)).mp hab

/-- The key of an entry is not after the start of a timestamp. -/
def AtMost (t : UInt64) (e : Slice × Bytes) : Prop :=
  entryTs e < t ∨ (entryTs e = t ∧ (deserializeID e.1).unique = 0)

instance AtMost.decidable (t : UInt64) (e : Slice × Bytes) : Decidable (AtMost t e) :=
  inferInstanceAs (Decidable (entryTs e < t ∨ (entryTs e = t ∧ (deserializeID e.1).unique = 0)))

/-- On dated keys, not comparing after the key of a timestamp means to be at most at it. -/
theorem compare_start_iff {e : Slice × Bytes} (he : Dated e.1) {t : UInt64} (ht : t ≠ 0) :
    IDComparator.compare e.1 (serializeID { timestamp := t }) ≤ 0 ↔ AtMost t e := by
  have hpos := compare_pos_iff e.1 (serializeID { timestamp := t })
  rw [deserializeID_serializeID, Before, if_neg (by simp [ht, he.2])] at hpos
  rw [← Int.not_lt, hpos, AtMost, entryTs]
  grind

/-- The requested range, both ends included; zero leaves the upper end open. -/
def InRange (request : RangeRequest) (e : Slice × Bytes) : Prop :=
  request.from' ≤ entryTs e ∧ (request.till = 0 ∨ entryTs e ≤ request.till)

instance InRange.decidable (request : RangeRequest) (e : Slice × Bytes) :
    Decidable (InRange request e) :=
  inferInstanceAs (Decidable (request.from' ≤ entryTs e ∧
    (request.till = 0 ∨ entryTs e ≤ request.till)))

/-- What a reverse scan reaches going back from where it starts. -/
def Reached (request : RangeRequest) (entries : ColumnFamily) (e : Slice × Bytes) : Prop :=
  (request.till = 0 ∨ AtMost request.till e ∨ ∀ d ∈ entries, ¬ AtMost request.till d) ∧
    (request.from' = 0 ∨ request.from' < entryTs e)

instance Reached.decidable (request : RangeRequest) (entries : ColumnFamily)
    (e : Slice × Bytes) : Decidable (Reached request entries e) :=
  inferInstanceAs (Decidable (_ ∧ _))

namespace RangeRequest

/-- Over entries whose timestamps do not decrease, a forward loop selects the range. -/
theorem selected_forward {request : RangeRequest} (hr : request.reverse = false)
    {l : ColumnFamily} (hl : l.Pairwise (fun a b ↦ entryTs a ≤ entryTs b)) :
    request.selected l = l.filter (InRange request) := by
  induction l with
  | nil => rfl
  | cons e rest ih =>
    obtain ⟨he, hrest⟩ := List.pairwise_cons.mp hl
    rw [selected]
    by_cases hlate : request.till ≠ 0 ∧ request.till < entryTs e
    · have hnone : (e :: rest).filter (InRange request) = [] := by
        rw [List.filter_eq_nil_iff]
        intro d hd
        have hed : entryTs e ≤ entryTs d := by
          rcases List.mem_cons.mp hd with rfl | hd
          · exact UInt64.le_refl _
          · exact he d hd
        simp only [InRange]
        grind
      rw [if_pos ⟨hr, hlate⟩, hnone]
    · rw [if_neg (fun h ↦ hlate h.2), if_neg (by simp [hr]), ih hrest]
      by_cases hskip : request.from' > entryTs e
      · rw [if_pos ⟨hr, hskip⟩, List.filter_cons_of_neg]
        simp only [InRange]
        grind
      · rw [if_neg (fun h ↦ hskip h.2), List.filter_cons_of_pos]
        simp only [InRange]
        grind

/-- Over entries whose timestamps do not increase, a reverse loop selects those above the lower
bound. -/
theorem selected_reverse {request : RangeRequest} (hr : request.reverse = true)
    {l : ColumnFamily} (hl : l.Pairwise (fun a b ↦ entryTs b ≤ entryTs a)) :
    request.selected l =
      l.filter (fun e ↦ request.from' = 0 ∨ request.from' < entryTs e) := by
  induction l with
  | nil => rfl
  | cons e rest ih =>
    obtain ⟨he, hrest⟩ := List.pairwise_cons.mp hl
    rw [selected, if_neg (by simp [hr])]
    by_cases hearly : request.from' ≠ 0 ∧ request.from' ≥ entryTs e
    · have hnone : (e :: rest).filter
          (fun e ↦ request.from' = 0 ∨ request.from' < entryTs e) = [] := by
        rw [List.filter_eq_nil_iff]
        intro d hd
        have hed : entryTs d ≤ entryTs e := by
          rcases List.mem_cons.mp hd with rfl | hd
          · exact UInt64.le_refl _
          · exact he d hd
        simp only [decide_eq_true_eq]
        grind
      rw [if_pos ⟨hr, hearly⟩, hnone]
    · rw [if_neg (fun h ↦ hearly h.2), if_neg (by simp [hr]), ih hrest, List.filter_cons_of_pos]
      simp only [decide_eq_true_eq]
      grind

end RangeRequest

namespace Chronological
variable {entries : ColumnFamily}

/-- Timestamps do not decrease. -/
theorem ts_sorted (h : Chronological entries) :
    entries.Pairwise (fun a b ↦ entryTs a ≤ entryTs b) := by
  refine h.sorted.imp ?_
  rintro a b (hlt | ⟨heq, -⟩)
  · exact UInt64.le_of_lt hlt
  · exact UInt64.le_of_eq heq

/-- The last record has the greatest timestamp. -/
theorem exists_last (h : Chronological entries) (hne : entries ≠ []) :
    ∃ before last, entries = before ++ [last] ∧ ∀ e ∈ entries, entryTs e ≤ entryTs last := by
  obtain ⟨before, last, rfl⟩ := (List.eq_nil_or_concat' entries).resolve_left hne
  refine ⟨before, last, rfl, fun e he ↦ ?_⟩
  rcases List.mem_append.mp he with he | he
  · exact (List.pairwise_append.mp h.ts_sorted).2.2 e he last List.mem_cons_self
  · exact UInt64.le_of_eq (congrArg entryTs (List.mem_singleton.mp he))

/-- The keys at most at a timestamp come first. -/
theorem atMost_first (h : Chronological entries) (t : UInt64) :
    entries.Pairwise (fun a b ↦ AtMost t b → AtMost t a) := by
  refine h.sorted.imp ?_
  intro a b hab hb
  simp only [AtMost, entryTs, LexLt] at hab hb ⊢
  grind

/-- The records of a store are distinct. -/
theorem record_inj (h : Chronological entries) (pb : Protobuf) {d e : Slice × Bytes}
    (hd : d ∈ entries) (he : e ∈ entries) (heq : entryRecord pb d = entryRecord pb e) : d = e := by
  have hsorted : entries.Pairwise
      (fun a b ↦ deserializeID a.1 ≠ deserializeID b.1 ∧ deserializeID b.1 ≠ deserializeID a.1) := by
    refine h.sorted.imp ?_
    intro a b hab
    refine ⟨fun hid ↦ lexLt_irrefl _ (hid ▸ hab), fun hid ↦ lexLt_irrefl _ (hid ▸ hab)⟩
  have hid : deserializeID d.1 = deserializeID e.1 := congrArg Prod.fst heq
  exact List.Pairwise.forall_of_forall_of_flip
    (R := fun a b ↦ deserializeID a.1 = deserializeID b.1 → a = b) (fun a _ _ ↦ rfl)
    (hsorted.imp fun hab hid ↦ absurd hid hab.1) (hsorted.imp fun hab hid ↦ absurd hid hab.2)
    hd he hid

/-- A record of the store is among the records of some entries if its entry is. -/
theorem record_mem_iff (h : Chronological entries) (pb : Protobuf) {l : ColumnFamily}
    (hl : l ⊆ entries) {e : Slice × Bytes} (he : e ∈ entries) :
    entryRecord pb e ∈ l.map (entryRecord pb) ↔ e ∈ l := by
  constructor
  · intro hm
    obtain ⟨d, hd, heq⟩ := List.mem_map.mp hm
    exact h.record_inj pb (hl hd) he heq ▸ hd
  · exact List.mem_map_of_mem

/-- A forward seek passes over entries before the range only. -/
theorem seek_forward (h : Chronological entries) {request : RangeRequest}
    (hr : request.reverse = false) :
    ∃ before, entries = before ++ Cursor.ahead false (DbClient.seek request entries) ∧
      ∀ e ∈ before, entryTs e < request.from' := by
  by_cases hfrom : request.from' = 0
  · refine ⟨[], ?_, by simp⟩
    rw [DbClient.seek, if_pos ⟨hr, hfrom⟩, Cursor.ahead_seekToFirst, List.nil_append]
  · rw [DbClient.seek, if_neg (fun hc ↦ hfrom hc.2), if_neg (by simp [hr]), if_pos hr]
    cases hp : DbClient.seekForPrev (serializeID (DbClient.keyFrom request)) entries with
    | none =>
      refine ⟨[], ?_, by simp⟩
      rw [Option.none_or, Cursor.ahead_seekToFirst, List.nil_append]
    | some p =>
      obtain ⟨hsplit, hcur, -⟩ := Cursor.seekForPrev_eq_some hp
      refine ⟨p.before.reverse, hsplit, ?_⟩
      intro e he
      have hmem : p.current ∈ entries := by
        rw [hsplit]
        simp
      rw [DbClient.keyFrom, if_pos hr] at hcur
      have hat : AtMost request.from' p.current :=
        (compare_start_iff (h.dated _ hmem) hfrom).mp (by simpa using hcur)
      have hpair := h.sorted
      rw [hsplit] at hpair
      have hlt := (List.pairwise_append.mp hpair).2.2 e he p.current List.mem_cons_self
      simp only [AtMost, entryTs, LexLt] at hat hlt ⊢
      grind

/-- A forward scan selects exactly the requested range. -/
theorem selected_forward (h : Chronological entries) {request : RangeRequest}
    (hr : request.reverse = false) :
    request.selected (Cursor.ahead false (DbClient.seek request entries)) =
      entries.filter (InRange request) := by
  obtain ⟨before, hsplit, hbefore⟩ := h.seek_forward hr
  have hts := h.ts_sorted
  rw [hsplit] at hts
  rw [RangeRequest.selected_forward hr (List.pairwise_append.mp hts).2.1]
  conv_rhs => rw [hsplit]
  have hnone : before.filter (InRange request) = [] := by
    rw [List.filter_eq_nil_iff]
    intro e he
    have := hbefore e he
    simp only [InRange]
    grind
  rw [List.filter_append, hnone, List.nil_append]

/-- Seeking for a timestamp finds no entry exactly if none is at most at it. -/
theorem seekForPrev_eq_none_iff (h : Chronological entries) {t : UInt64} (ht : t ≠ 0) :
    DbClient.seekForPrev (serializeID { timestamp := t }) entries = none ↔
      ∀ d ∈ entries, ¬ AtMost t d := by
  rw [DbClient.seekForPrev, Cursor.seekForPrev_eq_none_iff]
  refine forall₂_congr fun d hd ↦ ?_
  rw [decide_eq_false_iff_not, compare_start_iff (h.dated d hd) ht]

/-- Going back from a seek for a timestamp visits the entries at most at it. -/
theorem ahead_seekForPrev (h : Chronological entries) {t : UInt64} (ht : t ≠ 0) :
    Cursor.ahead true (DbClient.seekForPrev (serializeID { timestamp := t }) entries) =
      (entries.filter (AtMost t)).reverse := by
  rw [DbClient.seekForPrev, Cursor.ahead_seekForPrev_of_first]
  · congr 1
    refine List.filter_congr fun d hd ↦ ?_
    exact decide_eq_decide.mpr (compare_start_iff (h.dated d hd) ht)
  · refine (h.atMost_first t).imp_of_mem ?_
    intro a b ha hb hab
    rw [decide_eq_true_iff, decide_eq_true_iff, compare_start_iff (h.dated a ha) ht,
      compare_start_iff (h.dated b hb) ht]
    exact hab

/-- A reverse seek starts at the last entry that is at most at `till`, or at the very last. -/
theorem seek_reverse (h : Chronological entries) {request : RangeRequest}
    (hr : request.reverse = true) :
    Cursor.ahead true (DbClient.seek request entries) =
      (entries.filter fun e ↦ request.till = 0 ∨ AtMost request.till e ∨
        ∀ d ∈ entries, ¬ AtMost request.till d).reverse := by
  rw [DbClient.seek, if_neg (by simp [hr])]
  by_cases htill : request.till = 0
  · rw [if_pos ⟨hr, htill⟩, Cursor.ahead_seekToLast, List.filter_eq_self.mpr]
    intro e _
    exact decide_eq_true (Or.inl htill)
  · rw [if_neg (fun hc ↦ htill hc.2), if_neg (by simp [hr]), DbClient.keyFrom,
      if_neg (by simp [hr])]
    by_cases hnone : ∀ d ∈ entries, ¬ AtMost request.till d
    · rw [(h.seekForPrev_eq_none_iff htill).mpr hnone, Option.none_or, Cursor.ahead_seekToLast,
        List.filter_eq_self.mpr]
      intro e _
      exact decide_eq_true (Or.inr (Or.inr hnone))
    · have hvalid := mt (h.seekForPrev_eq_none_iff htill).mp hnone
      rw [Option.or_of_isSome (Option.isSome_iff_ne_none.mpr hvalid), h.ahead_seekForPrev htill]
      congr 1
      refine List.filter_congr fun e _ ↦ decide_eq_decide.mpr ?_
      exact ⟨fun hat ↦ Or.inr (Or.inl hat), fun hor ↦ (hor.resolve_left htill).resolve_right hnone⟩

/-- A reverse scan selects, backwards, what it reaches. -/
theorem selected_reverse (h : Chronological entries) {request : RangeRequest}
    (hr : request.reverse = true) :
    request.selected (Cursor.ahead true (DbClient.seek request entries)) =
      (entries.filter (Reached request entries)).reverse := by
  rw [h.seek_reverse hr, RangeRequest.selected_reverse hr]
  · rw [List.filter_reverse, List.filter_filter]
    congr 1
    refine List.filter_congr fun e _ ↦ ?_
    simp only [Reached]
    grind
  · exact List.pairwise_reverse.mpr (h.ts_sorted.filter _)

/-- A forward scan emits from the range. -/
theorem scan_forward (h : Chronological entries) (pb : Protobuf) (fn : Callback)
    {request : RangeRequest} (hr : request.reverse = false) :
    DbClient.scan pb request fn entries =
      request.emitted fn 0 0 ((entries.filter (InRange request)).map (entryRecord pb)) := by
  rw [DbClient.scan, DbClient.iterLoop_eq, hr, h.selected_forward hr]

/-- A reverse scan emits, backwards, from what it reaches. -/
theorem scan_reverse (h : Chronological entries) (pb : Protobuf) (fn : Callback)
    {request : RangeRequest} (hr : request.reverse = true) :
    DbClient.scan pb request fn entries = request.emitted fn 0 0
      ((entries.filter (Reached request entries)).reverse.map (entryRecord pb)) := by
  rw [DbClient.scan, DbClient.iterLoop_eq, hr, h.selected_reverse hr]

end Chronological
end TimeMachine.Client
