import TimeMachine.Client.Bounds
import TimeMachine.Store.Wire

/-!
# Forward and reverse range scans

On a store in chronological order a forward scan passes on the longest prefix of the
requested range that its limits allow. A reverse scan of the same bounds is neither
the opposite of it nor always inside them: these results say on which stores it is.
-/

namespace TimeMachine.Client
open TimeMachine.Base TimeMachine.Store

/-- The bytes the callback reports for a record; the flag it is given is never set. -/
def Callback.size (fn : Callback) (r : ID × Data) : Nat := (fn r.1 r.2 false).toNat

/-- The stored records in the requested range, in chronological order. -/
def rangeRecords (pb : Protobuf) (request : RangeRequest) (entries : ColumnFamily) :
    List (ID × Data) :=
  (entries.filter (InRange request)).map (entryRecord pb)

/-- Of a sequence the longest prefix is emitted whose records all come after fewer than
`maxmessages` others, and after others of less than `maxbytes` in total. -/
theorem RangeRequest.emitted_longest (request : RangeRequest) (fn : Callback)
    (l : List (ID × Data)) (hbytes : request.maxbytes ≠ 0 → (l.map fn.size).sum < 2 ^ 64) :
    LongestPrefix (fun i ↦
        (request.maxmessages ≠ 0 → i < request.maxmessages.toNat) ∧
        (request.maxbytes ≠ 0 → ((l.take i).map fn.size).sum < request.maxbytes.toNat))
      (request.emitted fn 0 0 l) l := by
  have hlimit : request.emitted fn 0 0 l = Quota.limit request.admits fn.size 0 0 l := by
    refine request.emitted_eq_limit fn 0 0 0 0 _ (fun _ ↦ rfl) (fun hm ↦ ⟨rfl, ?_⟩)
    rw [Nat.zero_add]
    exact hbytes hm
  have hlongest := Quota.limit_longest request.admits fn.size 0 0 l
  simp only [RangeRequest.admits, Nat.zero_add, decide_eq_true_eq] at hlongest
  rw [hlimit]
  exact hlongest

namespace DbClient

/-- A forward scan of a store in chronological order passes on the longest prefix of the
requested range whose records all come after fewer than `maxmessages` others, and after
others of less than `maxbytes` in total. -/
theorem scan_forward_longest (pb : Protobuf) (fn : Callback) {entries : ColumnFamily}
    (h : Chronological entries) (request : RangeRequest) (hr : request.reverse = false)
    (hbytes : request.maxbytes ≠ 0 →
      ((rangeRecords pb request entries).map fn.size).sum < 2 ^ 64) :
    LongestPrefix (fun i ↦
        (request.maxmessages ≠ 0 → i < request.maxmessages.toNat) ∧
        (request.maxbytes ≠ 0 → (((rangeRecords pb request entries).take i).map fn.size).sum <
          request.maxbytes.toNat))
      (scan pb request fn entries) (rangeRecords pb request entries) := by
  rw [h.scan_forward pb fn hr]
  exact request.emitted_longest fn _ hbytes

/-- A scan of two records stops at its limit of one. -/
theorem scan_forward_longest_two :
    scan Wire.wire { from' := 1, maxmessages := 1 } (fun _ _ _ ↦ 20)
        [(serializeID ⟨5, 0⟩, []), (serializeID ⟨7, 1⟩, [])] <+:
      rangeRecords Wire.wire { from' := 1, maxmessages := 1 }
        [(serializeID ⟨5, 0⟩, []), (serializeID ⟨7, 1⟩, [])] :=
  (scan_forward_longest Wire.wire (fun _ _ _ ↦ 20) (by decide)
    { from' := 1, maxmessages := 1 } rfl (fun h ↦ absurd rfl h)).isPrefix

/-- The records of a store, in chronological order. -/
def allRecords (pb : Protobuf) (entries : ColumnFamily) : List (ID × Data) :=
  entries.map (entryRecord pb)

/-- A reverse scan without bounds passes on records from the newest back, and these are the
longest suffix of the store whose records all come before fewer than `maxmessages` newer ones,
and before newer ones of less than `maxbytes` in total. -/
theorem scan_newest (pb : Protobuf) (fn : Callback) {entries : ColumnFamily}
    (h : Chronological entries) (request : RangeRequest) (hr : request.reverse = true)
    (hfrom : request.from' = 0) (htill : request.till = 0) :
    (scan pb request fn entries).Pairwise (fun a b ↦ IDComparator.LexLt b.1 a.1) ∧
    ((request.maxbytes ≠ 0 → ((allRecords pb entries).map fn.size).sum < 2 ^ 64) →
      LongestSuffix (fun i ↦
          (request.maxmessages ≠ 0 → i < request.maxmessages.toNat) ∧
          (request.maxbytes ≠ 0 → (((allRecords pb entries).reverse.take i).map fn.size).sum <
            request.maxbytes.toNat))
        (scan pb request fn entries).reverse (allRecords pb entries)) := by
  have hall : entries.filter (Reached request entries) = entries := by
    rw [List.filter_eq_self]
    exact fun e _ ↦ decide_eq_true ⟨Or.inl htill, Or.inl hfrom⟩
  rw [h.scan_reverse pb fn hr, hall, List.map_reverse]
  change (request.emitted fn 0 0 (allRecords pb entries).reverse).Pairwise _ ∧ _
  refine ⟨?_, fun hbytes ↦ (request.emitted_longest fn _ fun hm ↦ ?_).reverse⟩
  · refine List.Pairwise.sublist (request.emitted_prefix fn 0 0 _).sublist ?_
    rw [List.pairwise_reverse, allRecords, List.pairwise_map]
    exact h.sorted
  · rw [List.map_reverse, List.sum_reverse]
    exact hbytes hm

/-- Of three records the newest two. -/
theorem scan_newest_two :
    (scan Wire.wire { reverse := true, maxmessages := 2 } (fun _ _ _ ↦ 20)
        [(serializeID ⟨5, 0⟩, []), (serializeID ⟨7, 1⟩, []), (serializeID ⟨7, 2⟩, [])]).Pairwise
        (fun a b ↦ IDComparator.LexLt b.1 a.1) ∧
      (scan Wire.wire { reverse := true, maxmessages := 2 } (fun _ _ _ ↦ 20)
          [(serializeID ⟨5, 0⟩, []), (serializeID ⟨7, 1⟩, []), (serializeID ⟨7, 2⟩, [])]).reverse <:+
        allRecords Wire.wire
          [(serializeID ⟨5, 0⟩, []), (serializeID ⟨7, 1⟩, []), (serializeID ⟨7, 2⟩, [])] := by
  have hstore : Chronological
      [(serializeID ⟨5, 0⟩, []), (serializeID ⟨7, 1⟩, []), (serializeID ⟨7, 2⟩, [])] := by decide
  obtain ⟨hsorted, hlongest⟩ := scan_newest Wire.wire (fun _ _ _ ↦ 20) hstore
    { reverse := true, maxmessages := 2 } rfl rfl rfl
  exact ⟨hsorted, (hlongest (fun h ↦ absurd rfl h)).isSuffix⟩

/-- The request for both directions of a range without limits. -/
def bounds (from' till : UInt64) (folder : String) (reverse : Bool) : RangeRequest :=
  { from', till, folder, reverse }

/-- Every record of the first sequence is in the second, and the common records are in the
opposite order there. -/
def Reverses (forward backward : List (ID × Data)) : Prop :=
  (∀ r ∈ forward, r ∈ backward) ∧
    forward.filter (· ∈ backward) = (backward.filter (· ∈ forward)).reverse

private theorem reverses_iff (pb : Protobuf) {entries : ColumnFamily} (h : Chronological entries)
    (p q : Slice × Bytes → Bool) :
    Reverses ((entries.filter p).map (entryRecord pb))
        ((entries.filter q).reverse.map (entryRecord pb)) ↔
      ∀ e ∈ entries, p e = true → q e = true := by
  have hmemq : ∀ e ∈ entries,
      entryRecord pb e ∈ (entries.filter q).reverse.map (entryRecord pb) ↔ q e = true := by
    intro e he
    rw [h.record_mem_iff pb (fun d hd ↦ (List.mem_filter.mp (List.mem_reverse.mp hd)).1) he,
      List.mem_reverse, List.mem_filter]
    exact and_iff_right he
  have hmemp : ∀ e ∈ entries,
      entryRecord pb e ∈ (entries.filter p).map (entryRecord pb) ↔ p e = true := by
    intro e he
    rw [h.record_mem_iff pb (fun d hd ↦ (List.mem_filter.mp hd).1) he, List.mem_filter]
    exact and_iff_right he
  constructor
  · rintro ⟨hsub, -⟩ e he hp
    exact (hmemq e he).mp (hsub _ ((hmemp e he).mpr hp))
  · intro hall
    constructor
    · intro r hr
      obtain ⟨e, he, rfl⟩ := List.mem_map.mp hr
      obtain ⟨he, hp⟩ := List.mem_filter.mp he
      exact (hmemq e he).mpr (hall e he hp)
    · rw [List.filter_map, List.filter_map, ← List.map_reverse, List.filter_reverse,
        List.reverse_reverse, List.filter_filter, List.filter_filter]
      congr 1
      refine List.filter_congr fun e he ↦ ?_
      simp only [Function.comp_apply, hmemq e he, hmemp e he]
      grind

/-- Without limits, a reverse scan emits every record of the forward scan, and in the opposite
order, exactly if no record in the range is at `from`, and none at `till` either, unless its
unique number is zero or no stored key is at most at `till`. -/
theorem reverse_covers_forward_iff (pb : Protobuf) (fn fn' : Callback) {entries : ColumnFamily}
    (h : Chronological entries) (from' till : UInt64) (folder : String) :
    Reverses (scan pb (bounds from' till folder false) fn entries)
        (scan pb (bounds from' till folder true) fn' entries) ↔
      ∀ e ∈ entries, from' ≤ entryTs e → (till = 0 ∨ entryTs e ≤ till) →
        (from' = 0 ∨ entryTs e ≠ from') ∧
        (till = 0 ∨ entryTs e ≠ till ∨ (deserializeID e.1).unique = 0 ∨
          ∀ d ∈ entries, till < entryTs d ∨
            (entryTs d = till ∧ (deserializeID d.1).unique ≠ 0)) := by
  have hafter (d : Slice × Bytes) : ¬ AtMost till d ↔
      till < entryTs d ∨ (entryTs d = till ∧ (deserializeID d.1).unique ≠ 0) := by
    rw [AtMost]
    grind
  rw [h.scan_forward pb fn rfl, h.scan_reverse pb fn' rfl,
    RangeRequest.emitted_of_no_limits rfl rfl, RangeRequest.emitted_of_no_limits rfl rfl,
    reverses_iff pb h]
  refine forall₂_congr fun e _ ↦ ?_
  rw [decide_eq_true_iff, decide_eq_true_iff]
  simp only [InRange, Reached, bounds, hafter, and_imp]
  refine forall₂_congr fun hlo hhi ↦ ?_
  rw [AtMost]
  generalize (∀ d ∈ entries, till < entryTs d ∨
    (entryTs d = till ∧ (deserializeID d.1).unique ≠ 0)) = none
  grind

/-- A store with one record of another time is reversed in full. -/
theorem reverse_covers_forward_one :
    Reverses
      (scan Wire.wire (bounds 2 9 "f" false) (fun _ _ _ ↦ 0) [(serializeID ⟨5, 1⟩, [])])
      (scan Wire.wire (bounds 2 9 "f" true) (fun _ _ _ ↦ 0) [(serializeID ⟨5, 1⟩, [])]) :=
  (reverse_covers_forward_iff Wire.wire (fun _ _ _ ↦ 0) (fun _ _ _ ↦ 0) (by decide) 2 9 "f").mpr
    (by decide)

/-- The range from 3 to 5 over the records (3, 0) and (5, 1): forwards both are emitted,
backwards neither. -/
theorem reverse_drops_ends :
    ¬ ∀ (pb : Protobuf) (fn : Callback) (entries : ColumnFamily) (from' till : UInt64),
      Chronological entries →
        Reverses (scan pb (bounds from' till "f" false) fn entries)
          (scan pb (bounds from' till "f" true) fn entries) := by
  intro hall
  have hstore : Chronological [(serializeID ⟨3, 0⟩, []), (serializeID ⟨5, 1⟩, [])] := by decide
  have hsub := (hall Wire.wire (fun _ _ _ ↦ 0) _ 3 5 hstore).1
  rw [hstore.scan_forward Wire.wire _ rfl, hstore.scan_reverse Wire.wire _ rfl] at hsub
  revert hsub
  decide

/-- The records a reverse scan emits are all inside the bounds of the request. -/
def Inside (request : RangeRequest) (emitted : List (ID × Data)) : Prop :=
  ∀ r ∈ emitted, r.1.timestamp ≤ request.till ∧ request.from' ≤ r.1.timestamp

/-- A reverse scan with an upper bound stays inside its bounds exactly if some stored key is at
most at `till`, or no record is after `till`, or none is after a lower bound. -/
theorem reverse_inside_iff (pb : Protobuf) (fn : Callback) {entries : ColumnFamily}
    (h : Chronological entries) (request : RangeRequest) (hr : request.reverse = true)
    (htill : request.till ≠ 0) :
    Inside request (scan pb request fn entries) ↔
      (∃ e ∈ entries, entryTs e < request.till ∨
        (entryTs e = request.till ∧ (deserializeID e.1).unique = 0)) ∨
      (∀ e ∈ entries, entryTs e ≤ request.till) ∨
      (request.from' ≠ 0 ∧ ∀ e ∈ entries, entryTs e ≤ request.from') := by
  rw [h.scan_reverse pb fn hr]
  constructor
  · intro hinside
    by_contra hnone
    push Not at hnone
    obtain ⟨hkeys, ⟨late, hlate, htill'⟩, hfrom⟩ := hnone
    -- the scan starts at the last record, which is after `till`
    obtain ⟨before, last, hsplit, hmax⟩ := h.exists_last (List.ne_nil_of_mem hlate)
    have hreached : Reached request entries last := by
      constructor
      · refine Or.inr (Or.inr fun d hd hat ↦ ?_)
        rcases hat with hlt | ⟨heq, hz⟩
        · exact (hkeys d hd).1 hlt
        · exact (hkeys d hd).2 heq hz
      · by_cases hz : request.from' = 0
        · exact Or.inl hz
        · obtain ⟨e, he, hgt⟩ := hfrom hz
          exact Or.inr (UInt64.lt_of_lt_of_le (UInt64.not_le.mp hgt) (hmax e he))
    have hfirst : (entries.filter (Reached request entries)).reverse =
        last :: (before.filter (Reached request entries)).reverse := by
      conv_lhs => arg 1; arg 2; rw [hsplit]
      have hlast : [last].filter (Reached request entries) = [last] := by
        simpa using hreached
      rw [List.filter_append, hlast, List.reverse_append, List.reverse_singleton,
        List.singleton_append]
    have hin := (hinside (entryRecord pb last) (by
      rw [hfirst, List.map_cons]
      exact request.mem_emitted_cons fn _ _)).1
    exact htill' (UInt64.le_trans (hmax late hlate) hin)
  · intro hcond r hr'
    obtain ⟨e, he, rfl⟩ := List.mem_map.mp ((request.emitted_prefix fn 0 0 _).subset hr')
    obtain ⟨he, hreached⟩ := List.mem_filter.mp (List.mem_reverse.mp he)
    obtain ⟨hstart, hlow⟩ := of_decide_eq_true hreached
    change entryTs e ≤ request.till ∧ request.from' ≤ entryTs e
    rcases hcond with ⟨d, hd, hat⟩ | hall | ⟨hz, hall⟩
    · have hup := (hstart.resolve_left htill).resolve_right fun hno ↦ hno d hd hat
      rw [AtMost] at hup
      grind
    · have := hall e he
      grind
    · have := hall e he
      grind

/-- A record at most at the upper bound keeps the scan inside. -/
theorem reverse_inside_two :
    Inside { till := 6, reverse := true } (scan Wire.wire { till := 6, reverse := true }
      (fun _ _ _ ↦ 0) [(serializeID ⟨5, 0⟩, []), (serializeID ⟨7, 1⟩, [])]) :=
  (reverse_inside_iff Wire.wire (fun _ _ _ ↦ 0) (by decide) _ rfl (by decide)).mpr
    (by decide)

/-- The range back from 5 over the record (7, 0) alone: the scan starts from it, although it is
after the range. -/
theorem reverse_leaves_range :
    ¬ ∀ (pb : Protobuf) (fn : Callback) (entries : ColumnFamily) (request : RangeRequest),
      Chronological entries → request.reverse = true → request.till ≠ 0 →
        Inside request (scan pb request fn entries) := by
  intro hall
  have hstore : Chronological [(serializeID ⟨7, 0⟩, [])] := by decide
  have hinside := hall Wire.wire (fun _ _ _ ↦ 0) _ { till := 5, reverse := true } hstore rfl
    (by decide)
  rw [hstore.scan_reverse Wire.wire _ rfl] at hinside
  revert hinside
  delta Inside
  decide

end DbClient
end TimeMachine.Client
