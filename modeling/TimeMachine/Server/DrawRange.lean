import TimeMachine.Server.SampledRecords
import TimeMachine.Client.UniqueRanges

/-!
# The range an HTTP subsample draws from

The numbers drawn are computed from the difference of the two bounds, in unsigned
arithmetic, so it matters that they are in order. A bound that is absent from the query
is zero, and a seek for zero ends on number zero: at the lower end that is before all
records, at the upper end too, so a query with a lower bound alone runs backwards.
-/

namespace TimeMachine.Server
open TimeMachine.Base TimeMachine.Base.StateError TimeMachine.Store TimeMachine.Client DbClient

/-- The bounds an HTTP subsample computes for a folder are in order. -/
def SubsamplingHandler.Ordered (s : DbClient) (h : SubsamplingHandler) : Prop :=
  ∃ cf range, (getColumnFamily h.name).run s = .ok (some cf) s ∧
    (SubsamplingHandler.sampledRange h cf).run s = .ok range s ∧ range.from' ≤ range.till

/-- In every state of a server that was started on an empty disk, the bounds of an HTTP subsample
of a folder in use are in order exactly in these cases. Without bounds in the query, the first
record has no larger number than the last one. With a lower bound, the newest record at most at
it has number zero, or there is an upper bound and the newest record at most at that has no
smaller number. With an upper bound only, always. -/
theorem range_ordered_iff (pb : Protobuf) {events : List Event} {client : DbClient}
    (hclient : (Process.down RocksDB.empty).after pb events = .running client)
    {h : SubsamplingHandler} {es : ColumnFamily} (hes : client.records h.name = some es) :
    SubsamplingHandler.Ordered client h ↔
      (h.from' = 0 → h.till = 0 →
        ∀ first ∈ es.head?, ∀ last ∈ es.getLast?, entryUnique first ≤ entryUnique last) ∧
      (h.from' ≠ 0 → ∀ f, Newest es h.from' f → entryUnique f = 0 ∨
        h.till ≠ 0 ∧ ∃ t, Newest es h.till t ∧ entryUnique f ≤ entryUnique t) := by
  have hsound : StoreInvariant pb ((Process.down RocksDB.empty).after pb events).rocks :=
    storeInvariant_after (p := .down RocksDB.empty) storeInvariant_empty events
  rw [hclient] at hsound
  have hchron : Chronological es := chronological_of_kept (stored_of_records hsound hes).kept
  obtain ⟨cf, hcf, hd⟩ := run_of_records hes
  have hrange := run_sampledRangeHTTP hd h
  have hordered : SubsamplingHandler.Ordered client h ↔ (h.range es).from' ≤ (h.range es).till := by
    constructor
    · rintro ⟨cf', range, hcf', hrange', hle⟩
      cases hcf.symm.trans hcf'
      cases hrange.symm.trans hrange'
      exact hle
    · exact fun hle ↦ ⟨cf, _, hcf, hrange, hle⟩
  rw [hordered, SubsamplingHandler.range]
  by_cases htotal : h.from' = 0 ∧ h.till = 0
  · rw [if_pos htotal, uniqueRange_le_iff, imp_iff_right htotal.1, imp_iff_right htotal.2]
    exact (and_iff_left fun hne ↦ absurd htotal.1 hne).symm
  · rw [if_neg htotal, hchron.uniqueRangeForTS_le_iff]
    refine (and_iff_right ?_).symm
    exact fun hfrom htill ↦ absurd ⟨hfrom, htill⟩ htotal

/-- Two records and a query whose lower bound is the timestamp of the first. -/
theorem range_ordered_two :
    ∃ client, (Process.down RocksDB.empty).after Wire.wire
        [.start .localDBClient { now := 1, now_ne_zero := by decide } {},
          .save { now := 2, now_ne_zero := by decide } { folder := "f", timestamp := 5 },
          .save { now := 3, now_ne_zero := by decide } { folder := "f", timestamp := 7 }] =
        .running client ∧
      SubsamplingHandler.Ordered client { name := "f", from' := 5, till := 8 } := by
  obtain ⟨client, hclient, hes⟩ := exists_two_records
  refine ⟨client, hclient, (range_ordered_iff Wire.wire hclient hes).mpr ⟨?_, ?_⟩⟩
  · intro hfrom
    exact absurd hfrom (by decide)
  · rintro - f ⟨hf, hat, -⟩
    left
    revert f
    decide +kernel

/-- Two records and a query with a lower bound alone, after both: the bounds are one and zero. -/
theorem range_runs_backwards :
    ¬ ∀ (pb : Protobuf) (events : List Event) (client : DbClient) (h : SubsamplingHandler)
      (es : ColumnFamily), (Process.down RocksDB.empty).after pb events = .running client →
      client.records h.name = some es → SubsamplingHandler.Ordered client h := by
  intro hall
  obtain ⟨client, hclient, hes⟩ := exists_two_records
  obtain ⟨cf, hcf, hd⟩ := run_of_records hes
  obtain ⟨cf', range, hcf', hrange, hle⟩ :=
    hall Wire.wire _ client { name := "f", from' := 8 } _ hclient hes
  cases hcf.symm.trans hcf'
  cases (run_sampledRangeHTTP hd _).symm.trans hrange
  revert hle
  decide +kernel

end TimeMachine.Server
