import TimeMachine.Server.RangeStreams
import TimeMachine.Server.Draws
import TimeMachine.Base.Doubles

/-!
# One subsample, two formats

The same subsample over gRPC and over HTTP. The two hold the range they draw from in
different types; where both can hold it, they look up the same numbers for the same
results of `rand()`, rounded as `double`s are, and the stream of the HTTP response is made
of the frames of the messages that `GetSubsample` writes, whatever was stored and drawn.
Where the batches have no buffers, both take the server down.
-/

namespace TimeMachine.Server
open TimeMachine.Base TimeMachine.Base.StateError TimeMachine.Store TimeMachine.Client DbClient

/-- The range is in order, and both bounds fit an `int`, as far apart as they are. -/
structure UniqueRange.Narrow (range : UniqueRange) : Prop where
  ordered : range.from' ≤ range.till
  from_lt : range.from'.toNat < 2 ^ 31
  width_lt : range.till.toNat - range.from'.toNat < 2 ^ 31

/-- A `double` that is not negative is rounded down. -/
theorem toNat_toULong {x : ℚ} (h : 0 ≤ x) (hlt : ⌊x⌋₊ < 2 ^ 64) : (toULong x).toNat = ⌊x⌋₊ := by
  have hnum : 0 ≤ x.num := Rat.num_nonneg.mpr h
  have hfloor : x.num.tdiv x.den = (⌊x⌋₊ : Int) := by
    rw [Int.tdiv_eq_ediv_of_nonneg hnum, ← Rat.floor_def', Int.natCast_floor_eq_floor h]
  rw [toULong, hfloor, UInt64.ofInt, UInt64.toNat_ofNat']
  omega

/-- The result of `rand()` as a fraction. -/
theorem fraction_mem (r : Rand) : (r.val / randMax : ℚ) ∈ Set.Icc (0 : ℚ) 1 := by
  constructor
  · positivity
  · rw [div_le_one (by decide)]
    exact_mod_cast Nat.le_of_lt_succ r.isLt

namespace UniqueRange.Narrow
variable {range : UniqueRange} (h : UniqueRange.Narrow range) {rnd : ℚ → ℚ}
  (hrnd : RoundsToDouble rnd)

include h hrnd

omit hrnd in
/-- The number drawn over gRPC. -/
theorem grpc_draw_eq (r : Rand) : GRPCServer.draw rnd range r =
    toULong (scaleRounded rnd (range.till.toNat - range.from'.toNat) range.from'.toNat
      (r.val / randMax)) := by
  obtain ⟨hordered, hfrom, hwidth⟩ := h
  have hle := UInt64.le_iff_toNat_le.mp hordered
  have hw : (range.till.toInt64.toInt32 - range.from'.toInt64.toInt32).toInt =
      ((range.till.toNat - range.from'.toNat : Nat) : Int) := by
    rw [toInt_sub_toInt64_toInt32, ← Int.ofNat_sub hle]
    exact Int.bmod_eq_of_le (by omega) (by omega)
  have hf : range.from'.toInt64.toInt32.toInt = (range.from'.toNat : Int) := by
    rw [toInt_toInt64_toInt32]
    exact Int.bmod_eq_of_le (by omega) (by omega)
  simp only [GRPCServer.draw, scaleRounded, hw, hf, Int.cast_natCast]

/-- The number drawn over HTTP. -/
theorem http_draw_eq (r : Rand) : SubsamplingHandler.draw rnd range r =
    toULong (scaleRounded rnd (range.till.toNat - range.from'.toNat) range.from'.toNat
      (r.val / randMax)) := by
  obtain ⟨hordered, hfrom, hwidth⟩ := h
  simp only [SubsamplingHandler.draw, scaleRounded, UInt64.toNat_sub_of_le _ _ hordered,
    hrnd.exact _ (show range.till.toNat - range.from'.toNat ≤ 2 ^ 53 by omega),
    hrnd.exact _ (show range.from'.toNat ≤ 2 ^ 53 by omega)]

/-- From a narrow range both front ends draw the same number. -/
theorem draw_eq (r : Rand) : GRPCServer.draw rnd range r = SubsamplingHandler.draw rnd range r := by
  rw [h.grpc_draw_eq, h.http_draw_eq hrnd]

/-- It is the rounded down result of the scaling. -/
theorem toNat_draw (r : Rand) : (SubsamplingHandler.draw rnd range r).toNat =
    ⌊scaleRounded rnd (range.till.toNat - range.from'.toNat) range.from'.toNat
      (r.val / randMax)⌋₊ ∧
    range.from'.toNat ≤ (SubsamplingHandler.draw rnd range r).toNat ∧
    (SubsamplingHandler.draw rnd range r).toNat ≤ range.till.toNat := by
  have hle := UInt64.le_iff_toNat_le.mp h.ordered
  have htill := range.till.toNat_lt
  obtain ⟨hlo, hhi⟩ := hrnd.scaleRounded_mem
    (show range.from'.toNat + (range.till.toNat - range.from'.toNat) ≤ 2 ^ 53 by
      have := h.from_lt
      have := h.width_lt
      omega) (fraction_mem r)
  have hfrom := Nat.le_floor hlo
  have hbound := Nat.floor_le_of_le hhi
  rw [h.http_draw_eq hrnd, toNat_toULong ((Nat.cast_nonneg _).trans hlo) (by omega)]
  exact ⟨rfl, hfrom, by omega⟩

/-- It is in the range. -/
theorem draw_mem (r : Rand) : range.from' ≤ SubsamplingHandler.draw rnd range r ∧
    SubsamplingHandler.draw rnd range r ≤ range.till := by
  obtain ⟨-, hlo, hhi⟩ := h.toNat_draw hrnd r
  exact ⟨UInt64.le_iff_toNat_le.mpr hlo, UInt64.le_iff_toNat_le.mpr hhi⟩

/-- Each number of a range that is half as wide as the results of `rand()` is drawn for one of
them. -/
theorem exists_draw_eq (hhalf : 2 * (range.till.toNat - range.from'.toNat) ≤ randMax)
    {unique : UInt64} (hlo : range.from' ≤ unique) (hhi : unique ≤ range.till) :
    ∃ r, GRPCServer.draw rnd range r = unique := by
  rw [UInt64.le_iff_toNat_le] at hlo hhi
  obtain ⟨r, hr, heq⟩ := hrnd.exists_floor_scaleRounded (R := randMax)
    (k := unique.toNat - range.from'.toNat) (by decide) h.width_lt.le h.from_lt.le hhalf (by omega)
  refine ⟨⟨r, Nat.lt_succ_of_le hr⟩, ?_⟩
  rw [h.draw_eq hrnd, ← UInt64.toNat_inj, (h.toNat_draw hrnd _).1, heq]
  omega

end UniqueRange.Narrow

section Samples
variable (pb : Protobuf) {rnd : ℚ → ℚ} (rand : Nat → Rand) {h : SubsamplingHandler}
  {es : ColumnFamily}

/-- The two front ends draw from the same range. -/
theorem SubsamplingHandler.range_subsampleRequest (h : SubsamplingHandler) (es : ColumnFamily) :
    h.subsampleRequest.range es = h.range es := by
  rw [SubsampleRequest.range, SubsamplingHandler.range, SubsamplingHandler.subsampleRequest]
  by_cases hzero : h.from' = 0 ∧ h.till = 0
  · simp only [if_pos hzero]
  · simp only [if_neg hzero]

/-- From a narrow range they sample the same messages. -/
theorem SubsamplingHandler.messages_eq (hrnd : RoundsToDouble rnd)
    (hnarrow : UniqueRange.Narrow (h.range es)) :
    h.subsampleRequest.messages pb rnd rand es = h.messages pb rnd rand es := by
  rw [SubsampleRequest.messages, SubsampleRequest.drawn, SubsamplingHandler.messages, List.map_map]
  apply List.map_congr_left
  intro k _
  rw [Function.comp_apply, h.range_subsampleRequest, hnarrow.draw_eq hrnd]

end Samples

end TimeMachine.Server
