import TimeMachine.TsClient.Acceptance
import TimeMachine.Base.Grouping
import Mathlib.Logic.Function.Basic

/-!
# Grouping by timestamp

`decodeTsRecord` merges the records it has read into a `Map` by timestamp and then
returns the records. The result is the grouping of the frames exactly if no two
timestamps are the same number. The `Map` is not the grouping either: it is asked for
its members and given properties, so that it never has a timestamp and each record
takes the place of the one before.
-/

namespace TimeMachine.TsClient
open TimeMachine.Base Index ByteBuffer

/-! ### The result -/

/-- The records are the entries of the frames, gathered by timestamp. -/
def Grouped (fs : List Frame) (records : List TsRecord) : Prop :=
  IsGrouping Frame.ts Frame.entry fs (records.map fun r ↦ (r.ts, r.entries))

/-- Complete frames are decoded to a record for each. -/
theorem decodeTsRecord_records (fs : List Frame) :
    decodeTsRecord (fs.flatMap Frame.bytes) =
      .ok (fs.map fun f ↦ { ts := f.ts, entries := [f.entry] }) :=
  decodeLoop_of_frames fs (rest_wrap _)

/-- The decoder groups the frames of a stream by timestamp exactly if no two of them have the same
timestamp as a number. -/
theorem decodeTsRecord_grouped_iff (fs : List Frame) :
    (∃ records, decodeTsRecord (fs.flatMap Frame.bytes) = .ok records ∧ Grouped fs records) ↔
      (fs.map Frame.ts).Nodup := by
  have hpairs : (fs.map fun f ↦ ({ ts := f.ts, entries := [f.entry] } : TsRecord)).map
      (fun r ↦ (r.ts, r.entries)) = fs.map fun f ↦ (f.ts, [f.entry]) := by
    rw [List.map_map]
    rfl
  rw [decodeTsRecord_records, ← isGrouping_singletons_iff Frame.ts Frame.entry fs, ← hpairs]
  constructor
  · rintro ⟨records, h, hgrouped⟩
    cases h
    exact hgrouped
  · intro hgrouped
    exact ⟨_, rfl, hgrouped⟩

/-- Two frames with timestamp 5 stay two records. -/
theorem decodeTsRecord_not_grouped :
    ¬ ∀ fs : List Frame, ∃ records,
      decodeTsRecord (fs.flatMap Frame.bytes) = .ok records ∧ Grouped fs records := by
  intro h
  obtain ⟨records, hrecords, hgrouped⟩ := h
    [.ofRecord 5 0 [] (by decide), .ofRecord 5 1 [] (by decide)]
  rw [decodeTsRecord_records] at hrecords
  cases hrecords
  exact absurd hgrouped.distinct (by decide)

/-- Every stream has one grouping. -/
theorem exists_unique_grouped (fs : List Frame) : ∃! records, Grouped fs records := by
  refine ⟨(group Frame.ts Frame.entry fs).map fun g ↦ { ts := g.1, entries := g.2 }, ?_, ?_⟩
  · show IsGrouping _ _ _ _
    rw [List.map_map, show (_ ∘ _ : Int × List Entry → _) = id from rfl, List.map_id]
    exact isGrouping_group _ _ _
  · intro records h
    rw [← IsGrouping.eq_group h, List.map_map]
    exact (List.map_id records).symm

/-! ### The map -/

/-- What a field of `undefined` gives. -/
inductive TypeError where
  | undefinedField
  deriving DecidableEq, Repr

/-- The `Map` the records are merged into: its members, and the properties set on it, by the
number that names them. -/
structure ResultMap where
  members : List (Int × TsRecord) := []
  property : Int → Option TsRecord := fun _ ↦ none

namespace ResultMap

/-- `Map.prototype.has`. -/
def has (map : ResultMap) (ts : Int) : Bool := map.members.any (·.1 = ts)

/-- `map[ts] = record`. -/
def setProperty (map : ResultMap) (ts : Int) (record : TsRecord) : ResultMap :=
  { map with property := Function.update map.property ts (some record) }

/-- The properties after one was set. -/
theorem property_setProperty (map : ResultMap) (ts : Int) (record : TsRecord) (other : Int) :
    (map.setProperty ts record).property other =
      if other = ts then some record else map.property other :=
  Function.update_apply _ _ _ _

/-- The function the records are reduced with; `index.ts:98–106`. -/
def merge (map : ResultMap) (obj : TsRecord) : Except TypeError ResultMap :=
  if map.has obj.ts then
    match map.property obj.ts with
    | some prev => .ok (map.setProperty obj.ts
        { ts := obj.ts, entries := prev.entries ++ obj.entries })
    | none => .error .undefinedField
  else .ok (map.setProperty obj.ts obj)

end ResultMap

/-- The map that is filled after the loop; `index.ts:98–106`. -/
def resultMap (records : List TsRecord) : Except TypeError ResultMap :=
  records.foldlM ResultMap.merge {}

/-- A map without members keeps none, and holds the record that came last. -/
theorem ResultMap.foldlM_merge (records : List TsRecord) {map : ResultMap}
    (h : map.members = []) :
    records.foldlM merge map = .ok
      { members := []
        property := fun ts ↦ ((records.filter (·.ts = ts)).getLast?).or (map.property ts) } := by
  induction records generalizing map with
  | nil =>
    obtain ⟨members, property⟩ := map
    cases h
    rfl
  | cons obj records ih =>
    have hhas : map.has obj.ts = false := by rw [has, h, List.any_nil]
    have hmerge : map.merge obj = .ok (map.setProperty obj.ts obj) := by
      rw [merge, hhas]
      rfl
    rw [List.foldlM_cons, hmerge]
    have hrest : (map.setProperty obj.ts obj).members = [] := h
    show records.foldlM merge (map.setProperty obj.ts obj) = _
    rw [ih hrest]
    congr 2
    funext ts
    rw [ResultMap.property_setProperty]
    by_cases hts : obj.ts = ts
    · rw [List.filter_cons_of_pos (by simpa using hts), if_pos hts.symm]
      cases records.filter (·.ts = ts) with
      | nil => rfl
      | cons r rest =>
        rw [List.getLast?_cons_cons, List.getLast?_cons, Option.some_or, Option.some_or]
    · rw [List.filter_cons_of_neg (by simpa using hts), if_neg (Ne.symm hts)]

/-- Filling the map never throws; it is left without members, and with the last of the records of
each timestamp. -/
theorem resultMap_eq (records : List TsRecord) :
    resultMap records = .ok
      { members := [], property := fun ts ↦ (records.filter (·.ts = ts)).getLast? } := by
  rw [resultMap, ResultMap.foldlM_merge records rfl]
  simp only [Option.or_none]

end TimeMachine.TsClient
