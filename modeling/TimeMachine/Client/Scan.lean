import TimeMachine.Client.Iter

/-!
# What a scan emits

The loop of `Iter` is the composition of two things: which of the entries ahead of the
start are in the range, a matter of the order and the bounds, and how many of them are
passed on, a matter of the limits. The first is decided on stores in chronological
order, the second for every sequence of records.
-/

namespace TimeMachine.Client
open TimeMachine.Base TimeMachine.Store

/-- The record of an entry. -/
def entryRecord (pb : Protobuf) (e : Slice × Bytes) : ID × Data :=
  (deserializeID e.1, pb.parseFromString e.2)

/-- The timestamp in the key of an entry. -/
def entryTs (e : Slice × Bytes) : UInt64 := (deserializeID e.1).timestamp

namespace RangeRequest

/-- The entries ahead that pass the bound checks of the loop. -/
def selected (request : RangeRequest) : ColumnFamily → ColumnFamily
  | [] => []
  | e :: rest =>
    if request.reverse = false ∧ request.till ≠ 0 ∧ request.till < entryTs e then []
    else if request.reverse = true ∧ request.from' ≠ 0 ∧ request.from' ≥ entryTs e then []
    else if request.reverse = false ∧ request.from' > entryTs e then selected request rest
    else e :: selected request rest

/-- The records of a sequence that pass the limit checks of the loop. -/
def emitted (request : RangeRequest) (fn : Callback) (bytesSend messagesSend : UInt64) :
    List (ID × Data) → List (ID × Data)
  | [] => []
  | r :: rest =>
    if request.maxbytes ≠ 0 ∧ request.maxbytes ≤ bytesSend then []
    else if request.maxmessages ≠ 0 ∧ request.maxmessages ≤ messagesSend then []
    else r :: emitted request fn (bytesSend + fn r.1 r.2 false) (messagesSend + 1) rest

/-- The limits as a quota on the number and the total size of the records before. -/
def admits (request : RangeRequest) (messages bytes : Nat) : Bool :=
  decide ((request.maxmessages ≠ 0 → messages < request.maxmessages.toNat) ∧
    (request.maxbytes ≠ 0 → bytes < request.maxbytes.toNat))

/-- The bound checks leave entries out. -/
theorem selected_sublist (request : RangeRequest) (l : ColumnFamily) :
    (request.selected l).Sublist l := by
  induction l with
  | nil => exact List.Sublist.slnil
  | cons e rest ih =>
    rw [selected]
    split
    · exact List.nil_sublist _
    · split
      · exact List.nil_sublist _
      · split
        · exact ih.cons _
        · exact ih.cons_cons _

/-- Without limits every record is emitted. -/
theorem emitted_of_no_limits {request : RangeRequest} (hm : request.maxmessages = 0)
    (hb : request.maxbytes = 0) (fn : Callback) (bytesSend messagesSend : UInt64)
    (l : List (ID × Data)) : request.emitted fn bytesSend messagesSend l = l := by
  induction l generalizing bytesSend messagesSend with
  | nil => rfl
  | cons r rest ih => rw [emitted, if_neg (by simp [hb]), if_neg (by simp [hm]), ih]

/-- What is emitted is a prefix of the sequence. -/
theorem emitted_prefix (request : RangeRequest) (fn : Callback) (bytesSend messagesSend : UInt64)
    (l : List (ID × Data)) : request.emitted fn bytesSend messagesSend l <+: l := by
  induction l generalizing bytesSend messagesSend with
  | nil => exact List.prefix_rfl
  | cons r rest ih =>
    rw [emitted]
    split
    · exact List.nil_prefix
    · split
      · exact List.nil_prefix
      · exact List.cons_prefix_cons.mpr ⟨rfl, ih _ _⟩

/-- The limits never stop the first record. -/
theorem mem_emitted_cons (request : RangeRequest) (fn : Callback) (r : ID × Data)
    (l : List (ID × Data)) : r ∈ request.emitted fn 0 0 (r :: l) := by
  have hzero (n : UInt64) : ¬ (n ≠ 0 ∧ n ≤ 0) := fun h ↦ h.1 (UInt64.le_zero_iff.mp h.2)
  rw [emitted, if_neg (hzero _), if_neg (hzero _)]
  exact List.mem_cons_self

/-- The 64-bit counters of the loop impose the quota, as long as the sizes reported do not
wrap around. -/
theorem emitted_eq_limit (request : RangeRequest) (fn : Callback) (bytesSend messagesSend : UInt64)
    (count total : Nat) (l : List (ID × Data))
    (hcount : request.maxmessages ≠ 0 → messagesSend.toNat = count)
    (htotal : request.maxbytes ≠ 0 → bytesSend.toNat = total ∧
      total + (l.map fun r ↦ (fn r.1 r.2 false).toNat).sum < 2 ^ 64) :
    request.emitted fn bytesSend messagesSend l =
      Quota.limit request.admits (fun r ↦ (fn r.1 r.2 false).toNat) count total l := by
  induction l generalizing bytesSend messagesSend count total with
  | nil => rfl
  | cons r rest ih =>
    have hadmits : request.admits count total = true ↔
        ¬ (request.maxbytes ≠ 0 ∧ request.maxbytes ≤ bytesSend) ∧
          ¬ (request.maxmessages ≠ 0 ∧ request.maxmessages ≤ messagesSend) := by
      rw [admits, decide_eq_true_iff, not_and, not_and, UInt64.le_iff_toNat_le,
        UInt64.le_iff_toNat_le]
      constructor
      · rintro ⟨hm, hb⟩
        refine ⟨fun h ↦ ?_, fun h ↦ ?_⟩
        · have := hb h
          have := (htotal h).1
          omega
        · have := hm h
          have := hcount h
          omega
      · rintro ⟨hb, hm⟩
        refine ⟨fun h ↦ ?_, fun h ↦ ?_⟩
        · have := hm h
          have := hcount h
          omega
        · have := hb h
          have := (htotal h).1
          omega
    rw [emitted, Quota.limit]
    by_cases hok : request.admits count total = true
    · obtain ⟨hb, hm⟩ := hadmits.mp hok
      rw [if_neg hb, if_neg hm, if_pos hok, ih]
      · intro h
        have hlt : messagesSend.toNat < request.maxmessages.toNat := by
          by_contra hge
          exact hm ⟨h, UInt64.le_iff_toNat_le.mpr (by omega)⟩
        have := request.maxmessages.toNat_lt
        rw [UInt64.toNat_add, hcount h]
        have := hcount h
        change (count + 1) % 2 ^ 64 = count + 1
        omega
      · intro h
        obtain ⟨hcur, hsum⟩ := htotal h
        rw [List.map_cons, List.sum_cons] at hsum
        rw [UInt64.toNat_add, hcur, Nat.mod_eq_of_lt (by omega)]
        exact ⟨rfl, by omega⟩
    · rw [if_neg hok]
      by_cases hb : request.maxbytes ≠ 0 ∧ request.maxbytes ≤ bytesSend
      · rw [if_pos hb]
      · rw [if_neg hb, if_pos (by
          by_contra hm
          exact hok (hadmits.mpr ⟨hb, hm⟩))]

/-- The limits as the 64-bit counters of the loop see them. -/
def allows (request : RangeRequest) (messages bytes : Nat) : Bool :=
  decide (¬ (request.maxbytes ≠ 0 ∧ request.maxbytes ≤ UInt64.ofNat bytes) ∧
    ¬ (request.maxmessages ≠ 0 ∧ request.maxmessages ≤ UInt64.ofNat messages))

/-- Whether the counters wrap around or not, they impose this quota. -/
theorem emitted_eq_limit_allows (request : RangeRequest) (fn : Callback) (count total : Nat)
    (l : List (ID × Data)) :
    request.emitted fn (UInt64.ofNat total) (UInt64.ofNat count) l =
      Quota.limit request.allows (fun r ↦ (fn r.1 r.2 false).toNat) count total l := by
  induction l generalizing count total with
  | nil => rfl
  | cons r rest ih =>
    have hbytes : UInt64.ofNat total + fn r.1 r.2 false =
        UInt64.ofNat (total + (fn r.1 r.2 false).toNat) := by
      rw [UInt64.ofNat_add, UInt64.ofNat_toNat]
    have hmessages : UInt64.ofNat count + 1 = UInt64.ofNat (count + 1) :=
      (UInt64.ofNat_add _ _).symm
    rw [emitted, Quota.limit, hbytes, hmessages, ih]
    by_cases hb : request.maxbytes ≠ 0 ∧ request.maxbytes ≤ UInt64.ofNat total
    · rw [if_pos hb, if_neg (by simp [allows, hb])]
    · rw [if_neg hb]
      by_cases hm : request.maxmessages ≠ 0 ∧ request.maxmessages ≤ UInt64.ofNat count
      · rw [if_pos hm, if_neg (by simp [allows, hm])]
      · have hallows : request.allows count total = true := decide_eq_true ⟨hb, hm⟩
        rw [if_neg hm, if_pos hallows]

end RangeRequest

namespace DbClient
open RangeRequest

/-- The loop selects by the bounds and emits by the limits. -/
theorem iterLoop_eq (pb : Protobuf) (request : RangeRequest) (fn : Callback)
    (bytesSend messagesSend : UInt64) (iter : Cursor (Slice × Bytes)) :
    iterLoop pb request fn false bytesSend messagesSend iter =
      request.emitted fn bytesSend messagesSend
        ((request.selected (Cursor.ahead request.reverse iter)).map (entryRecord pb)) := by
  induction hl : Cursor.ahead request.reverse iter generalizing iter bytesSend messagesSend with
  | nil =>
    cases iter with
    | none => rw [iterLoop, selected, List.map_nil, emitted]
    | some p =>
      rw [Cursor.ahead_advance] at hl
      cases hl
  | cons e rest ih =>
    cases iter with
    | none => cases hl
    | some p =>
      rw [Cursor.ahead_advance] at hl
      obtain ⟨rfl, hrest⟩ := List.cons.inj hl
      have hts : entryTs p.current = (deserializeID p.current.1).timestamp := rfl
      rw [iterLoop, selected, if_neg (by decide), ← hts]
      by_cases hlate : request.reverse = false ∧ request.till ≠ 0 ∧ request.till < entryTs p.current
      · rw [if_pos hlate, if_pos hlate, List.map_nil, emitted]
      · rw [if_neg hlate, if_neg hlate]
        by_cases hearly : request.reverse = true ∧ request.from' ≠ 0 ∧
            request.from' ≥ entryTs p.current
        · rw [if_pos hearly, if_pos hearly, List.map_nil, emitted]
        · rw [if_neg hearly, if_neg hearly]
          by_cases hskip : request.reverse = false ∧ request.from' > entryTs p.current
          · rw [if_pos hskip, if_pos hskip, ih _ _ _ hrest]
          · rw [if_neg hskip, if_neg hskip, List.map_cons, emitted, ← ih _ _ _ hrest]
            rfl

/-- Wherever a scan starts, it visits entries of the folder. -/
theorem mem_of_mem_ahead_seek {request : RangeRequest} {es : ColumnFamily} {e : Slice × Bytes}
    (h : e ∈ Cursor.ahead request.reverse (seek request es)) : e ∈ es := by
  have hfirst (hr : request.reverse = false)
      (he : e ∈ Cursor.ahead request.reverse (Cursor.seekToFirst es)) : e ∈ es := by
    rwa [hr, Cursor.ahead_seekToFirst] at he
  have hlast (hr : request.reverse = true)
      (he : e ∈ Cursor.ahead request.reverse (Cursor.seekToLast es)) : e ∈ es := by
    rwa [hr, Cursor.ahead_seekToLast, List.mem_reverse] at he
  rw [seek] at h
  split at h
  · next hc => exact hfirst hc.1 h
  · split at h
    · next hc => exact hlast hc.1 h
    · cases hp : seekForPrev (serializeID (keyFrom request)) es with
      | some p =>
        rw [hp, Option.some_or] at h
        exact Cursor.mem_of_mem_ahead (Cursor.seekForPrev_eq_some hp).1 h
      | none =>
        rw [hp, Option.none_or] at h
        split at h
        · next hr => exact hfirst hr h
        · next hr => exact hlast (Bool.eq_true_of_not_eq_false hr) h

/-- The records of a scan are those of entries of the folder. -/
theorem exists_entry_of_mem_scan {pb : Protobuf} {request : RangeRequest} {fn : Callback}
    {es : ColumnFamily} {r : ID × Data} (hr : r ∈ scan pb request fn es) :
    ∃ e ∈ es, entryRecord pb e = r := by
  rw [scan, iterLoop_eq] at hr
  obtain ⟨e, he, rfl⟩ := List.mem_map.mp ((request.emitted_prefix fn 0 0 _).subset hr)
  exact ⟨e, mem_of_mem_ahead_seek ((selected_sublist request _).subset he), rfl⟩

end DbClient
end TimeMachine.Client
