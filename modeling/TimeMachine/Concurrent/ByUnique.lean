import TimeMachine.Concurrent.Session
import TimeMachine.Store.Wire

/-!
# Looking records up by their number

Subsampling looks a record up by its number alone. That finds every record of a folder
exactly when the numbers increase in the order of the keys, as they do while the
timestamps do not decrease in the order the identifiers are generated and the counter
does not run round.
-/

namespace TimeMachine.Concurrent
open TimeMachine.Base TimeMachine.Base.StateError TimeMachine.Store TimeMachine.Store.IDComparator
open TimeMachine.Client TimeMachine.Server TimeMachine.Client.DbClient

/-- The identifiers generated in a folder, in order. -/
def idsIn (folder : String) (issued : List (String × ID)) : List ID :=
  (issued.filter (·.1 = folder)).map (·.2)

/-- Timestamps and numbers of two identifiers run the same way. -/
def SameWay (x y : ID) : Prop :=
  (x.timestamp ≤ y.timestamp ∧ x.unique < y.unique) ∨
    (y.timestamp ≤ x.timestamp ∧ y.unique < x.unique)

instance SameWay.symm : Std.Symm SameWay := ⟨fun _ _ ↦ Or.symm⟩

/-- While timestamps do not decrease, the keys are in the order of their numbers. -/
theorem Session.uniquesIncrease {pb : Protobuf} {a : Local} {f : Folder} {ids : List ID}
    {done : List Saved} (h : Session pb a f ids done) (hn : ids.length ≤ 2 ^ 64)
    (hts : ids.Pairwise (fun x y ↦ x.timestamp ≤ y.timestamp)) : UniquesIncrease f.records := by
  have hboth : ids.Pairwise SameWay := (hts.and (h.increasing hn)).imp Or.inl
  refine h.kept.sorted.imp_of_mem fun {d e} hd he hlt ↦ ?_
  rw [compare_neg_iff_lexLt (h.kept.keys d hd) (h.kept.keys e he)] at hlt
  obtain ⟨x, hx, hkx⟩ := h.keys d hd
  obtain ⟨y, hy, hky⟩ := h.keys e he
  rw [hkx, hky, deserializeID_serializeID, deserializeID_serializeID] at hlt ⊢
  rcases hlt with hlt | ⟨-, hlt⟩
  · -- the later timestamp was generated later, so under a higher number
    have hne : x ≠ y := by
      rintro rfl
      exact UInt64.lt_irrefl _ hlt
    rcases hboth.forall hx hy hne with hxy | hyx
    · exact hxy.2
    · exact absurd hlt (UInt64.not_lt.mpr hyx.1)
  · exact hlt

/-- Where the numbers increase in key order, timestamps and numbers run the same way. -/
theorem sameWay_of_uniquesIncrease {l : ColumnFamily} (hl : OrderedStore.Kept compare Dated l)
    (hu : UniquesIncrease l) {d e : Slice × Bytes} (hd : d ∈ l) (he : e ∈ l)
    (hne : deserializeID d.1 ≠ deserializeID e.1) :
    SameWay (deserializeID d.1) (deserializeID e.1) := by
  have hall : (l.map (fun c ↦ deserializeID c.1)).Pairwise SameWay := by
    rw [List.pairwise_map]
    refine (hl.sorted.and hu).imp_of_mem fun {a b} ha hb hab ↦ Or.inl ⟨?_, hab.2⟩
    rcases (compare_neg_iff_lexLt (hl.keys a ha) (hl.keys b hb)).mp hab.1 with h | h
    · exact UInt64.le_of_lt h
    · exact UInt64.le_of_eq h.1
  exact hall.forall (List.mem_map_of_mem hd) (List.mem_map_of_mem he) hne

/-- In a store in key order every record is found by its number alone exactly if the numbers
increase; and they do in every state reached from an empty folder, as long as the database stays
open, no more identifiers are generated than there are numbers, and their timestamps do not
decrease. -/
theorem found_by_unique (pb : Protobuf) :
    (∀ l : ColumnFamily, l.Pairwise (fun a b ↦ LexLt (deserializeID a.1) (deserializeID b.1)) →
      ((∀ e ∈ l,
          OrderedStore.find compare (serializeID ⟨0, (deserializeID e.1).unique⟩) l = some e) ↔
        UniquesIncrease l)) ∧
    ∀ (folder : String) (s₀ s : System) (labels : List Label) (issued : List (String × ID)),
      OpenStretch pb folder s₀ labels s → s.issued = s₀.issued ++ issued →
      (idsIn folder issued).Pairwise (fun x y ↦ x.timestamp ≤ y.timestamp) →
      (idsIn folder issued).length ≤ 2 ^ 64 →
      ∃ f, s.client.view folder = some f ∧ UniquesIncrease f.records := by
  refine ⟨fun l hl ↦ find_by_unique_iff hl, ?_⟩
  intro folder s₀ s labels issued h hissued hts hn
  obtain ⟨f, ids, done, hsess, hids, -⟩ := h.session
  have hall : (s.model.toLocal folder).issued =
      (s₀.model.toLocal folder).issued ++ idsIn folder issued := by
    simp only [Model.toLocal, System.model, hissued, List.filter_append, List.map_append, idsIn]
  obtain rfl := List.append_cancel_left (hids.symm.trans hall)
  exact ⟨f, hsess.folder, hsess.uniquesIncrease hn hts⟩

/-- A save and a put side by side in a new database, with growing timestamps. -/
theorem found_by_unique_once :
    ∃ (client : DbClient) (s : System) (f : Folder),
      start .localDBClient { now := 1, now_ne_zero := by decide } {} RocksDB.empty =
        .ok () client ∧
      s.client.view defaultName = some f ∧ f.records.length = 2 ∧ UniquesIncrease f.records ∧
      ∀ e ∈ f.records, OrderedStore.find compare
        (serializeID ⟨0, (deserializeID e.1).unique⟩) f.records = some e := by
  let env : Env := { now := 2, now_ne_zero := by decide }
  let labels : List Label :=
    [.arrive (.save { folder := defaultName, data := [1], timestamp := 5 }),
      .arrive (.post { folder := defaultName, data := [2], timestamp := 7 }), .run 0 env,
      .run 0 env, .run 1 env, .run 1 env, .run 1 env, .run 0 env]
  obtain ⟨client, hstart⟩ := start_of_empty .localDBClient {}
    { now := 1, now_ne_zero := by decide } rfl rfl rfl rfl
  obtain ⟨hempty, hstays, s, hs, hlength, hts, hrecords⟩ := forall_of_final (P := fun c ↦
    c.view defaultName = some ⟨[], 0⟩ ∧
      Along (System.step Wire.wire) (fun s l ↦ ¬ s.Reopens l) (.started c) labels ∧
      ∃ s ∈ run (System.step Wire.wire) (.started c) labels,
        (idsIn defaultName s.issued).length ≤ 2 ^ 64 ∧
        (idsIn defaultName s.issued).Pairwise (fun x y ↦ x.timestamp ≤ y.timestamp) ∧
        ∀ f ∈ s.client.view defaultName, f.records.length = 2 ∧ f.records.Pairwise
          (fun a b ↦ LexLt (deserializeID a.1) (deserializeID b.1)))
    (by decide +kernel) client hstart
  have hstretch : OpenStretch Wire.wire defaultName (.started client) labels s :=
    ⟨⟨_, _, _, client, [], hstart, by simp, rfl⟩, hempty, by simp [System.started], by decide,
      hstays, hs⟩
  obtain ⟨hfound, hincrease⟩ := found_by_unique Wire.wire
  obtain ⟨f, hf, hinc⟩ := hincrease _ _ _ _ s.issued hstretch (List.nil_append _).symm hts hlength
  obtain ⟨htwo, hsorted⟩ := hrecords f hf
  exact ⟨client, s, f, hstart, hf, htwo, hinc, (hfound f.records hsorted).mpr hinc⟩

private theorem counter_run_round {client : DbClient}
    (hstart : start .localDBClient { now := 1, now_ne_zero := by decide } {} RocksDB.empty =
      .ok () client) {request : SaveRequest} (hview : (client.view request.folder).isSome)
    (hts : request.timestamp = 1) :
    ∃ s labels f, OpenStretch Wire.wire request.folder (.started client) labels s ∧
      s.threads = [] ∧ s.client.view request.folder = some f ∧ f.lastUnique = 0 ∧
      OrderedStore.Kept compare Dated f.records ∧ (∃ val, (serializeID ⟨1, 1⟩, val) ∈ f.records) ∧
      ∀ id ∈ idsIn request.folder s.issued, id.timestamp = 1 := by
  let env : Env := { now := 1, now_ne_zero := by decide }
  have henv : Healthy env := ⟨rfl, rfl, rfl⟩
  obtain ⟨s, h, hthreads, hissued, hfinished⟩ :=
    stretch_savingInTurn Wire.wire hstart henv rfl hview (2 ^ 64)
  obtain ⟨f, ids, done, hsess, -, hdone⟩ := h.session
  have heffective : effectiveTs env request.timestamp = 1 := by rw [hts]; decide
  have hsaves : done = savedInTurn request env 0 (2 ^ 64) := by
    have hall : s.finished = (System.started client).finished ++ s.finished := rfl
    have hfin := savesTo_of_finished request.folder hall
    rw [List.append_cancel_left (hdone.symm.trans hfin), hfinished, savesTo_savedInTurn]
  have hperm : (done.map (·.id)).Perm ids := by
    have haccounted := hsess.accounted
    rwa [outstanding_of_savesIn (by rw [System.savesIn, hthreads]; rfl), Multiset.zero_add,
      Multiset.coe_eq_coe] at haccounted
  have hlength : ids.length = 2 ^ 64 := by
    rw [← hperm.length_eq, List.length_map, hsaves, length_savedInTurn]
  have hone : (⟨request, ⟨1, 1⟩, .ok⟩ : Saved) ∈ done := by
    rw [hsaves, savedInTurn, heffective]
    exact List.mem_map.mpr ⟨1, List.mem_range.mpr (by decide), rfl⟩
  have hok : ∀ d ∈ done, d.status = .ok := by
    rw [hsaves]
    exact fun d hd ↦ (mem_savedInTurn hd).2.1
  have hstored := (hsess.records hok (Nat.le_of_eq hlength)).mem_iff.mpr (List.mem_map_of_mem hone)
  refine ⟨s, _, f, h, hthreads, hsess.folder, ?_, hsess.kept, ⟨_, hstored⟩, ?_⟩
  · rw [hsess.counter, hlength]
    decide
  · intro id hid
    obtain ⟨⟨folder, id⟩, he, rfl⟩ := List.mem_map.mp hid
    rw [hissued] at he
    obtain ⟨d, hd, he⟩ := List.mem_map.mp (List.mem_of_mem_filter he)
    cases he
    rw [(mem_savedInTurn hd).2.2, heffective]

/-- Once the counter has run round, the next record, with timestamp two, has number zero again,
and the record with timestamp one and number one is before it. -/
theorem number_zero_again :
    ¬ ∀ (pb : Protobuf) (folder : String) (s₀ s : System) (labels : List Label)
      (issued : List (String × ID)),
      OpenStretch pb folder s₀ labels s → s.issued = s₀.issued ++ issued →
      (idsIn folder issued).Pairwise (fun x y ↦ x.timestamp ≤ y.timestamp) →
      ∃ f, s.client.view folder = some f ∧ UniquesIncrease f.records := by
  intro hall
  obtain ⟨client, hstart⟩ := start_of_empty .localDBClient {}
    { now := 1, now_ne_zero := by decide } rfl rfl rfl rfl
  have hview : (client.view defaultName).isSome :=
    forall_of_final (P := fun c ↦ (c.view defaultName).isSome) (by decide +kernel) client hstart
  let env : Env := { now := 1, now_ne_zero := by decide }
  let first : SaveRequest := { folder := defaultName, data := [7], timestamp := 1 }
  let last : SaveRequest := { folder := defaultName, data := [7], timestamp := 2 }
  have hview : (client.view first.folder).isSome := hview
  obtain ⟨s, labels, f, h, hthreads, hf, hcounter, hkept, ⟨val, hone⟩, hissued⟩ :=
    counter_run_round hstart hview rfl
  have htasks : s.model.tasks = [] := by
    rw [System.model, hthreads]
    rfl
  have hput : env.put = .ok := rfl
  have hfolder : s.model.folders last.folder = some f := hf
  obtain ⟨hrun, hstays⟩ := run_savingOnce Wire.wire hput htasks hfolder
  have hid : last.nextID env f = ⟨2, 0⟩ := by rw [SaveRequest.nextID, hcounter]; rfl
  rw [hid] at hrun
  obtain ⟨t, ht, hmodel⟩ := h.extend (durable_savingOnce ⟨rfl, rfl, rfl⟩) hrun hstays
  have htissued : t.issued = s.issued ++ [(defaultName, ⟨2, 0⟩)] := congrArg Model.issued hmodel
  have hts : (idsIn defaultName t.issued).Pairwise (fun x y ↦ x.timestamp ≤ y.timestamp) := by
    have hsplit : idsIn defaultName t.issued = idsIn defaultName s.issued ++ [⟨2, 0⟩] := by
      rw [htissued, idsIn, List.filter_append, List.map_append]
      rfl
    rw [hsplit, List.pairwise_append]
    refine ⟨List.pairwise_of_forall_mem_list fun x hx y hy ↦ ?_, List.pairwise_singleton _ _, ?_⟩
    · rw [hissued x hx, hissued y hy]
      exact UInt64.le_refl 1
    · intro x hx y hy
      rw [hissued x hx, List.mem_singleton.mp hy]
      decide
  obtain ⟨g, hg, hinc⟩ := hall Wire.wire _ _ _ _ t.issued ht (List.nil_append _).symm hts
  have hstored : t.client.view defaultName = some _ :=
    (congrFun (congrArg Model.folders hmodel) defaultName).trans
      (Folders.store_self (Folders.issue_self hf) _ _)
  cases hstored.symm.trans hg
  have hdated : Dated (serializeID ⟨2, 0⟩) := dated_serializeID (by decide)
  have hmem := OrderedStore.mem_put dated_total hkept hdated
    (Wire.wire.serializeAsString (last.message ⟨2, 0⟩))
  have hboth := sameWay_of_uniquesIncrease (OrderedStore.kept_put dated_total hkept hdated _) hinc
    ((hmem _).mpr (Or.inl rfl)) ((hmem _).mpr (Or.inr ⟨hone, by simp [serializeID_inj]⟩))
    (by simp)
  simp only [deserializeID_serializeID, SameWay] at hboth
  exact absurd hboth (by decide)

end TimeMachine.Concurrent
