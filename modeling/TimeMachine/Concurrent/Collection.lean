import TimeMachine.Concurrent.Session
import TimeMachine.Store.Wire

/-!
# Saves side by side

Any number of saves to a folder that was empty when the database was opened, in any
interleaving with each other and with requests to other folders: as long as the counter
does not run round, each leaves its own record, under a number of its own.
-/

namespace TimeMachine.Concurrent
open TimeMachine.Base TimeMachine.Base.StateError TimeMachine.Store TimeMachine.Client
open TimeMachine.Server TimeMachine.Client.DbClient

/-- The requests were served, each once; the records are theirs, each with the payload of its
request under the identifier it returned; and their numbers are those below their count. -/
structure Collected (pb : Protobuf) (records : ColumnFamily) (done : List Saved)
    (requests : List SaveRequest) : Prop where
  served : (done.map (·.request)).Perm requests
  stored : records.Perm (done.map (·.entry pb))
  uniques : (done.map (·.id.unique.toNat)).Perm (List.range requests.length)

/-- Up to the end of the counter, saves side by side to a folder that was empty when the database
was opened leave one record each and take the numbers from zero on. -/
theorem saves_collected (pb : Protobuf) {folder : String} {s₀ s : System} {labels : List Label}
    (h : OpenStretch pb folder s₀ labels s) (hall : s.savesIn folder = []) {done : List Saved}
    (hdone : s.finished = s₀.finished ++ done) (hok : ∀ d ∈ savesTo folder done, d.status = .ok)
    (hn : (s₀.requestsTo folder labels).length ≤ 2 ^ 64) :
    ∃ f, s.client.view folder = some f ∧
      Collected pb f.records (savesTo folder done) (s₀.requestsTo folder labels) := by
  obtain ⟨f, ids, mine, hsess, -, hmine⟩ := h.session
  obtain rfl : mine = savesTo folder done :=
    List.append_cancel_left (hmine.symm.trans (savesTo_of_finished folder hdone))
  have hserved := h.served hall hdone
  have hids : ((savesTo folder done).map (·.id)).Perm ids := by
    have haccounted := hsess.accounted
    rwa [outstanding_of_savesIn hall, Multiset.zero_add, Multiset.coe_eq_coe] at haccounted
  have hlength : (s₀.requestsTo folder labels).length = ids.length := by
    rw [← hserved.length_eq, ← hids.length_eq, List.length_map, List.length_map]
  rw [hlength] at hn
  refine ⟨f, hsess.folder, hserved, hsess.records hok hn, ?_⟩
  have huniques := hids.map (·.unique.toNat)
  rwa [hsess.uniques hn, List.map_map, ← hlength] at huniques

/-- Two saves side by side in a new database. -/
theorem saves_collected_once :
    ∃ (client : DbClient) (s : System) (f : Folder),
      start .localDBClient { now := 1, now_ne_zero := by decide } {} RocksDB.empty =
        .ok () client ∧
      s.client.view defaultName = some f ∧
      Collected Wire.wire f.records (savesTo defaultName s.finished)
        [{ folder := defaultName, data := [1] }, { folder := defaultName, data := [2] }] := by
  let env : Env := { now := 2, now_ne_zero := by decide }
  let labels : List Label :=
    [.arrive (.save { folder := defaultName, data := [1] }),
      .arrive (.post { folder := defaultName, data := [2] }), .run 1 env, .run 0 env, .run 0 env,
      .run 1 env, .run 0 env, .run 0 env]
  obtain ⟨client, hstart⟩ := start_of_empty .localDBClient {}
    { now := 1, now_ne_zero := by decide } rfl rfl rfl rfl
  obtain ⟨hempty, hstays, s, hs, hall, hok⟩ := forall_of_final (P := fun c ↦
    c.view defaultName = some ⟨[], 0⟩ ∧
      Along (System.step Wire.wire) (fun s l ↦ ¬ s.Reopens l) (.started c) labels ∧
      ∃ s ∈ run (System.step Wire.wire) (.started c) labels, s.savesIn defaultName = [] ∧
        ∀ d ∈ savesTo defaultName s.finished, d.status = .ok)
    (by decide +kernel) client hstart
  have hstretch : OpenStretch Wire.wire defaultName (.started client) labels s :=
    ⟨⟨_, _, _, client, [], hstart, by simp, rfl⟩, hempty, by simp [System.started], by decide,
      hstays, hs⟩
  have hdone : s.finished = (System.started client).finished ++ s.finished := rfl
  obtain ⟨f, hf, hcollected⟩ := saves_collected Wire.wire hstretch hall hdone hok
    (by change 2 ≤ 2 ^ 64; decide)
  exact ⟨client, s, f, hstart, hf, hcollected⟩

/-- After a save more than there are numbers, the numbers are not those below the count. -/
theorem saves_beyond_counter :
    ¬ ∀ (pb : Protobuf) (folder : String) (s₀ s : System) (labels : List Label)
      (done : List Saved), OpenStretch pb folder s₀ labels s → s.savesIn folder = [] →
      s.finished = s₀.finished ++ done → (∀ d ∈ savesTo folder done, d.status = .ok) →
      ∃ f, s.client.view folder = some f ∧
        Collected pb f.records (savesTo folder done) (s₀.requestsTo folder labels) := by
  intro hall
  obtain ⟨client, hstart⟩ := start_of_empty .localDBClient {}
    { now := 1, now_ne_zero := by decide } rfl rfl rfl rfl
  have hview : (client.view defaultName).isSome :=
    forall_of_final (P := fun c ↦ (c.view defaultName).isSome) (by decide +kernel) client hstart
  let env : Env := { now := 1, now_ne_zero := by decide }
  have henv : Healthy env := ⟨rfl, rfl, rfl⟩
  let request : SaveRequest := { folder := defaultName, data := [7] }
  have hview : (client.view request.folder).isSome := hview
  obtain ⟨s, hstretch, hthreads, -, hfinished⟩ :=
    stretch_savingInTurn Wire.wire hstart henv rfl hview (2 ^ 64 + 1)
  have hsaves : savesTo defaultName s.finished =
      savedInTurn request env 0 (2 ^ 64 + 1) := by
    rw [hfinished]
    exact savesTo_savedInTurn request env 0 _
  obtain ⟨f, -, hcollected⟩ := hall Wire.wire _ _ _ _ s.finished hstretch
    (by rw [System.savesIn, hthreads]; rfl) (List.nil_append _).symm
    (by rw [hsaves]; exact fun d hd ↦ (mem_savedInTurn hd).2.1)
  have hlength := hcollected.served.length_eq
  rw [hsaves, List.length_map, length_savedInTurn] at hlength
  have huniques := hcollected.uniques
  rw [← hlength] at huniques
  obtain ⟨d, -, hd⟩ := List.mem_map.mp
    (huniques.mem_iff.mpr (List.mem_range.mpr (Nat.lt_succ_self (2 ^ 64))))
  exact absurd d.id.unique.toNat_lt (by omega)

end TimeMachine.Concurrent
