import TimeMachine.Server.InOrder

/-!
# Sampling a period of an archive that was written in order

What a subsample of a period shows of a folder that was written in order: nothing from the
start of its end on, if anything was written before that, and nothing from before its
beginning but the last write there.
-/

namespace TimeMachine.Server
open TimeMachine.Base TimeMachine.Base.StateError TimeMachine.Store TimeMachine.Client DbClient

/-- The number of the newest write of a log that is not after the start of a timestamp. -/
def NewestNumber (log : List (ID × Data)) (t unique : UInt64) : Prop :=
  ∃ y ∈ log, NotAfter t y.1 ∧ (∀ x ∈ log, NotAfter t x.1 → ¬ IDComparator.LexLt y.1 x.1) ∧
    y.1.unique = unique

/-- Each message is the last write under the identifier it carries, which is not after the start
of the end of the period, and either not before its beginning, or has the number of the newest
write up to the start of that. -/
def LastWritesUpTo (log : List (ID × Data)) (fromTs tillTs : UInt64) (messages : List Data) :
    Prop :=
  ∀ m ∈ messages, ∃ id, m.id = some id ∧ lastWrite id log = some m ∧ NotAfter tillTs id ∧
    (fromTs ≤ id.timestamp ∨ NewestNumber log fromTs id.unique)

namespace WrittenInOrder
variable {lib : Libraries} {s : DbClient} {name : String} {log : List (ID × Data)} {f : Folder}
  (h : WrittenInOrder lib s name log f)

include h

/-- The number of the newest record is that of the newest write. -/
theorem newestNumber_of_newest {t : UInt64} {y : Slice × Bytes} (hy : Newest f.records t y) :
    NewestNumber log t (entryUnique y) := by
  refine ⟨_, mem_of_lastWrite (h.lastWrite_entry hy.stored), hy.atMost, fun x hx hat ↦ ?_, rfl⟩
  obtain ⟨e, he, hid⟩ := h.exists_entry hx
  rw [← hid] at hat ⊢
  exact hy.newest e he hat

variable {fromTs tillTs : UInt64} (hfrom : fromTs ≠ 0) (hle : fromTs ≤ tillTs)
  (hsome : ∃ x ∈ log, NotAfter tillTs x.1)

include hfrom hle hsome

/-- The folder has a newest record in front of the end of the period. -/
theorem exists_newest_till : ∃ z, Newest f.records tillTs z := by
  obtain ⟨x, hx, hat⟩ := hsome
  obtain ⟨e, he, hid⟩ := h.exists_entry hx
  have htill : tillTs ≠ 0 := by
    rintro rfl
    exact hfrom (UInt64.le_zero_iff.mp hle)
  exact h.inOrder.exists_newest htill he (by rw [AtMost, entryTs, hid]; exact hat)

/-- The range of the period is narrow, and ends with a number of the folder. -/
theorem narrow_period : UniqueRange.Narrow (uniqueRangeForTS fromTs tillTs f.records) ∧
    (uniqueRangeForTS fromTs tillTs f.records).till ≤ (uniqueRange f.records).till := by
  obtain ⟨z, hz⟩ := h.exists_newest_till hfrom hle hsome
  obtain ⟨htill, hordered⟩ := h.inOrder.period_range hfrom hle hz
  have hlast : (uniqueRangeForTS fromTs tillTs f.records).till ≤ (uniqueRange f.records).till := by
    rw [htill]
    exact h.inOrder.le_till (Set.mem_image_of_mem _ hz.stored)
  exact ⟨h.narrow_of_le (htill ▸ hordered) hlast, hlast⟩

/-- What a subsample of the period is made of. -/
theorem lastWritesUpTo_messages (hrnd : RoundsToDouble lib.rnd) (rand : Nat → Rand)
    {request : SubsampleRequest}
    (hrange : request.range f.records = uniqueRangeForTS fromTs tillTs f.records) :
    LastWritesUpTo log fromTs tillTs (request.messages lib.pb lib.rnd rand f.records) := by
  obtain ⟨z, hz⟩ := h.exists_newest_till hfrom hle hsome
  obtain ⟨hnarrow, hlast⟩ := h.narrow_period hfrom hle hsome
  intro m hm
  obtain ⟨unique, hunique, rfl⟩ := List.mem_map.mp hm
  obtain ⟨k, -, rfl⟩ := List.mem_map.mp hunique
  rw [hrange, hnarrow.draw_eq hrnd]
  obtain ⟨hlo, hhi⟩ := hnarrow.draw_mem hrnd (rand k)
  obtain ⟨e, he⟩ := h.exists_find (UInt64.le_trans hhi hlast)
  obtain ⟨hid, hwrite⟩ := h.sampled_of_find he
  obtain ⟨hat, hbefore⟩ := h.inOrder.found_in_period hfrom hle hz hlo hhi he
  refine ⟨_, hid, hwrite, hat, hbefore.imp_right ?_⟩
  rintro ⟨y, hy, heq : entryUnique e = entryUnique y⟩
  change NewestNumber log fromTs (entryUnique e)
  rw [heq]
  exact h.newestNumber_of_newest hy

end WrittenInOrder

/-- After every durable run from an empty disk with writes to a folder that do not go back in time
and are all taken, fewer than 2^31 of them, a subsample whose batches have buffers, of a period that
some write is in front of the end of, is made of last writes in front of that end, the same over
gRPC and over HTTP, whatever is drawn; and those from before its beginning have the number of the
newest write there. -/
theorem periods_sampled_in_order (lib : Libraries) {impl : Impl} {env : Env} {cfg : Config}
    {events : List ServiceEvent} {name : String} (hrnd : RoundsToDouble lib.rnd)
    (hstart : FreshStart impl env cfg) (he : ∀ e ∈ events, e.Durable impl cfg)
    (hin : InOrder (savesTo name events)) (hlen : (savesTo name events).length < 2 ^ 31)
    {fromTs tillTs : UInt64} (hfrom : fromTs ≠ 0) (hle : fromTs ≤ tillTs)
    (hsome : ∃ w ∈ savesTo name events, stamp w < tillTs) :
    ∃ client b log, (Process.down RocksDB.empty).afterAll lib (.start impl env cfg :: events) =
        .running client ∧
      Archive.Run lib Archive.initial
        ((Process.down RocksDB.empty).log lib (.start impl env cfg :: events)) b ∧
      b name = some log ∧ log.map (fun x ↦ x.1.timestamp) = (savesTo name events).map stamp ∧
      ∀ rand amount batchSize, Buffered amount batchSize → ∃ messages,
        messages.length = drawnCount amount batchSize ∧
        LastWritesUpTo log fromTs tillTs messages ∧
        (Process.running client).ask lib (.getSubsample rand
            { amount, folder := name, batchSize, periodRequest := some (fromTs, tillTs) }) =
          (.running client, .answer (.written .OK messages)) ∧
        ∀ env' request body, HandlerFactory.createRequestHandler request =
            some (.subsampling { name, from' := fromTs, till := tillTs, amount, batchSize }) →
          (Process.running client).ask lib (.http env' rand request body) =
            (.running client, .answer (.http (({} : HTTPServerResponse).send.setStatus 200)
              (messageFrames messages))) := by
  obtain ⟨w, hw, hlt⟩ := hsome
  obtain ⟨client, b, log, f, hall, hrun, hlog, hstamps, h⟩ :=
    hstart.writtenInOrder lib he hin (List.ne_nil_of_mem hw) hlen
  have hearly : ∃ x ∈ log, NotAfter tillTs x.1 := by
    have hmem : stamp w ∈ log.map (fun x ↦ x.1.timestamp) :=
      hstamps ▸ List.mem_map_of_mem hw
    obtain ⟨x, hx, hstamp⟩ := List.mem_map.mp hmem
    exact ⟨x, hx, Or.inl (hstamp ▸ hlt)⟩
  refine ⟨client, b, log, hall, hrun, hlog, hstamps, fun rand amount batchSize hb ↦ ?_⟩
  let handler : SubsamplingHandler := { name, from' := fromTs, till := tillTs, amount, batchSize }
  let request : SubsampleRequest :=
    { amount, folder := name, batchSize, periodRequest := some (fromTs, tillTs) }
  have hperiod : ¬ (fromTs = 0 ∧ tillTs = 0) := fun hzero ↦ hfrom hzero.1
  have hrequest : handler.subsampleRequest = request := by
    simp only [SubsamplingHandler.subsampleRequest, handler, request, if_neg hperiod]
  have hnarrow : UniqueRange.Narrow (handler.range f.records) := by
    rw [SubsamplingHandler.range, if_neg hperiod]
    exact (h.narrow_period hfrom hle hearly).1
  exact ⟨_, request.length_messages lib.pb lib.rnd rand f.records,
    h.lastWritesUpTo_messages hfrom hle hearly hrnd rand rfl,
    h.ask_subsample hrnd rand rfl hnarrow hb hrequest⟩

/-- Two saves with a restart between them, and a period that begins after the first and ends before
the second. -/
theorem periods_sampled_in_order_two :
    let lib := Libraries.wire
    let env : Env := { now := 1, now_ne_zero := by decide }
    let events : List ServiceEvent :=
      [.call (.save env { folder := "f", data := [7], timestamp := 5 }),
        .start .localDBClient env {},
        .call (.save env { folder := "f", data := [9], timestamp := 8 })]
    ∃ client b log, (Process.down RocksDB.empty).afterAll lib
          (.start .localDBClient env {} :: events) = .running client ∧
      Archive.Run lib Archive.initial
        ((Process.down RocksDB.empty).log lib (.start .localDBClient env {} :: events)) b ∧
      b "f" = some log ∧ log.map (fun x ↦ x.1.timestamp) = [5, 8] ∧
      ∃ messages, LastWritesUpTo log 6 7 messages ∧
        (Process.running client).ask lib (.getSubsample (fun _ ↦ 0)
            { amount := 3, folder := "f", periodRequest := some (6, 7) }) =
          (.running client, .answer (.written .OK messages)) := by
  intro lib env events
  obtain ⟨client, b, log, hall, hrun, hlog, hstamps, hsampled⟩ :=
    periods_sampled_in_order lib roundsToDouble_id
      (⟨rfl, rfl, rfl, rfl⟩ : FreshStart .localDBClient env {}) (show ∀ e ∈ events, _ by decide)
      (show InOrder (savesTo "f" events) from ⟨by decide, by decide⟩) (by decide)
      (show (6 : UInt64) ≠ 0 by decide) (show (6 : UInt64) ≤ 7 by decide) (by decide)
  obtain ⟨messages, -, hlast, hask, -⟩ := hsampled (fun _ ↦ 0) 3 0 (by decide)
  exact ⟨client, b, log, hall, hrun, hlog, hstamps, messages, hlast, hask⟩

end TimeMachine.Server
