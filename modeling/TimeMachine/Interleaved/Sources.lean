import TimeMachine.Interleaved.Traced

/-!
# What requests write and show

Each request writes at most once, what it was asked to, and a `Save` answers `OK` exactly
if it has written. A read shows messages that were written before its answer.
-/

namespace TimeMachine.Interleaved
open TimeMachine.Base TimeMachine.Base.StateError TimeMachine.Store TimeMachine.Client
open TimeMachine.Server DbClient Threads

variable {pb : Protobuf} {dir : String} {h h' : History} {i : Nat}

/-! ### Saves -/

/-- A `Save` answers `OK`, with the identifier, if it has written, and otherwise it has not. -/
def Reports (i : Nat) (request : SaveRequest) (h : History) (reply : GrpcStatus × ID) : Prop :=
  if reply.1.code = .OK then .did i (.wrote request.folder reply.2 (request.message reply.2)) ∈ h
  else Unwritten i h

/-- What was reported stays true. -/
theorem Reports.later {request : SaveRequest} {reply : GrpcStatus × ID}
    (hr : Reports i request h reply) (hl : Later i h h') : Reports i request h' reply := by
  unfold Reports at hr ⊢
  split
  · next hok =>
    rw [if_pos hok] at hr
    exact hl.did_mem_iff.mpr hr
  · next hno =>
    rw [if_neg hno] at hr
    exact hr.later hl

private theorem traces_save {request : SaveRequest} (hno : Unwritten i h)
    (harrived : .arrived i (.save request) ∈ h) :
    Keeps (fun _ ↦ True) (Traced pb dir) (fun h' _ ↦ Unwritten i h') i (Reports i request)
      (GRPCServer.save pb request) h := by
  apply Keeps.caught (E := fun h' _ ↦ Unwritten i h')
  · apply (traces_getOrCreateColumnFamily hno request.folder).bind
    rintro cf h₁ hpre ⟨hno₁, hcf⟩
    apply (traces_generateId hno₁ request.folder request.timestamp).bind
    rintro id h₂ hpre₂ ⟨hno₂, hstamped⟩
    apply (traces_put hno₂ ((hpre.trans hpre₂).subset harrived) ⟨rfl, rfl⟩ hstamped
      request.wopt hcf).bind
    intro putStatus h₃ _ hput
    apply keeps_ite
    · intro hfailed
      rw [if_neg (by rw [hfailed]; simp)] at hput
      exact keeps_pure fun h₄ hl ↦ hput.later hl
    · intro hok
      rw [if_pos (Bool.eq_true_of_not_eq_false hok)] at hput
      exact keeps_pure fun h₄ hl ↦ hl.did_mem_iff.mpr hput
  · rintro e reply h₁ - hno₁ hcaught h₂ hl
    cases e with
    | exception what =>
      cases hcaught
      exact hno₁.later hl
    | crash => cases hcaught
  · exact fun e h₁ _ hno₁ _ ↦ hno₁

private theorem traces_saveHandler {rand : Nat → Rand} {request : HTTPServerRequest}
    {body : Bytes} {handler : Server.SaveHandler}
    (hhandler : HandlerFactory.createRequestHandler request = some (.save handler))
    (hno : Unwritten i h) (harrived : .arrived i (.http rand request body) ∈ h) :
    Keeps (fun _ ↦ True) (Traced pb dir) (fun _ _ ↦ True) i (fun _ _ ↦ True)
      (SaveHandler.handleRequest pb handler body) h := by
  rw [SaveHandler.handleRequest]
  apply Keeps.caught (E := fun h' _ ↦ Unwritten i h')
  · apply (traces_generateId hno handler.name handler.timestamp).bind
    rintro id h₁ hpre ⟨hno₁, hstamped⟩
    apply (traces_getOrCreateColumnFamily hno₁ handler.name).bind
    rintro cf h₂ hpre₂ ⟨hno₂, hcf⟩
    have hasks : (Incoming.http rand request body).Asks handler.name id
        { id := some id, data := body } := by
      simp only [Incoming.Asks, hhandler, and_self]
    have hts : (Incoming.http rand request body).timestamp = handler.timestamp := by
      simp only [Incoming.timestamp, hhandler]
    rw [← hts] at hstamped
    apply (traces_put hno₂ ((hpre.trans hpre₂).subset harrived) hasks (hstamped.mono hpre₂)
      handler.wopt hcf).bind
    intro putStatus h₃ _ _
    exact keeps_pure fun _ _ ↦ trivial
  · exact fun _ _ _ _ _ _ _ _ ↦ trivial
  · exact fun _ _ _ _ _ ↦ trivial

/-! ### Reads -/

/-- The message was written to the folder, under the identifier it carries. -/
def WrittenTo (folder : String) (h : History) (data : Data) : Prop :=
  ∃ id, data.id = some id ∧ .wrote folder id data ∈ effects h

private theorem writtenTo_of_carried {folder : String} {data : Data}
    (hcarried : Carried pb (Written h pb) folder data) : WrittenTo folder h data := by
  obtain ⟨id, hid, id', message, hmem, heq⟩ := hcarried
  obtain ⟨hkey, hval⟩ := Prod.mk.inj heq
  obtain rfl := serializeID_inj.mp hkey
  obtain rfl := Function.LeftInverse.injective pb.parse_serialize hval
  exact ⟨id, hid, hmem⟩

/-- It stays written. -/
theorem WrittenTo.mono {folder : String} {data : Data} (hw : WrittenTo folder h data)
    (hpre : h <+: h') : WrittenTo folder h' data := by
  obtain ⟨id, hid, hmem⟩ := hw
  exact ⟨id, hid, (effects_isPrefix hpre).subset hmem⟩

private theorem carried_mono {W W' : Writers} {folder : String} {data : Data}
    (hW : ∀ name e, W name e → W' name e) (hc : Carried pb W folder data) :
    Carried pb W' folder data := by
  obtain ⟨id, hid, hw⟩ := hc
  exact ⟨id, hid, hW folder _ hw⟩

/-- An answer to a read of the folder shows messages that were written to it, and for a subsample
the default message. -/
def ShowsWritten (pb : Protobuf) (request : Incoming) (folder : String) (h : History)
    (a : Answer) : Prop :=
  ∃ messages, a.Shows messages ∧ ∀ data ∈ messages,
    WrittenTo folder h data ∨ request.Samples ∧ data = pb.parseFromString []

/-- They stay written. -/
theorem ShowsWritten.mono {request : Incoming} {folder : String} {a : Answer}
    (hs : ShowsWritten pb request folder h a) (hpre : h <+: h') :
    ShowsWritten pb request folder h' a := by
  obtain ⟨messages, hshows, hall⟩ := hs
  exact ⟨messages, hshows, fun data hdata ↦ (hall data hdata).imp_left fun hw ↦ hw.mono hpre⟩

private theorem traces_performIfExists {ρ : Type} {response : ρ} {folder : String}
    {fn : ColumnFamilyHandle → Program (GrpcStatus × ρ)} {Q : History → GrpcStatus × ρ → Prop}
    (hno : Unwritten i h)
    (hfn : ∀ cf h', cf.name = folder → Unwritten i h' → Traces pb dir i Q (fn cf) h')
    (hfailed : ∀ (status : GrpcStatus) h', status.code ≠ .OK → Q h' (status, response)) :
    Traces pb dir i Q (GRPCServer.performIfExists response folder fn) h := by
  apply Keeps.caught (E := fun h' _ ↦ Unwritten i h')
  · apply (traces_getColumnFamily hno folder).bind
    rintro cf h₁ - ⟨hno₁, hcf⟩
    cases cf with
    | none => exact keeps_pure fun h₂ hl ↦ ⟨hno₁.later hl, hfailed _ h₂ (by simp)⟩
    | some cf => exact hfn cf h₁ (hcf cf rfl) hno₁
  · rintro e reply h₁ - hno₁ hcaught h₂ hl
    cases e with
    | exception what =>
      cases hcaught
      exact ⟨hno₁.later hl, hfailed _ h₂ (by simp)⟩
    | crash => cases hcaught
  · exact fun e h₁ _ hno₁ _ ↦ hno₁

private theorem traces_get {request : GetRequest} (hno : Unwritten i h) :
    Traces pb dir i
      (fun h' r ↦ ShowsWritten pb (.get request) request.folder h' (.got r.1 r.2))
      (GRPCServer.get pb request) h := by
  apply traces_performIfExists hno
  · intro cf h₁ hname hno₁
    apply (traces_quiet hno₁ (fun W r₀ hW ↦ tracked_getAction hW request hname)
      (Server.GRPCServer.readOnly_getAction pb request cf) ?_).imp
    · rintro r h₂ - ⟨hno₂, hr⟩
      refine ⟨hno₂, ?_⟩
      rcases hr with ⟨hok, hr⟩ | ⟨hfailed, hr⟩
      · exact ⟨[r.2], by simp [Answer.Shows, hok],
          by simpa using Or.inl (writtenTo_of_carried hr)⟩
      · exact ⟨[], by simp [Answer.Shows, hfailed, hr], by simp⟩
    · exact fun e h₂ _ hno₂ ↦ hno₂
    · intro W W' r hW hr
      exact hr.imp_left fun hshown ↦ ⟨hshown.1, carried_mono hW hshown.2⟩
  · exact fun status h₁ hfailed ↦ ⟨[], by simp [Answer.Shows, hfailed], by simp⟩

private theorem traces_iter {folder : String} {cf : ColumnFamilyHandle} (hname : cf.name = folder)
    (request : RangeRequest) (fn : Callback) (hno : Unwritten i h) :
    Traces pb dir i
      (fun h' records ↦ ∀ r ∈ records, r.2.id = some r.1 ∧ WrittenTo folder h' r.2)
      (quiet (iter pb (some cf) request fn)) h := by
  apply (traces_quiet hno (fun W r₀ hW ↦ tracked_iter hW request fn hname)
    (readOnly_iter pb _ request fn) ?_).imp
  · rintro records h₁ - ⟨hno₁, hall⟩
    exact ⟨hno₁, fun r hr ↦ (hall r hr).imp_right writtenTo_of_carried⟩
  · exact fun e h₁ _ hno₁ ↦ hno₁
  · exact fun records hW hall r hr ↦ (hall r hr).imp_right fun hc ↦ carried_mono hW hc

private theorem traces_getRange {context : Server.GRPCServer.ServerContext}
    {request : RangeRequest} (hno : Unwritten i h) :
    Traces pb dir i
      (fun h' r ↦ ShowsWritten pb (.getRange context request) request.folder h' (.written r.1 r.2))
      (GRPCServer.getRange pb context request) h := by
  apply traces_performIfExists hno
  · intro cf h₁ hname hno₁
    apply (traces_iter hname request _ hno₁).bind
    rintro records h₂ - ⟨hno₂, hall⟩
    apply keeps_pure
    intro h₃ hl
    refine ⟨hno₂.later hl, records.map Prod.snd, rfl, fun data hdata ↦ Or.inl ?_⟩
    obtain ⟨r, hr, rfl⟩ := List.mem_map.mp hdata
    exact (hall r hr).2.mono hl.isPrefix
  · exact fun status h₁ _ ↦ ⟨[], rfl, by simp⟩

private theorem traces_batchLoop {folder : String} {cf : ColumnFamilyHandle}
    (hname : cf.name = folder) (draw : Rand → UInt64) (rand : Nat → Rand)
    (amount batchSize : UInt32) (hno : Unwritten i h) :
    Traces pb dir i
      (fun h' sent ↦ ∀ data ∈ sent, WrittenTo folder h' data ∨ data = pb.parseFromString [])
      (batchLoop pb cf draw rand amount batchSize) h := by
  have hcrash (h : History) (hno : Unwritten i h) : Traces pb dir i
      (fun h' (sent : List Data) ↦
        ∀ data ∈ sent, WrittenTo folder h' data ∨ data = pb.parseFromString [])
      (quiet (throw .crash)) h := by
    apply (traces_quiet hno (R := fun _ _ ↦ False) (fun _ _ _ ↦ yields_throw _)
      (readOnly_throw _) fun _ _ hfalse ↦ hfalse).imp
    · exact fun sent h₁ _ hfalse ↦ hfalse.2.elim
    · exact fun e h₁ _ hno₁ ↦ hno₁
  have hbatches (step : Nat) (is : List Int) (drawn : Nat) (h : History) (hno : Unwritten i h) :
      Traces pb dir i
        (fun h' sent ↦ ∀ data ∈ sent, WrittenTo folder h' data ∨ data = pb.parseFromString [])
        (batches pb cf draw rand step is drawn) h := by
    induction is generalizing drawn h with
    | nil => exact keeps_pure fun h₁ hl ↦ ⟨hno.later hl, by simp⟩
    | cons j rest ih =>
      rw [batches]
      apply keeps_ite
      · intro _
        apply (traces_quiet hno (fun W r₀ hW ↦ tracked_getBatch hW hname _)
          (readOnly_getBatch _ _) ?_).bind
        · rintro statuses h₁ - ⟨hno₁, hstatuses⟩
          apply (ih _ h₁ hno₁).bind
          rintro later h₂ hpre ⟨hno₂, hlater⟩
          apply keeps_pure
          intro h₃ hl
          refine ⟨hno₂.later hl, fun data hdata ↦ ?_⟩
          rcases List.mem_append.mp hdata with hdata | hdata
          · obtain ⟨s, hs, rfl⟩ := List.mem_map.mp hdata
            exact (hstatuses s hs).imp_left fun hc ↦
              (writtenTo_of_carried hc).mono (hpre.trans hl.isPrefix)
          · exact (hlater data hdata).imp_left fun hw ↦ hw.mono hl.isPrefix
        · exact fun statuses hW hall s hs ↦ (hall s hs).imp_left fun hc ↦ carried_mono hW hc
      · intro _
        exact hcrash h hno
  rw [batchLoop]
  split
  · exact hcrash h hno
  · exact hbatches _ _ 0 h hno

private theorem traces_getSubsample {rnd : ℚ → ℚ} {rand : Nat → Rand}
    {request : SubsampleRequest} (hno : Unwritten i h) :
    Traces pb dir i (fun h' r ↦ ShowsWritten pb (.getSubsample rand request) request.folder h'
      (.written r.1 r.2)) (GRPCServer.getSubsample pb rnd rand request) h := by
  apply traces_performIfExists hno
  · intro cf h₁ hname hno₁
    apply (traces_readOnly hno₁ (Server.GRPCServer.readOnly_sampledRange request cf)).bind
    rintro range h₂ - ⟨hno₂, -⟩
    apply (traces_batchLoop hname _ rand request.amount request.batchSize hno₂).bind
    rintro written h₃ - ⟨hno₃, hall⟩
    apply keeps_pure
    intro h₄ hl
    refine ⟨hno₃.later hl, written, rfl, fun data hdata ↦ ?_⟩
    exact (hall data hdata).imp (fun hw ↦ hw.mono hl.isPrefix) fun hd ↦ ⟨trivial, hd⟩
  · exact fun status h₁ _ ↦ ⟨[], rfl, by simp⟩

private theorem traces_getRangeHandler {request : Incoming} {handler : Server.GetRangeHandler}
    (hno : Unwritten i h) :
    Traces pb dir i (fun h' r ↦ ShowsWritten pb request handler.name h' (.http r.1 r.2))
      (GetRangeHandler.handleRequest pb handler) h := by
  apply (traces_getColumnFamily hno handler.name).bind
  rintro cf h₁ - ⟨hno₁, hcf⟩
  cases cf with
  | none => exact keeps_pure fun h₂ hl ↦ ⟨hno₁.later hl, [], rfl, by simp⟩
  | some cf =>
    apply (traces_iter (hcf cf rfl) handler.request frameSize hno₁).bind
    rintro records h₂ - ⟨hno₂, hall⟩
    apply keeps_pure
    intro h₃ hl
    refine ⟨hno₂.later hl, records.map Prod.snd, ?_, fun data hdata ↦ Or.inl ?_⟩
    · exact (messageFrames_map_snd fun r hr ↦ (hall r hr).1).symm
    · obtain ⟨r, hr, rfl⟩ := List.mem_map.mp hdata
      exact (hall r hr).2.mono hl.isPrefix

private theorem traces_subsamplingHandler {rnd : ℚ → ℚ} {rand : Nat → Rand} {request : Incoming}
    (hsamples : request.Samples) {handler : Server.SubsamplingHandler} (hno : Unwritten i h) :
    Traces pb dir i (fun h' r ↦ ShowsWritten pb request handler.name h' (.http r.1 r.2))
      (SubsamplingHandler.handleRequest pb rnd rand handler) h := by
  apply (traces_getColumnFamily hno handler.name).bind
  rintro cf h₁ - ⟨hno₁, hcf⟩
  cases cf with
  | none => exact keeps_pure fun h₂ hl ↦ ⟨hno₁.later hl, [], rfl, by simp⟩
  | some cf =>
    apply (traces_readOnly hno₁ (handler.readOnly_sampledRange cf)).bind
    rintro range h₂ - ⟨hno₂, -⟩
    apply (traces_batchLoop (hcf cf rfl) _ rand handler.amount handler.batchSize hno₂).bind
    rintro written h₃ - ⟨hno₃, hall⟩
    apply keeps_pure
    intro h₄ hl
    refine ⟨hno₃.later hl, written, rfl, fun data hdata ↦ ?_⟩
    exact (hall data hdata).imp (fun hw ↦ hw.mono hl.isPrefix) fun hd ↦ ⟨hsamples, hd⟩

/-! ### Runs -/

/-- What is known of a response: a `Save` reports what it has written, and a read shows what was
written to its folder. -/
structure Honest (pb : Protobuf) (i : Nat) (request : Incoming) (h : History)
    (response : Response) : Prop where
  reports : ∀ status id, response = .answer (.saved status id) →
    ∃ save, request = .save save ∧ Reports i save h (status, id)
  shows : ∀ folder a, request.source = some folder → response = .answer a →
    ShowsWritten pb request folder h a

private theorem Honest.later {request : Incoming} {response : Response}
    (hh : Honest pb i request h response) (hl : Later i h h') : Honest pb i request h' response :=
  ⟨fun status id hanswer ↦ (hh.reports status id hanswer).imp fun _ hr ↦ ⟨hr.1, hr.2.later hl⟩,
    fun folder a hsource hanswer ↦ (hh.shows folder a hsource hanswer).mono hl.isPrefix⟩

private theorem honest_of_source {request : Incoming} {folder : String} {a : Answer}
    (hsource : request.source = some folder) (hno : ∀ status id, a ≠ .saved status id)
    (hshows : ShowsWritten pb request folder h a) : Honest pb i request h (.answer a) := by
  constructor
  · rintro status id hanswer
    cases hanswer
    exact absurd rfl (hno status id)
  · rintro folder' a' hsource' ha
    cases ha
    obtain rfl := Option.some.inj (hsource'.symm.trans hsource)
    exact hshows

private theorem honest_of_http {rand : Nat → Rand} {request : HTTPServerRequest} {body : Bytes}
    (hsource : (Incoming.http rand request body).source = none) (r : HTTPServerResponse)
    (stream : Bytes) : Honest pb i (.http rand request body) h (.answer (.http r stream)) := by
  constructor
  · rintro status id ⟨⟩
  · rintro folder a hsome -
    rw [hsource] at hsome
    cases hsome

private theorem honest_bind {lib : Libraries} {request : Incoming} {folder : String} {β : Type}
    (answer : β → Answer) {p : Program β} (hsource : request.source = some folder)
    (hno : ∀ b status id, answer b ≠ .saved status id)
    (hp : Traces lib.pb dir i (fun h' b ↦ ShowsWritten lib.pb request folder h' (answer b)) p h) :
    Keeps (fun _ ↦ True) (Traced lib.pb dir) (fun _ _ ↦ True) i
      (fun h' a ↦ Honest lib.pb i request h' (.answer a)) (p >>= fun b ↦ pure (answer b)) h := by
  apply (hp.imp (fun b h₁ _ hb ↦ hb.2) fun _ _ _ _ ↦ trivial).bind
  intro b h₁ _ hshows
  exact keeps_pure fun h₂ hl ↦ honest_of_source hsource (hno b) (hshows.mono hl.isPrefix)

private theorem keeps_handleRequest {lib : Libraries} {rand : Nat → Rand}
    {request : HTTPServerRequest} {body : Bytes} {handler : Handler}
    (hhandler : HandlerFactory.createRequestHandler request = some handler)
    (hno : Unwritten i h) (harrived : .arrived i (.http rand request body) ∈ h) :
    Keeps (fun _ ↦ True) (Traced lib.pb dir) (fun _ _ ↦ True) i
      (fun h' a ↦ Honest lib.pb i (.http rand request body) h' (.answer a))
      (handleRequest lib rand body handler) h := by
  cases handler with
  | info => exact keeps_pure fun _ _ ↦ honest_of_http (by simp [Incoming.source, hhandler]) _ _
  | health => exact keeps_pure fun _ _ ↦ honest_of_http (by simp [Incoming.source, hhandler]) _ _
  | notFound => exact keeps_pure fun _ _ ↦ honest_of_http (by simp [Incoming.source, hhandler]) _ _
  | status =>
    apply ((traces_readOnly hno (StatusHandler.readOnly_handleRequest lib.quote)).imp
      (fun _ _ _ _ ↦ trivial) fun _ _ _ _ ↦ trivial).bind
    intro r h₁ _ _
    exact keeps_pure fun _ _ ↦ honest_of_http (by simp [Incoming.source, hhandler]) _ _
  | save handler =>
    apply (traces_saveHandler hhandler hno harrived).bind
    intro r h₁ _ _
    exact keeps_pure fun _ _ ↦ honest_of_http (by simp [Incoming.source, hhandler]) _ _
  | getRange handler =>
    exact honest_bind _ (by simp [Incoming.source, hhandler]) (by simp)
      (traces_getRangeHandler hno)
  | subsampling handler =>
    have hsamples : (Incoming.http rand request body).Samples := by
      simp only [Incoming.Samples, hhandler]
    exact honest_bind _ (by simp [Incoming.source, hhandler]) (by simp)
      (traces_subsamplingHandler hsamples hno)

private theorem keeps_serve {lib : Libraries} {request : Incoming} (hno : Unwritten i h)
    (harrived : .arrived i request ∈ h) :
    Keeps (fun _ ↦ True) (Traced lib.pb dir) (fun _ _ ↦ True) i
      (fun h' a ↦ Honest lib.pb i request h' (.answer a)) (serve lib request) h := by
  cases request with
  | save request =>
    apply ((traces_save hno harrived).imp (fun _ _ _ hr ↦ hr) fun _ _ _ _ ↦ trivial).bind
    intro r h₁ _ hreports
    apply keeps_pure
    intro h₂ hl
    constructor
    · rintro status id hanswer
      cases hanswer
      exact ⟨request, rfl, hreports.later hl⟩
    · rintro folder a ⟨⟩
  | get request => exact honest_bind _ rfl (by simp) (traces_get hno)
  | getRange context request => exact honest_bind _ rfl (by simp) (traces_getRange hno)
  | getSubsample rand request => exact honest_bind _ rfl (by simp) (traces_getSubsample hno)
  | http rand request body =>
    simp only [serve]
    split
    · next handler hhandler => exact keeps_handleRequest hhandler hno harrived
    · next hhandler =>
      apply keeps_pure
      intro h₁ _
      constructor
      · rintro status id ⟨⟩
      · simp [Incoming.source, hhandler]

private theorem contract_traced (lib : Libraries) (dir : String) :
    Contract (program lib) boot (fun _ ↦ True) (Traced lib.pb dir) (Honest lib.pb) := by
  constructor
  · intro s h i request hs hfresh
    have harrived : .arrived i request ∈ h ++ [.arrived i request] :=
      List.mem_append_right h (List.mem_singleton_self _)
    have hno : Unwritten i (h ++ [.arrived i request]) := by
      intro folder id message hmem
      rcases List.mem_append.mp hmem with hold | hlast
      · exact hfresh _ hold rfl
      · simp at hlast
    refine ⟨hs.append (by simp) (by simp), ?_⟩
    apply Keeps.caught (E := fun _ _ ↦ True)
    · apply (keeps_serve hno harrived).bind
      intro a h₁ _ hhonest
      exact keeps_pure fun h₂ hl ↦ hhonest.later hl
    · rintro e response h₁ - - hescaped h₂ -
      cases e with
      | exception what =>
        cases hescaped
        constructor
        · rintro status id ⟨⟩
        · rintro folder a - ⟨⟩
      | crash => cases hescaped
    · exact fun _ _ _ _ _ ↦ trivial
  · intro s h i request response hs _ _
    exact hs.append (by simp) (by simp)
  · intro env s h _ hs
    have hboot := traced_boot env hs
    cases hr : (boot env).run s with
    | ok a t => rwa [hr] at hboot
    | error e t => rwa [hr] at hboot

private theorem kept_traced (lib : Libraries) {impl : Impl} {cfg : Config}
    {ls : List (Threads.Label Env Incoming)} {T : System}
    (hrun : run (step lib) (initial impl cfg) ls = some T) :
    Kept (fun _ ↦ True) (Traced lib.pb (cfg.openDir impl)) (Honest lib.pb) T := by
  have hinitial : Traced lib.pb (cfg.openDir impl) (initial impl cfg).shared [] := by
    constructor
    · exact sourced_empty
    · rintro folder e ⟨id, message, hmem, -⟩
      cases hmem
    · rintro name data hl
      cases hl
    · rfl
    · intro h₁ i folder id message h₂ heq
      simp at heq
    · rintro i now ⟨⟩
  exact kept_run (contract_traced lib _) (fun l _ ↦ by cases l <;> trivial) hrun
    (kept_start hinitial false)

section Runs
variable (lib : Libraries) {impl : Impl} {cfg : Config}
  {ls : List (Threads.Label Env Incoming)} {T : System}
  (hrun : run (step lib) (initial impl cfg) ls = some T)

include hrun

/-- In every run from an empty disk, whatever RocksDB answers, every record of every folder is one
that some request wrote there; each write is one its request asked for, with the timestamp it named
or one it has read off the clock, and its first; and a `Save` answers `OK` exactly if it has
written, under the identifier it answers. -/
theorem stored_was_written :
    (∀ dir folder es, entriesIn T.shared.rocks dir folder = some es → ∀ e ∈ es,
      Written T.history lib.pb folder e) ∧
      (∀ h i folder id message h', T.history = h ++ .did i (.wrote folder id message) :: h' →
        MayWrite i h folder id message) ∧
      ∀ h i status id h', T.history = h ++ .ended i (.answer (.saved status id)) :: h' →
        ∃ request, .arrived i (.save request) ∈ h ∧ Reports i request h (status, id) := by
  have hkept := kept_traced lib hrun
  refine ⟨hkept.shared.sourced, hkept.shared.allowed, fun h i status id h' heq ↦ ?_⟩
  obtain ⟨request, harrived, hhonest⟩ := hkept.answers h i _ h' heq
  obtain ⟨save, rfl, hreports⟩ := hhonest.reports status id rfl
  exact ⟨save, harrived, hreports⟩

end Runs

/-- Two first saves to one folder, of which the second takes the server down, and one after a
restart. -/
theorem stored_was_written_twice_created :
    let env : Env := { now := 1, now_ne_zero := by decide }
    let save (data : Bytes) : Threads.Label Env Incoming :=
      .arrive (.save { folder := "f", data, timestamp := 5 })
    let go (i : Nat) : Threads.Label Env Incoming := .run i env
    let ls := [.start env, save [7], save [8], go 0, go 1, go 0, go 1, .start env, save [9], go 2,
      go 2, go 2, go 2, go 2]
    ∃ T, run (step Libraries.wire) (initial .localDBClient {}) ls = some T ∧
      effects T.history = [.created "f",
        .wrote "f" { timestamp := 5, unique := 0 }
          { id := some { timestamp := 5, unique := 0 }, data := [9] }] ∧
      (∀ dir folder es, entriesIn T.shared.rocks dir folder = some es → ∀ e ∈ es,
        Written T.history Libraries.wire.pb folder e) ∧
      (∀ h i folder id message h', T.history = h ++ .did i (.wrote folder id message) :: h' →
        MayWrite i h folder id message) ∧
      ∀ h i status id h', T.history = h ++ .ended i (.answer (.saved status id)) :: h' →
        ∃ request, .arrived i (.save request) ∈ h ∧ Reports i request h (status, id) := by
  intro env save go ls
  have heffects : (run (step Libraries.wire) (initial .localDBClient {}) ls).map
      (fun T ↦ effects T.history) = some [.created "f",
        .wrote "f" { timestamp := 5, unique := 0 }
          { id := some { timestamp := 5, unique := 0 }, data := [9] }] := by decide +kernel
  obtain ⟨T, hrun, hT⟩ := Option.map_eq_some_iff.mp heffects
  exact ⟨T, hrun, hT, stored_was_written Libraries.wire hrun⟩

/-- In every run from an empty disk, whatever RocksDB answers, an answer to a read of a folder shows
only messages that were written to it before, under the identifiers they carry, or for a subsample
the default message. -/
theorem read_was_written (lib : Libraries) {impl : Impl} {cfg : Config}
    {ls : List (Threads.Label Env Incoming)} {T : System}
    (hrun : run (step lib) (initial impl cfg) ls = some T) {h h' : History} {i : Nat} {a : Answer}
    (hT : T.history = h ++ .ended i (.answer a) :: h') :
    ∃ request, .arrived i request ∈ h ∧ ∀ folder, request.source = some folder →
      ShowsWritten lib.pb request folder h a := by
  obtain ⟨request, harrived, hhonest⟩ := (kept_traced lib hrun).answers h i _ h' hT
  exact ⟨request, harrived, fun folder hsource ↦ hhonest.shows folder a hsource rfl⟩

/-- A range read that shows what a save has written that has not answered yet. -/
theorem read_was_written_in_progress :
    let env : Env := { now := 1, now_ne_zero := by decide }
    let go (i : Nat) : Threads.Label Env Incoming := .run i env
    let ls := [.start env, .arrive (.save { folder := "default", data := [7], timestamp := 5 }),
      .arrive (.getRange ⟨fun _ ↦ false⟩ { folder := "default" }), go 1, go 0, go 0, go 0, go 0,
      go 1, go 1]
    ∃ T h h', run (step Libraries.wire) (initial .localDBClient {}) ls = some T ∧
      T.history = h ++ .ended 1 (.answer (.written .OK
        [{ id := some { timestamp := 5, unique := 0 }, data := [7] }])) :: h' ∧
      ∃ request, .arrived 1 request ∈ h ∧ ∀ folder, request.source = some folder →
        ShowsWritten Libraries.wire.pb request folder h (.written .OK
          [{ id := some { timestamp := 5, unique := 0 }, data := [7] }]) := by
  intro env go ls
  have hanswers : (run (step Libraries.wire) (initial .localDBClient {}) ls).map
      (fun T ↦ answers T.history) = some [(1, .answer (.written .OK
        [{ id := some { timestamp := 5, unique := 0 }, data := [7] }]))] := by decide +kernel
  obtain ⟨T, hrun, hT⟩ := Option.map_eq_some_iff.mp hanswers
  have hmem := mem_answers.mp (hT ▸ List.mem_singleton_self _)
  obtain ⟨h, h', hh⟩ := List.append_of_mem hmem
  exact ⟨T, h, h', hrun, hh, read_was_written Libraries.wire hrun hh⟩

/-- In every run from an empty disk, whatever RocksDB answers, the key of each write so far is
stored in its folder. -/
theorem keys_kept_interleaved (lib : Libraries) {impl : Impl} {cfg : Config}
    {ls : List (Threads.Label Env Incoming)} {T : System}
    (hrun : run (step lib) (initial impl cfg) ls = some T) {folder : String} {id : ID}
    {message : Data} (hwrote : .wrote folder id message ∈ effects T.history) :
    ∃ es, entriesIn T.shared.rocks (cfg.openDir impl) folder = some es ∧
      ∃ e ∈ es, e.1 = serializeID id :=
  (kept_traced lib hrun).shared.present folder _ ⟨id, message, hwrote, rfl⟩

/-- A write, a crash by a stale handle, and a start that fails. -/
theorem keys_kept_interleaved_stale :
    let env : Env := { now := 1, now_ne_zero := by decide }
    let go (i : Nat) : Threads.Label Env Incoming := .run i env
    let save (folder : String) : Threads.Label Env Incoming :=
      .arrive (.save { folder, data := [7], timestamp := 5 })
    let ls := [.start env, save "default", save "default", go 0, go 0, go 0, go 0, go 1,
      save "f", go 2, go 2, go 1, go 1, go 1,
      .start { env with reopen := .failed "IO error" }]
    ∃ T, run (step Libraries.wire) (initial .localDBClient {}) ls = some T ∧ T.up = false ∧
      ∃ es, entriesIn T.shared.rocks "default" "default" = some es ∧
        ∃ e ∈ es, e.1 = serializeID { timestamp := 5, unique := 0 } := by
  intro env go save ls
  have heffects : (run (step Libraries.wire) (initial .localDBClient {}) ls).map
      (fun T ↦ (effects T.history, T.up)) = some ([.wrote "default"
        { timestamp := 5, unique := 0 }
        { id := some { timestamp := 5, unique := 0 }, data := [7] }, .created "f"], false) := by
    decide +kernel
  obtain ⟨T, hrun, hT⟩ := Option.map_eq_some_iff.mp heffects
  obtain ⟨hT, hup⟩ := Prod.mk.inj hT
  exact ⟨T, hrun, hup, keys_kept_interleaved Libraries.wire hrun (hT ▸ List.mem_cons_self)⟩

end TimeMachine.Interleaved
