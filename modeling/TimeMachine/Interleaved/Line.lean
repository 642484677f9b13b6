import TimeMachine.Interleaved.Archived

/-!
# Requests in line

Each request but a subsample is answered by the archive, at one step of its own between
its arrival and its answer. A save makes sure of its folder at steps before; there its
write is the step, and of a refused write the moment does not matter.
-/

namespace TimeMachine.Interleaved
open TimeMachine.Base TimeMachine.Base.StateError TimeMachine.Store TimeMachine.Client
open TimeMachine.Server DbClient Threads

variable {lib : Libraries} {h : History} {i : Nat}

/-- Since the arrival of the request the archive has answered it so, at a step of the request's
own. -/
def InLine (lib : Libraries) (i : Nat) (request : Incoming) (h : History) (response : Response) :
    Prop :=
  ∃ (before : History) (w : List Effect) (env : Env),
    .arrived i request ∈ before ∧ before ++ w.map (.did i) <+: h ∧
      Archive.Step lib (archive before) (.call (request.call env)) response
        (archive (before ++ w.map (.did i)))

/-- It has answered it so at any later moment. -/
theorem InLine.mono {request : Incoming} {response : Response} {h' : History}
    (hline : InLine lib i request h response) (hpre : h <+: h') :
    InLine lib i request h' response := by
  obtain ⟨before, w, env, harrived, hbefore, hstep⟩ := hline
  exact ⟨before, w, env, harrived, hbefore.trans hpre, hstep⟩

/-- What leaves the archive as it is takes effect at any moment. -/
theorem inLine_of_step {request : Incoming} {response : Response}
    (harrived : .arrived i request ∈ h) (env : Env)
    (hstep : Archive.Step lib (archive h) (.call (request.call env)) response (archive h)) :
    InLine lib i request h response := by
  refine ⟨h, [], env, harrived, ?_, ?_⟩
  · simp only [List.map_nil, List.append_nil, List.prefix_rfl]
  · rw [archive_did]
    exact hstep

/-! ### Saves -/

private def envOf {now : UInt64} (h : now ≠ 0) (put : Status) : Env :=
  { now, now_ne_zero := h, put }

private theorem effectiveTs_envOf {now ts : UInt64} (h : now ≠ 0) (put : Status)
    (hts : ts ≠ 0 → now = ts) : now = effectiveTs (envOf h put) ts := by
  unfold effectiveTs
  split
  · rfl
  · next hne => exact hts hne

private theorem inLine_of_wrote {request : Incoming} {response : Response} {before : History}
    (harrived : .arrived i request ∈ before) {folder : String} {id : ID} {message : Data}
    (hafter : before ++ [Effect.wrote folder id message].map (.did i) <+: h) (env : Env)
    (hstep : Archive.Step lib (archive before) (.call (request.call env)) response
      ((archive before).append folder [(id, message)])) : InLine lib i request h response := by
  refine ⟨before, _, env, harrived, hafter, ?_⟩
  rw [archive_did]
  exact hstep

-- a refused write makes sure of its folder, and that exists by then
private theorem inLine_of_refused {request : Incoming} {response : Response}
    (harrived : .arrived i request ∈ h) {folder : String} {cf : Option ColumnFamilyHandle}
    (hcf : Has folder h cf) (env : Env)
    (hstep : Archive.Step lib (archive h) (.call (request.call env)) response
      ((archive h).append folder [])) : InLine lib i request h response := by
  obtain ⟨_, -, -, hsome⟩ := hcf
  rw [append_nil_of_isSome hsome] at hstep
  exact inLine_of_step harrived env hstep

private theorem archives_caught {β : Type} {Q : History → β → Prop} {p : Program β}
    {handle : Failure → Option β} (hcrash : handle .crash = none) (hp : Archives pb i Q p h) :
    Archives pb i Q (p.caught handle) h := by
  apply Keeps.caught hp
  · rintro e b h' - rfl hsome
    rw [hcrash] at hsome
    cases hsome
  · exact fun e h' _ he _ ↦ he

private theorem keeps_save {request : SaveRequest} (harrived : .arrived i (.save request) ∈ h) :
    Archives lib.pb i (fun h' r ↦ InLine lib i (.save request) h' (.answer (.saved r.1 r.2)))
      (GRPCServer.save lib.pb request) h := by
  apply archives_caught rfl
  apply (keeps_getOrCreateColumnFamily request.folder).bind
  intro cf h₁ hpre hcf
  apply (keeps_generateId request.folder request.timestamp).bind
  rintro id h₂ hpre₂ ⟨hid, hts⟩
  have hcf₂ := hcf.mono hpre₂
  apply (keeps_put request.wopt hcf₂ hid rfl).bind
  intro putStatus h₃ hpre₃ hput
  have hin : .arrived i (.save request) ∈ h₃ :=
    ((hpre.trans hpre₂).trans hpre₃).subset harrived
  split
  · next hno =>
    apply keeps_pure
    intro h₄ hl
    cases putStatus with
    | ok => cases hno
    | failed text =>
      have hstep : Archive.Step lib (archive h₃)
          (.call (.save (envOf hid (.failed text)) request)) _ _ := .refused rfl
      exact (inLine_of_refused hin (hcf₂.mono hpre₃) _ hstep).mono hl.isPrefix
  · next hok =>
    apply keeps_pure
    intro h₄ hl
    obtain ⟨before, hbefore, hafter⟩ := hput (Bool.eq_true_of_not_eq_false hok)
    have hstep : Archive.Step lib (archive before)
        (.call (.save (envOf hid .ok) request)) _ _ := .saved rfl (effectiveTs_envOf hid .ok hts)
    have hin' := ((hpre.trans hpre₂).trans hbefore).subset harrived
    exact (inLine_of_wrote hin' hafter _ hstep).mono hl.isPrefix

private theorem keeps_saveHandler {rand : Nat → Rand} {request : HTTPServerRequest} {body : Bytes}
    {handler : Server.SaveHandler}
    (hhandler : HandlerFactory.createRequestHandler request = some (.save handler))
    (harrived : .arrived i (.http rand request body) ∈ h) :
    Archives lib.pb i (fun h' r ↦ InLine lib i (.http rand request body) h' (.answer (.http r [])))
      (SaveHandler.handleRequest lib.pb handler body) h := by
  rw [SaveHandler.handleRequest]
  apply archives_caught rfl
  apply (keeps_generateId handler.name handler.timestamp).bind
  rintro id h₁ hpre ⟨hid, hts⟩
  apply (keeps_getOrCreateColumnFamily handler.name).bind
  intro cf h₂ hpre₂ hcf
  apply (keeps_put handler.wopt hcf hid rfl).bind
  intro putStatus h₃ hpre₃ hput
  apply keeps_pure
  intro h₄ hl
  -- a refused write sets the status that is set already
  simp only [HTTPServerResponse.setStatus, ite_self]
  cases putStatus with
  | ok =>
    obtain ⟨before, hbefore, hafter⟩ := hput rfl
    have hstep : Archive.Step lib (archive before)
        (.call (.http (envOf hid .ok) rand request body)) _
        ((archive before).append handler.name [(id, { id := some id, data := body })]) :=
      .posted hhandler (effectiveTs_envOf hid .ok hts)
    have hin := ((hpre.trans hpre₂).trans hbefore).subset harrived
    exact (inLine_of_wrote hin hafter _ hstep).mono hl.isPrefix
  | failed text =>
    have hin : .arrived i (.http rand request body) ∈ h₃ :=
      ((hpre.trans hpre₂).trans hpre₃).subset harrived
    have hstep : Archive.Step lib (archive h₃)
        (.call (.http (envOf hid (.failed text)) rand request body)) _
        ((archive h₃).append handler.name []) :=
      .posted hhandler (effectiveTs_envOf hid (.failed text) hts)
    exact (inLine_of_refused hin (hcf.mono hpre₃) _ hstep).mono hl.isPrefix

/-! ### Reads -/

private theorem keeps_tells {β : Type} {request : Incoming} (answer : β → Answer)
    (harrived : .arrived i request ∈ h) {x : ClientM β}
    (hx : ∀ s h', h <+: h' → Archived lib.pb s h' →
      match x.run s with
      | .ok b t => t = s ∧ ∀ env,
          Tells lib ((archive h').contents lib.pb) (answer b) (request.call env)
      | .error e t => t = s ∧ e = .crash) :
    Archives lib.pb i (fun h' b ↦ InLine lib i request h' (.answer (answer b))) (quiet x) h := by
  apply keeps_quiet
  intro s h' hpre hs
  have hrun := hx s h' hpre hs
  cases hr : x.run s with
  | ok b t =>
    rw [hr] at hrun
    obtain ⟨rfl, htells⟩ := hrun
    have hline := inLine_of_step (hpre.subset harrived) _
      (.read (htells { now := 1, now_ne_zero := by decide }))
    exact ⟨rfl, fun h'' hpre' ↦ hline.mono hpre'⟩
  | error e t =>
    rw [hr] at hrun
    exact hrun

private theorem inLine_of_absent {request : Incoming} {folder : String} {h' : History} {a : Answer}
    (harrived : .arrived i request ∈ h) (habsent : Found folder h h' none)
    (htells : ∀ C env, C folder = none → Tells lib C a (request.call env)) :
    InLine lib i request h' (.answer a) := by
  obtain ⟨h₀, hpre₀, hpre₁, hnone⟩ := habsent
  have hfolder : (archive h₀).contents lib.pb folder = none := by
    rw [Archive.contents, hnone]
    rfl
  have hstep := htells _ { now := 1, now_ne_zero := by decide } hfolder
  exact (inLine_of_step (hpre₀.subset harrived) _ (.read hstep)).mono hpre₁

private theorem keeps_performIfExists {ρ : Type} {response : ρ} {folder : String}
    {fn : ColumnFamilyHandle → Program (GrpcStatus × ρ)} {request : Incoming}
    (answer : GrpcStatus × ρ → Answer) {found : ColumnFamily → GrpcStatus × ρ}
    (harrived : .arrived i request ∈ h)
    (htells : ∀ C a env, Tells lib C a (request.call env) ↔
      a = answer (Server.GRPCServer.fromFolder response folder found (C folder)))
    (hfn : ∀ cf h', h <+: h' → cf.name = folder → (archive h' folder).isSome →
      Archives lib.pb i (fun h' r ↦ InLine lib i request h' (.answer (answer r))) (fn cf) h') :
    Archives lib.pb i (fun h' r ↦ InLine lib i request h' (.answer (answer r)))
      (GRPCServer.performIfExists response folder fn) h := by
  apply archives_caught rfl
  apply (keeps_getColumnFamily folder).bind
  intro cf h₁ hpre hcf
  cases cf with
  | none =>
    apply keeps_pure
    intro h₂ hl
    apply inLine_of_absent harrived (hcf.mono hl.isPrefix)
    intro C env hnone
    apply (htells C _ env).mpr
    rw [hnone]
    rfl
  | some cf => exact hfn cf h₁ hpre hcf.1 hcf.2

private theorem keeps_deref {β : Type} {request : Incoming} (answer : β → Answer)
    (harrived : .arrived i request ∈ h) {cf : ColumnFamilyHandle} {folder : String}
    (hname : cf.name = folder) (hn : (archive h folder).isSome) {g : ColumnFamily → β}
    (htells : ∀ C es env, C folder = some es → Tells lib C (answer (g es)) (request.call env)) :
    Archives lib.pb i (fun h' b ↦ InLine lib i request h' (.answer (answer b)))
      (quiet (deref (some cf) >>= fun p ↦ pure (g p.2))) h := by
  apply keeps_tells answer harrived
  intro s h' hpre hs
  by_cases hdb : s.db = some cf.db
  · obtain ⟨f, hf, hcontents⟩ := hs.folder (isSome_archive_of_isPrefix hpre hn)
    rw [run_bind_of_ok (run_deref_of_view hs.serves hdb (hname ▸ hf))]
    exact ⟨rfl, fun env ↦ htells _ f.records env hcontents⟩
  · rw [run_bind_of_error (run_deref_of_closed hdb)]
    exact ⟨rfl, rfl⟩

private theorem getAction_eq (pb : Protobuf) (request : GetRequest) (cf : ColumnFamilyHandle) :
    Server.GRPCServer.getAction pb request cf = deref (some cf) >>= fun p ↦
      pure (lookupAnswer pb
        (serializeID { timestamp := request.timestamp, unique := request.unique }) p.2) := by
  rw [Server.GRPCServer.getAction, DbClient.get, bind_assoc]
  congr 1
  funext p
  simp only [lookupAnswer]
  cases OrderedStore.get IDComparator.compare _ p.2 with
  | none => rfl
  | some val => rfl

private theorem keeps_get {request : GetRequest} (harrived : .arrived i (.get request) ∈ h) :
    Archives lib.pb i (fun h' r ↦ InLine lib i (.get request) h' (.answer (.got r.1 r.2)))
      (GRPCServer.get lib.pb request) h := by
  apply keeps_performIfExists (fun r ↦ .got r.1 r.2) harrived
  · exact fun C a env ↦ Iff.rfl
  · intro cf h' hpre hname hn
    rw [getAction_eq]
    apply keeps_deref _ (hpre.subset harrived) hname hn
    intro C es env hes
    simp only [Incoming.call, Tells, hes, Server.GRPCServer.fromFolder]

private theorem keeps_getRange {context : Server.GRPCServer.ServerContext}
    {request : RangeRequest} (harrived : .arrived i (.getRange context request) ∈ h) :
    Archives lib.pb i
      (fun h' r ↦ InLine lib i (.getRange context request) h' (.answer (.written r.1 r.2)))
      (GRPCServer.getRange lib.pb context request) h := by
  apply keeps_performIfExists (fun r ↦ .written r.1 r.2) harrived
  · exact fun C a env ↦ Iff.rfl
  · intro cf h' hpre hname hn
    apply (keeps_deref (fun records ↦ .written .OK (records.map Prod.snd))
      (hpre.subset harrived) hname hn ?_).bind
    · intro records h'' _ hline
      exact keeps_pure fun h₃ hl ↦ hline.mono hl.isPrefix
    · intro C es env hes
      simp only [Incoming.call, Tells, hes, Server.GRPCServer.fromFolder]

private theorem keeps_getRangeHandler {rand : Nat → Rand} {request : HTTPServerRequest}
    {body : Bytes} {handler : Server.GetRangeHandler}
    (hhandler : HandlerFactory.createRequestHandler request = some (.getRange handler))
    (harrived : .arrived i (.http rand request body) ∈ h) :
    Archives lib.pb i
      (fun h' r ↦ InLine lib i (.http rand request body) h' (.answer (.http r.1 r.2)))
      (GetRangeHandler.handleRequest lib.pb handler) h := by
  have htells (C : Contents) (a : Answer) (env : Env) :
      Tells lib C a ((Incoming.http rand request body).call env) ↔
        a = .http (httpFromFolder (rangeStream lib.pb handler) (C handler.name)).1
          (httpFromFolder (rangeStream lib.pb handler) (C handler.name)).2 := by
    simp only [Incoming.call, Tells, hhandler, Handler.Tells]
  apply (keeps_getColumnFamily handler.name).bind
  intro cf h₁ hpre hcf
  cases cf with
  | none =>
    apply keeps_pure
    intro h₂ hl
    apply inLine_of_absent harrived (hcf.mono hl.isPrefix)
    intro C env hnone
    rw [htells, hnone]
    rfl
  | some cf =>
    apply (keeps_deref (fun records ↦ .http (({} : HTTPServerResponse).send.setStatus 200)
      (frames records)) (hpre.subset harrived) hcf.1 hcf.2 ?_).bind
    · intro records h₂ _ hline
      exact keeps_pure fun h₃ hl ↦ hline.mono hl.isPrefix
    · intro C es env hes
      rw [htells, hes]
      rfl

private theorem keeps_status {rand : Nat → Rand} {request : HTTPServerRequest} {body : Bytes}
    (hhandler : HandlerFactory.createRequestHandler request = some .status)
    (harrived : .arrived i (.http rand request body) ∈ h) :
    Archives lib.pb i (fun h' r ↦ InLine lib i (.http rand request body) h' (.answer (.http r [])))
      (quiet (StatusHandler.handleRequest lib.quote)) h := by
  apply keeps_tells (fun r ↦ .http r []) harrived
  intro s h' _ hs
  obtain ⟨names, hlists, hrun⟩ := run_statusHandler hs.serves lib.quote
  rw [hrun]
  refine ⟨rfl, fun env ↦ ?_⟩
  simp only [Incoming.call, Tells, hhandler, Handler.Tells]
  rw [← hs.contents]
  exact ⟨names, hlists, rfl⟩

/-! ### Subsamples -/

private theorem keeps_of_readOnly {β : Type} {x : ClientM β} (hx : ReadOnly x) :
    Keeps Healthy (Archived lib.pb) (fun _ _ ↦ True) i (fun _ _ ↦ True) (quiet x) h := by
  apply keeps_quiet
  intro s h' _ _
  have hrun := hx s s rfl
  cases hr : x.run s with
  | ok b t =>
    rw [hr] at hrun
    exact ⟨hrun.1, fun _ _ ↦ trivial⟩
  | error e t =>
    rw [hr] at hrun
    exact ⟨hrun, trivial⟩

private theorem keeps_batchLoop (cf : ColumnFamilyHandle) (draw : Rand → UInt64)
    (rand : Nat → Rand) (amount batchSize : UInt32) :
    Keeps Healthy (Archived lib.pb) (fun _ _ ↦ True) i (fun _ _ ↦ True)
      (batchLoop lib.pb cf draw rand amount batchSize) h := by
  have hbatches (step : Nat) (is : List Int) (drawn : Nat) (h : History) :
      Keeps Healthy (Archived lib.pb) (fun _ _ ↦ True) i (fun _ _ ↦ True)
        (batches lib.pb cf draw rand step is drawn) h := by
    induction is generalizing drawn h with
    | nil => exact keeps_pure fun _ _ ↦ trivial
    | cons j rest ih =>
      rw [batches]
      apply keeps_ite
      · intro _
        apply (keeps_of_readOnly (readOnly_getBatch _ _)).bind
        intro statuses h₁ _ _
        apply (ih _ h₁).bind
        intro later h₂ _ _
        exact keeps_pure fun _ _ ↦ trivial
      · intro _
        exact keeps_of_readOnly (readOnly_throw _)
  rw [batchLoop]
  split
  · exact keeps_of_readOnly (readOnly_throw _)
  · exact hbatches _ _ 0 h

private theorem keeps_getSubsample (rand : Nat → Rand) (request : SubsampleRequest) :
    Keeps Healthy (Archived lib.pb) (fun _ _ ↦ True) i (fun _ _ ↦ True)
      (GRPCServer.getSubsample lib.pb lib.rnd rand request) h := by
  apply Keeps.caught (E := fun _ _ ↦ True)
  · apply (keeps_getColumnFamily request.folder).bind
    intro cf h₁ _ _
    cases cf with
    | none => exact keeps_pure fun _ _ ↦ trivial
    | some cf =>
      apply (keeps_of_readOnly (Server.GRPCServer.readOnly_sampledRange request cf)).bind
      intro range h₂ _ _
      apply (keeps_batchLoop cf _ rand request.amount request.batchSize).bind
      intro written h₃ _ _
      exact keeps_pure fun _ _ ↦ trivial
  · exact fun _ _ _ _ _ _ _ _ ↦ trivial
  · exact fun _ _ _ _ _ ↦ trivial

private theorem keeps_subsamplingHandler (rand : Nat → Rand)
    (handler : Server.SubsamplingHandler) :
    Keeps Healthy (Archived lib.pb) (fun _ _ ↦ True) i (fun _ _ ↦ True)
      (SubsamplingHandler.handleRequest lib.pb lib.rnd rand handler) h := by
  apply (keeps_getColumnFamily handler.name).bind
  intro cf h₁ _ _
  cases cf with
  | none => exact keeps_pure fun _ _ ↦ trivial
  | some cf =>
    apply (keeps_of_readOnly (handler.readOnly_sampledRange cf)).bind
    intro range h₂ _ _
    apply (keeps_batchLoop cf _ rand handler.amount handler.batchSize).bind
    intro written h₃ _ _
    exact keeps_pure fun _ _ ↦ trivial

/-! ### Runs -/

private def Answers (lib : Libraries) (i : Nat) (request : Incoming) (p : Program Answer)
    (h : History) : Prop :=
  Keeps Healthy (Archived lib.pb) (fun _ e ↦ request.Samples ∨ e = .crash) i
    (fun h' a ↦ ¬ request.Samples → InLine lib i request h' (.answer a)) p h

private theorem answers_of_inLine {β : Type} {request : Incoming} {p : Program β}
    (answer : β → Answer)
    (hp : Archives lib.pb i (fun h' b ↦ InLine lib i request h' (.answer (answer b))) p h) :
    Answers lib i request (p >>= fun b ↦ pure (answer b)) h := by
  apply (hp.imp (fun b h' _ hline ↦ hline) fun e h' _ he ↦ Or.inr he).bind
  intro b h₁ _ hline
  exact keeps_pure fun h₂ hl _ ↦ hline.mono hl.isPrefix

private theorem answers_of_samples {β : Type} {request : Incoming} (hsamples : request.Samples)
    {p : Program β} (answer : β → Answer)
    (hp : Keeps Healthy (Archived lib.pb) (fun _ _ ↦ True) i (fun _ _ ↦ True) p h) :
    Answers lib i request (p >>= fun b ↦ pure (answer b)) h := by
  apply (hp.imp (fun b h' _ htrivial ↦ htrivial) fun e h' _ _ ↦ Or.inl hsamples).bind
  intro b h₁ _ _
  exact keeps_pure fun h₂ _ hno ↦ absurd hsamples hno

private theorem answers_handleRequest {rand : Nat → Rand} {request : HTTPServerRequest}
    {body : Bytes} {handler : Handler}
    (hhandler : HandlerFactory.createRequestHandler request = some handler)
    (harrived : .arrived i (.http rand request body) ∈ h) :
    Answers lib i (.http rand request body) (handleRequest lib rand body handler) h := by
  have hnow {a : Answer} (htells : ∀ C env, Tells lib C a (.http env rand request body)) :
      Answers lib i (.http rand request body) (pure a) h :=
    keeps_pure fun h' hl _ ↦ inLine_of_step (hl.isPrefix.subset harrived) _
      (.read (htells _ { now := 1, now_ne_zero := by decide }))
  cases handler with
  | info =>
    apply hnow
    simp [Tells, hhandler, Handler.Tells]
  | health =>
    apply hnow
    simp [Tells, hhandler, Handler.Tells]
  | notFound =>
    apply hnow
    simp [Tells, hhandler, Handler.Tells]
  | status => exact answers_of_inLine _ (keeps_status hhandler harrived)
  | save handler => exact answers_of_inLine _ (keeps_saveHandler hhandler harrived)
  | getRange handler => exact answers_of_inLine _ (keeps_getRangeHandler hhandler harrived)
  | subsampling handler =>
    have hsamples : (Incoming.http rand request body).Samples := by
      simp only [Incoming.Samples, hhandler]
    exact answers_of_samples hsamples _ (keeps_subsamplingHandler rand handler)

private theorem answers_serve {request : Incoming} (harrived : .arrived i request ∈ h) :
    Answers lib i request (serve lib request) h := by
  cases request with
  | save request => exact answers_of_inLine _ (keeps_save harrived)
  | get request => exact answers_of_inLine _ (keeps_get harrived)
  | getRange context request => exact answers_of_inLine _ (keeps_getRange harrived)
  | getSubsample rand request =>
    have hsamples : (Incoming.getSubsample rand request).Samples := trivial
    exact answers_of_samples hsamples _ (keeps_getSubsample rand request)
  | http rand request body =>
    simp only [serve]
    split
    · next handler hhandler => exact answers_handleRequest hhandler harrived
    · next hhandler =>
      apply keeps_pure
      intro h' hl _
      apply inLine_of_step (hl.isPrefix.subset harrived) { now := 1, now_ne_zero := by decide }
      apply Archive.Step.read
      simp only [Incoming.call, Tells, hhandler]

private theorem contract_archived (lib : Libraries) :
    Contract (program lib) boot Healthy (Archived lib.pb)
      fun i request h response ↦ ¬ request.Samples → InLine lib i request h response := by
  constructor
  · intro s h i request hs _
    refine ⟨⟨hs.serves, by rw [archive_arrived]; exact hs.contents,
      by rw [archive_arrived]; exact hs.dated⟩, ?_⟩
    have harrived : .arrived i request ∈ h ++ [.arrived i request] :=
      List.mem_append_right h (List.mem_singleton_self _)
    apply Keeps.caught (E := fun _ e ↦ request.Samples ∨ e = .crash)
    · apply (answers_serve harrived).bind
      intro a h₁ _ hline
      exact keeps_pure fun h₂ hl hno ↦ (hline hno).mono hl.isPrefix
    · rintro e response h' - (hsamples | rfl) he h'' _ hno
      · exact absurd hsamples hno
      · cases he
    · exact fun _ _ _ _ _ ↦ trivial
  · intro s h i request response hs _ _
    exact ⟨hs.serves, by rw [archive_ended]; exact hs.contents,
      by rw [archive_ended]; exact hs.dated⟩
  · intro env s h henv hs
    obtain ⟨t, hrun, ht, hview, -⟩ := run_restart hs.serves henv
    have hboot : (boot env).run s = .ok () t := hrun
    rw [hboot]
    exact hs.of_contents ht (by rw [hview, Folders.contents_reopen])

private theorem step_start (lib : Libraries) {impl : Impl} {env : Env} {cfg : Config}
    (hstart : FreshStart impl env cfg) :
    ∃ first, step lib (initial impl cfg) (.start env) = some { shared := first, up := true } ∧
      Archived lib.pb first [] := by
  obtain ⟨first, hrun⟩ := start_of_empty impl cfg env hstart.same_dir hstart.fakeOpen hstart.list
    hstart.reopen
  obtain ⟨j, hserv⟩ := start_serving hstart.same_dir hrun
  have hboot : (boot env).run (initial impl cfg).shared = .ok () first := hrun
  refine ⟨first, ?_, ⟨j, _, hserv⟩, contents_start_empty lib.pb hrun, Archive.dated_initial⟩
  rw [step, Threads.step, hboot]
  rfl

section Runs
variable (lib : Libraries) {impl : Impl} {env : Env} {cfg : Config}
  (hstart : FreshStart impl env cfg) {ls : List (Threads.Label Env Incoming)}
  (hls : ∀ l ∈ ls, l.Under Healthy) {T : System}
  (hrun : run (step lib) (initial impl cfg) (.start env :: ls) = some T)

include hstart hls hrun

private theorem kept_archived :
    Kept Healthy (Archived lib.pb)
      (fun i request h response ↦ ¬ request.Samples → InLine lib i request h response) T := by
  obtain ⟨first, hfirst, hs⟩ := step_start lib hstart
  obtain ⟨T₀, hT₀, hrest⟩ := run_cons_eq_some.mp hrun
  rw [hfirst] at hT₀
  cases hT₀
  exact kept_run (contract_archived lib) hls hrest (kept_start hs true)

end Runs

/-- A write to the folder. -/
def Effect.writeTo (folder : String) : Effect → Option (ID × Data)
  | wrote name id message => if name = folder then some (id, message) else none
  | clocked _ | created _ => none

/-- The writes to a folder, oldest first. -/
def writesTo (folder : String) (h : History) : List (ID × Data) :=
  (effects h).filterMap (Effect.writeTo folder)

/-- The archive holds the writes. -/
theorem getD_archive (h : History) (folder : String) :
    (archive h folder).getD [] = writesTo folder h := by
  have hfold (w : List Effect) (a : Archive) :
      (w.foldl Effect.archive a folder).getD [] =
        (a folder).getD [] ++ w.filterMap (Effect.writeTo folder) := by
    induction w generalizing a with
    | nil => exact (List.append_nil _).symm
    | cons e w ih =>
      rw [List.foldl_cons, ih, List.filterMap_cons]
      cases e with
      | clocked now => rfl
      | created name =>
        simp only [Effect.archive, Effect.writeTo, Archive.append_apply]
        split
        · next hname => simp [hname]
        · rfl
      | wrote name id message =>
        simp only [Effect.archive, Effect.writeTo, Archive.append_apply]
        by_cases hname : name = folder
        · subst hname
          simp
        · rw [if_neg hname, if_neg (Ne.symm hname)]
  have hinitial : (Archive.initial folder).getD [] = [] := by
    rw [Archive.initial, Function.update_apply]
    split <;> rfl
  rw [archive, hfold, hinitial, List.nil_append, writesTo]

private theorem getD_contents (pb : Protobuf) (h : History) (folder : String) :
    ((archive h).contents pb folder).getD [] =
      OrderedStore.replay IDComparator.compare ((writesTo folder h).map (Archive.entry pb)) := by
  rw [Archive.contents, ← getD_archive]
  cases archive h folder with
  | none => rfl
  | some log => rfl

private theorem dated_writesTo {h : History} (hdated : (archive h).Dated) (folder : String) :
    Archive.DatedLog (writesTo folder h) := by
  rw [← getD_archive]
  cases hlog : archive h folder with
  | none => simp [Archive.DatedLog]
  | some log => exact hdated folder log hlog

/-- Two runs leave the same records in a folder exactly if their writes to it end in the same one
under each identifier. -/
theorem stored_eq_iff (lib : Libraries) {impl impl' : Impl} {env env' : Env} {cfg cfg' : Config}
    (hstart : FreshStart impl env cfg) (hstart' : FreshStart impl' env' cfg')
    {ls ls' : List (Threads.Label Env Incoming)} (hls : ∀ l ∈ ls, l.Under Healthy)
    (hls' : ∀ l ∈ ls', l.Under Healthy) {T T' : System}
    (hrun : run (step lib) (initial impl cfg) (.start env :: ls) = some T)
    (hrun' : run (step lib) (initial impl' cfg') (.start env' :: ls') = some T')
    (folder : String) :
    (T.shared.view.contents folder).getD [] = (T'.shared.view.contents folder).getD [] ↔
      ∀ id, lastWrite id (writesTo folder T.history) =
        lastWrite id (writesTo folder T'.history) := by
  have hs := (kept_archived lib hstart hls hrun).shared
  have hs' := (kept_archived lib hstart' hls' hrun').shared
  rw [hs.contents, hs'.contents, getD_contents, getD_contents]
  exact replay_entries_eq_iff lib.pb (dated_writesTo hs.dated folder)
    (dated_writesTo hs'.dated folder)

/-- Two saves whose writes come in either order. -/
theorem stored_eq_iff_same :
    let env : Env := { now := 1, now_ne_zero := by decide }
    let save (data : Bytes) : Threads.Label Env Incoming :=
      .arrive (.save { folder := "default", data, timestamp := 5 })
    let go (i : Nat) : Threads.Label Env Incoming := .run i env
    let ls := [save [7], save [8], go 0, go 1, go 0, go 0, go 1, go 1, go 1, go 0]
    let ls' := [save [7], go 0, go 0, go 0, go 0, save [8], go 1, go 1, go 1, go 1]
    ∃ T T', run (step Libraries.wire) (initial .localDBClient {}) (.start env :: ls) = some T ∧
      run (step Libraries.wire) (initial .localDBClient {}) (.start env :: ls') = some T' ∧
      ((T.shared.view.contents "default").getD [] = (T'.shared.view.contents "default").getD [] ↔
        ∀ id, lastWrite id (writesTo "default" T.history) =
          lastWrite id (writesTo "default" T'.history)) := by
  intro env save go ls ls'
  have hruns : (run (step Libraries.wire) (initial .localDBClient {}) (.start env :: ls)).isSome ∧
      (run (step Libraries.wire) (initial .localDBClient {}) (.start env :: ls')).isSome := by
    decide +kernel
  obtain ⟨T, hrun⟩ := Option.isSome_iff_exists.mp hruns.1
  obtain ⟨T', hrun'⟩ := Option.isSome_iff_exists.mp hruns.2
  exact ⟨T, T', hrun, hrun', stored_eq_iff Libraries.wire ⟨rfl, rfl, rfl, rfl⟩
    ⟨rfl, rfl, rfl, rfl⟩ (by decide) (by decide) hrun hrun' "default"⟩

end TimeMachine.Interleaved
