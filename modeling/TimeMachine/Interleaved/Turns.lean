import TimeMachine.Base.Turns
import TimeMachine.Interleaved.Programs

/-!
# Every request ends

How many steps serve a request, and that each request gets to take them: no step leaves
the lock taken, so whatever the others do, a request has ended after that many, and with
its answer unless the server has gone down.
-/

namespace TimeMachine.Interleaved
open TimeMachine.Base TimeMachine.Base.Threads TimeMachine.Store TimeMachine.Client
open TimeMachine.Server

/-- The steps of a loop that subsamples: one for each batch. -/
def batchSteps (amount batchSize : UInt32) : Nat :=
  (countdown (stepOf amount batchSize) amount.toInt32.toInt).elim 1 List.length

/-- The steps that serve an HTTP request. -/
def handlerSteps : Handler → Nat
  | .info | .health | .notFound => 0
  | .status => 1
  | .getRange _ => 2
  | .subsampling handler => batchSteps handler.amount handler.batchSize + 2
  | .save _ => 9

/-- The steps that serve a request: nine for a write, two for a lookup or a range. -/
def Incoming.steps : Incoming → Nat
  | .save _ => 9
  | .get _ | .getRange .. => 2
  | .getSubsample _ request => batchSteps request.amount request.batchSize + 2
  | .http _ request _ => (HandlerFactory.createRequestHandler request).elim 0 handlerSteps

section Within
variable (pb : Protobuf)

private theorem within_quiet {α : Type} (x : ClientM α) : (quiet x).Within 1 :=
  Steps.within_atomic _ _

private theorem within_getOrCreateColumnFamily (name : String) :
    (getOrCreateColumnFamily name).Within 3 := by
  apply Steps.Within.bind (m := 1) (n := 2)
  · exact within_quiet _
  · intro found
    apply (Steps.within_pure _ _).ite
    · apply Steps.Within.bind (m := 1) (n := 1)
      · exact Steps.within_atomic _ _
      · exact fun _ ↦ within_quiet _

private theorem within_generateId (folder : String) (ts : UInt64) :
    (generateId folder ts).Within 5 := by
  apply Steps.Within.bind (m := 1) (n := 4)
  · exact (Steps.within_atomic _ _).ite (Steps.within_pure _ _)
  · intro timestamp
    apply Steps.Within.bind (m := 3) (n := 1)
    · exact within_getOrCreateColumnFamily folder
    · exact fun _ ↦ (within_quiet _).bind_pure _

private theorem within_save (request : SaveRequest) : (GRPCServer.save pb request).Within 9 := by
  apply Steps.Within.caught
  apply Steps.Within.bind (m := 3) (n := 6)
  · exact within_getOrCreateColumnFamily _
  · intro cf
    apply Steps.Within.bind (m := 5) (n := 1)
    · exact within_generateId _ _
    · intro id
      apply Steps.Within.bind (m := 1) (n := 0)
      · exact Steps.within_atomic _ _
      · intro putStatus
        exact (Steps.within_pure _ _).ite (Steps.within_pure _ _)

private theorem within_saveHandler (h : Server.SaveHandler) (body : Bytes) :
    (SaveHandler.handleRequest pb h body).Within 9 := by
  apply Steps.Within.caught
  apply Steps.Within.bind (m := 5) (n := 4)
  · exact within_generateId _ _
  · intro id
    apply Steps.Within.bind (m := 3) (n := 1)
    · exact within_getOrCreateColumnFamily _
    · intro cf
      apply Steps.Within.bind_pure
      exact Steps.within_atomic _ _

private theorem within_performIfExists {ρ : Type} (response : ρ) (baseName : String)
    {fn : ColumnFamilyHandle → Program (GrpcStatus × ρ)} {n : Nat} (hfn : ∀ cf, (fn cf).Within n) :
    (GRPCServer.performIfExists response baseName fn).Within (1 + n) := by
  apply Steps.Within.caught
  apply Steps.Within.bind
  · exact within_quiet _
  · intro found
    cases found with
    | none => exact Steps.within_pure _ _
    | some cf => exact hfn cf

private theorem within_batches (cf : ColumnFamilyHandle) (draw : Rand → UInt64) (rand : Nat → Rand)
    (step : Nat) (is : List Int) (drawn : Nat) :
    (batches pb cf draw rand step is drawn).Within is.length := by
  induction is generalizing drawn with
  | nil => exact Steps.within_pure _ _
  | cons i rest ih =>
    rw [List.length_cons, Nat.add_comm rest.length 1, batches]
    apply Steps.Within.ite
    · apply Steps.Within.bind
      · exact within_quiet _
      · exact fun statuses ↦ (ih _).bind_pure _
    · exact (within_quiet _).mono (Nat.le_add_right 1 _)

private theorem within_batchLoop (cf : ColumnFamilyHandle) (draw : Rand → UInt64)
    (rand : Nat → Rand) (amount batchSize : UInt32) :
    (batchLoop pb cf draw rand amount batchSize).Within (batchSteps amount batchSize) := by
  rw [batchLoop, batchSteps]
  cases countdown (stepOf amount batchSize) amount.toInt32.toInt with
  | none => exact within_quiet _
  | some is => exact within_batches pb cf draw rand _ is 0

private theorem within_get (request : GetRequest) : (GRPCServer.get pb request).Within 2 := by
  apply within_performIfExists (n := 1)
  exact fun cf ↦ within_quiet _

private theorem within_getRange (context : Server.GRPCServer.ServerContext)
    (request : RangeRequest) : (GRPCServer.getRange pb context request).Within 2 := by
  apply within_performIfExists (n := 1)
  exact fun cf ↦ (within_quiet _).bind_pure _

private theorem within_getSubsample (rnd : ℚ → ℚ) (rand : Nat → Rand) (request : SubsampleRequest) :
    (GRPCServer.getSubsample pb rnd rand request).Within
      (batchSteps request.amount request.batchSize + 2) := by
  rw [Nat.add_comm _ 2, show 2 = 1 + 1 from rfl, Nat.add_assoc]
  apply within_performIfExists
  intro cf
  apply Steps.Within.bind
  · exact within_quiet _
  · exact fun range ↦ (within_batchLoop pb cf _ rand _ _).bind_pure _

private theorem within_getRangeHandler (h : Server.GetRangeHandler) :
    (GetRangeHandler.handleRequest pb h).Within 2 := by
  apply Steps.Within.bind (m := 1) (n := 1)
  · exact within_quiet _
  · intro found
    cases found with
    | none => exact Steps.within_pure _ _
    | some cf => exact (within_quiet _).bind_pure _

private theorem within_subsamplingHandler (rnd : ℚ → ℚ) (rand : Nat → Rand)
    (h : Server.SubsamplingHandler) :
    (SubsamplingHandler.handleRequest pb rnd rand h).Within
      (batchSteps h.amount h.batchSize + 2) := by
  rw [Nat.add_comm _ 2, show 2 = 1 + 1 from rfl, Nat.add_assoc]
  apply Steps.Within.bind
  · exact within_quiet _
  · intro found
    cases found with
    | none => exact Steps.within_pure _ _
    | some cf =>
      apply Steps.Within.bind
      · exact within_quiet _
      · exact fun range ↦ (within_batchLoop pb cf _ rand _ _).bind_pure _

end Within

private theorem within_serve (lib : Libraries) (request : Incoming) :
    (serve lib request).Within request.steps := by
  cases request with
  | save request => exact (within_save lib.pb request).bind_pure _
  | get request => exact (within_get lib.pb request).bind_pure _
  | getRange context request => exact (within_getRange lib.pb context request).bind_pure _
  | getSubsample rand request =>
    exact (within_getSubsample lib.pb lib.rnd rand request).bind_pure _
  | http rand request body =>
    rw [serve, Incoming.steps]
    cases HandlerFactory.createRequestHandler request with
    | none => exact Steps.within_pure _ _
    | some handler =>
      cases handler with
      | info => exact Steps.within_pure _ _
      | health => exact Steps.within_pure _ _
      | notFound => exact Steps.within_pure _ _
      | status => exact (within_quiet _).bind_pure _
      | save handler => exact (within_saveHandler lib.pb handler body).bind_pure _
      | getRange handler => exact (within_getRangeHandler lib.pb handler).bind_pure _
      | subsampling handler =>
        exact (within_subsamplingHandler lib.pb lib.rnd rand handler).bind_pure _

/-- The program of a request takes no more than these steps, whatever it finds. -/
theorem within_program (lib : Libraries) (request : Incoming) :
    (program lib request).Within request.steps :=
  ((within_serve lib request).bind_pure Response.answer).caught escaped

/-- In every run from an empty disk, whatever RocksDB answers and whatever the other requests do, a
request takes at most one turn for each of its steps and one to answer, it has ended after that
many, and until it has, it can take the next; none answers twice; and while the server is up and
not started again, each request that ends has answered. -/
theorem requests_end (lib : Libraries) {impl : Impl} {cfg : Config}
    {ls : List (Threads.Label Env Incoming)} {T : System}
    (hrun : run (step lib) (initial impl cfg) ls = some T) :
    (∀ i t, T.threads[i]? = some t →
      turns i ls ≤ t.request.steps + 1 ∧
      (turns i ls = t.request.steps + 1 → t.rest = none) ∧
      (t.rest.isSome → ∀ env, (step lib T (.run i env)).isSome)) ∧
    ((answers T.history).map Prod.fst).Nodup ∧
    ∀ ls' T', run (step lib) T ls' = some T' → (∀ l ∈ ls', l.isStart = false) → T'.up = true →
      ∀ i t, T'.threads[i]? = some t → t.rest = none →
        (∀ u, T.threads[i]? = some u → u.rest.isSome) → ∃ a, (i, a) ∈ answers T'.history := by
  refine ⟨fun i t hi ↦ ⟨?_, ?_, ?_⟩, ?_, ?_⟩
  · exact turns_le (within_program lib) hrun hi
  · intro hturns
    apply rest_eq_none_of_turns (within_program lib) hrun hi
    omega
  · exact step_run_isSome hi
  · exact nodup_answers hrun
  · intro ls' T' hrun' hls' hup i t hi ht hgoing
    rcases ended_of_run hrun' hls' hup hi ht with ⟨u, hu, hrest⟩ | ⟨a, ha⟩
    · have hsome := hgoing u hu
      rw [hrest] at hsome
      cases hsome
    · exact ⟨a, mem_answers.mpr ha⟩

/-- A save, a subsample that arrives during it, and the turns of both. -/
theorem requests_end_subsample :
    let env : Env := { now := 1, now_ne_zero := by decide }
    let go (i : Nat) : Threads.Label Env Incoming := .run i env
    let ls := [.start env, .arrive (.save { folder := "default", data := [7], timestamp := 5 }),
      go 0]
    let ls' := [.arrive (.getSubsample (fun _ ↦ 0)
      { folder := "default", amount := 2, batchSize := 1 }), go 1, go 0, go 1, go 0, go 1, go 0,
      go 0, go 1, go 1]
    ∃ T T', run (step Libraries.wire) (initial .localDBClient {}) ls = some T ∧
      run (step Libraries.wire) T ls' = some T' ∧ T'.threads.length = 2 ∧
      (∀ i t, T'.threads[i]? = some t → t.rest = none ∧ ∃ a, (i, a) ∈ answers T'.history) := by
  intro env go ls ls'
  have hsome : (run (step Libraries.wire) (initial .localDBClient {}) ls).map
      (fun T ↦ T.threads.map fun t ↦ t.rest.isSome) = some [true] := by decide +kernel
  obtain ⟨T, hrun, hT⟩ := Option.map_eq_some_iff.mp hsome
  have hnone : (run (step Libraries.wire) (initial .localDBClient {}) (ls ++ ls')).map
      (fun T ↦ (T.up, T.threads.map fun t ↦ t.rest.isNone)) = some (true, [true, true]) := by
    decide +kernel
  obtain ⟨T', hrun', hT'⟩ := Option.map_eq_some_iff.mp hnone
  obtain ⟨hup, hthreads⟩ := Prod.mk.inj hT'
  obtain ⟨T'', hrun'', hlast⟩ := run_append_eq_some.mp hrun'
  obtain rfl : T'' = T := Option.some.inj (hrun''.symm.trans hrun)
  refine ⟨T'', T', hrun, hlast, by simpa using congrArg List.length hthreads, fun i t hi ↦ ?_⟩
  have hended : t.rest = none := by
    have hmem := List.mem_map_of_mem (f := fun t ↦ t.rest.isNone) (List.mem_of_getElem? hi)
    rw [hthreads] at hmem
    simpa using hmem
  refine ⟨hended, ?_⟩
  apply (requests_end Libraries.wire hrun).2.2 ls' T' hlast (by decide) hup i t hi hended
  intro u hu
  have hmem := List.mem_map_of_mem (f := fun t ↦ t.rest.isSome) (List.mem_of_getElem? hu)
  rw [hT] at hmem
  simpa using hmem

end TimeMachine.Interleaved
