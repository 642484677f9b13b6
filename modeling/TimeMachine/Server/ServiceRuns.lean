import TimeMachine.Server.Answers

/-!
# Runs of the service

An event of the service that stands for an event of the process does and answers the
same. The others only read; on a server whose RocksDB does what it is asked they are
answered and leave it as it was, if no subsample has batches without buffers. So hiding
them from a run of the service leaves the run of the process with the same answers.
Restarts are clean: RocksDB keeps every write over them, logged or not.
-/

namespace TimeMachine.Server
open TimeMachine.Base TimeMachine.Base.StateError TimeMachine.Store TimeMachine.Client DbClient

variable (lib : Libraries)

/-- A call that stands for no event does not write. -/
theorem Call.not_writes_of_event {c : Call} (h : c.event = none) : ¬ c.Writes := by
  cases c with
  | save env request => cases h
  | get request => exact id
  | getRange context request => exact id
  | getSubsample rand request => exact id
  | http env rand request body =>
    intro hroute
    have hput : HandlerFactory.route request = .put := hroute
    simp [event, hput] at h

private theorem ask_eq_call {α : Type} (x : ClientM α) (wrap : α → Answer) {reply : α → Reply}
    {c : Call} (hc : c.serve lib = x >>= fun a ↦ pure (wrap a))
    (hreply : ∀ a, (Response.answer (wrap a)).reply = reply a) (p : Process) :
    (p.ask lib c).1 = (p.call x reply).1 ∧ (p.ask lib c).2.reply = (p.call x reply).2 := by
  cases p with
  | down rocks => exact ⟨rfl, rfl⟩
  | running client =>
    simp only [Process.ask, Process.call, hc, EStateM.run_bind]
    cases x.run client with
    | ok a t => exact ⟨rfl, hreply a⟩
    | error failure t =>
      cases failure with
      | exception what => exact ⟨rfl, rfl⟩
      | crash => exact ⟨rfl, rfl⟩

/-- An event of the service that stands for an event of the process does and answers the same,
whatever the state of the server. -/
theorem serve_eq_step (p : Process) {e : ServiceEvent} {e' : Event} (h : e.event = some e') :
    (p.serve lib e).1 = (p.step lib.pb e').1 ∧
      (p.serve lib e).2.reply = (p.step lib.pb e').2 := by
  cases e with
  | start impl env cfg =>
    cases h
    simp only [Process.serve, Process.step]
    cases start impl env cfg p.rocks with
    | ok a t => exact ⟨rfl, rfl⟩
    | error failure t => exact ⟨rfl, rfl⟩
  | call c =>
    cases c with
    | save env request =>
      cases h
      exact ask_eq_call lib (GRPCServer.save lib.pb env request) (fun r ↦ .saved r.1 r.2) rfl
        (fun a ↦ rfl) p
    | get request =>
      cases h
      exact ask_eq_call lib (GRPCServer.get lib.pb request) (fun r ↦ .got r.1 r.2) rfl
        (fun a ↦ rfl) p
    | getRange context request => cases h
    | getSubsample rand request => cases h
    | http env rand request body =>
      by_cases hroute : HandlerFactory.route request = .put
      · have hevent : e' =
            .post env (request.path.get 0) request.queryParameters body := by
          simpa [ServiceEvent.event, Call.event, hroute] using h.symm
        subst hevent
        refine ask_eq_call lib _ (fun response ↦ .http response []) ?_ (fun a ↦ rfl) p
        simp only [Call.serve, HandlerFactory.createRequestHandler_of_put hroute,
          Handler.handleRequest]
      · simp [ServiceEvent.event, Call.event] at h

/-! ### Runs -/

/-- The event is not a subsample of batches without a buffer. -/
def ServiceEvent.Buffered : ServiceEvent → Prop
  | .start .. => True
  | .call c => c.Buffered

instance ServiceEvent.Buffered.decidable : ∀ e : ServiceEvent, Decidable e.Buffered
  | .start .. => isTrue trivial
  | .call c => inferInstanceAs (Decidable c.Buffered)

/-- RocksDB does what the event asks of it, except that it may refuse a write; a start is a clean
restart under the same configuration; the batches of a subsample have buffers. -/
structure ServiceEvent.Durable (impl : Impl) (cfg : Config) (e : ServiceEvent) : Prop where
  event : ∀ e' ∈ e.event, Server.Durable impl cfg e'
  buffered : e.Buffered

instance (impl : Impl) (cfg : Config) (e : ServiceEvent) : Decidable (e.Durable impl cfg) :=
  decidable_of_iff ((∀ e' ∈ e.event, Server.Durable impl cfg e') ∧ e.Buffered)
    ⟨fun h ↦ ⟨h.1, h.2⟩, fun h ↦ ⟨h.event, h.buffered⟩⟩

/-- The event of the process and the reply to it that an entry of the log stands for. -/
def replied (x : ServiceEvent × Response) : Option (Event × Reply) :=
  x.1.event.map fun e ↦ (e, x.2.reply)

/-- The event is a start that succeeded or a call that got an answer. -/
def Answered (x : ServiceEvent × Response) : Prop :=
  match x with
  | (.start .., r) => r = .none
  | (.call _, r) => ∃ a, r = .answer a

variable {s : DbClient}

/-- A durable event of the service leaves a client that serves, and is answered. -/
theorem serve_continues (hs : Serves s) {e : ServiceEvent} (he : e.Durable s.impl s.cfg) :
    ∃ t, ((Process.running s).serve lib e).1 = .running t ∧ Continues s t ∧
      (e.event = none → t = s) ∧ Answered (e, ((Process.running s).serve lib e).2) := by
  cases e with
  | start impl env cfg =>
    obtain ⟨rfl, rfl, henv⟩ := he.event _ rfl
    obtain ⟨t, hrun, ht, -, himpl, hcfg⟩ := run_restart hs henv
    have hserve : (Process.running s).serve lib (.start s.impl env s.cfg) =
        (.running t, .none) := by
      simp only [Process.serve, Process.rocks, hrun]
    rw [hserve]
    exact ⟨t, rfl, ⟨ht, himpl, hcfg⟩, by simp [ServiceEvent.event], rfl⟩
  | call c =>
    -- a call that runs to an answer is answered
    have hok {a : Answer} {t : DbClient} (hrun : (c.serve lib).run s = .ok a t) :
        (Process.running s).serve lib (.call c) = (.running t, .answer a) := by
      simp only [Process.serve, Process.ask, hrun]
    by_cases hw : c.Writes
    · cases c with
      | save env request =>
        obtain ⟨f, t, -, hrun, ht, -⟩ := run_save hs (he.event _ rfl) lib.pb request
        have hserve := hok (t := t) (by rw [Call.serve, run_bind_of_ok hrun]; rfl)
        rw [hserve]
        exact ⟨t, rfl, ht, by simp [ServiceEvent.event, Call.event], _, rfl⟩
      | get request => exact hw.elim
      | getRange context request => exact hw.elim
      | getSubsample rand request => exact hw.elim
      | http env rand request body =>
        have hput : HandlerFactory.route request = .put := hw
        have hevent : (ServiceEvent.call (.http env rand request body)).event =
            some (.post env (request.path.get 0) request.queryParameters body) := by
          simp [ServiceEvent.event, Call.event, hput]
        obtain ⟨f, t, -, hrun, ht, -⟩ := run_handleRequest hs (he.event _ hevent) lib.pb
          (createSaveHandler (request.path.get 0) request.queryParameters) body
        have hserve := hok (t := t) (by
          simp only [Call.serve, HandlerFactory.createRequestHandler_of_put hput,
            Handler.handleRequest, run_bind_of_ok hrun]
          rfl)
        rw [hserve]
        exact ⟨t, rfl, ht, by simp [hevent], _, rfl⟩
    · obtain ⟨a, hrun, -⟩ := run_serve_of_not_writes hs lib hw he.buffered
      rw [hok hrun]
      exact ⟨s, rfl, ⟨hs, rfl, rfl⟩, fun _ ↦ rfl, a, rfl⟩

/-- In a run of durable events every call is answered, and without the calls that stand for no
event it is the run of the process, with the same replies. -/
theorem serve_refines (hs : Serves s) {events : List ServiceEvent}
    (he : ∀ e ∈ events, e.Durable s.impl s.cfg) :
    ∃ t, (Process.running s).afterAll lib events = .running t ∧ Continues s t ∧
      (Process.running s).after lib.pb (events.filterMap ServiceEvent.event) = .running t ∧
      ((Process.running s).log lib events).filterMap replied =
        (Process.running s).trace lib.pb (events.filterMap ServiceEvent.event) ∧
      ∀ x ∈ (Process.running s).log lib events, Answered x := by
  induction events generalizing s with
  | nil => exact ⟨s, rfl, ⟨hs, rfl, rfl⟩, rfl, rfl, by simp [Process.log]⟩
  | cons e rest ih =>
    obtain ⟨r, hserve, hr, hread, hans⟩ := serve_continues lib hs (he e List.mem_cons_self)
    obtain ⟨t, hall, ht, hafter, hlog, hrest⟩ := ih hr.serves fun e' he' ↦ by
      rw [hr.impl, hr.cfg]
      exact he e' (List.mem_cons_of_mem e he')
    have hcont : Continues s t := ⟨ht.serves, ht.impl.trans hr.impl, ht.cfg.trans hr.cfg⟩
    have hlogcons : (Process.running s).log lib (e :: rest) =
        (e, ((Process.running s).serve lib e).2) :: (Process.running r).log lib rest := by
      rw [Process.log, hserve]
    have hallcons : (Process.running s).afterAll lib (e :: rest) = .running t := by
      rw [Process.afterAll, List.foldl_cons, hserve]
      exact hall
    refine ⟨t, hallcons, hcont, ?_⟩
    rw [hlogcons]
    refine ⟨?_, ?_, List.forall_mem_cons.mpr ⟨hans, hrest⟩⟩
    · cases hev : e.event with
      | none =>
        rw [hread hev] at hafter
        rw [List.filterMap_cons_none hev]
        exact hafter
      | some e' =>
        rw [List.filterMap_cons_some hev, Process.after, List.foldl_cons,
          ← (serve_eq_step lib _ hev).1, hserve]
        exact hafter
    · cases hev : e.event with
      | none =>
        rw [hread hev] at hlog
        rw [List.filterMap_cons_none hev, List.filterMap_cons_none (by rw [replied, hev]; rfl),
          hread hev]
        exact hlog
      | some e' =>
        obtain ⟨hstate, hreply⟩ := serve_eq_step lib (.running s) hev
        rw [List.filterMap_cons_some hev,
          List.filterMap_cons_some (b := (e', ((Process.running s).step lib.pb e').2))
            (by rw [replied, hev, Option.map_some, hreply]),
          Process.trace, ← hstate, hserve, hlog]

end TimeMachine.Server
