import TimeMachine.Server.Subsample

/-!
# Routing

`HandlerFactory::createRequestHandler` takes a request to the handler of its route and
reads the handler's parameters out of the query. The put route guards the conversion of
its parameter; the subsampling and the range route do not, and a text that
`std::stoul` or `std::stoi` refuses throws through the factory.
-/

namespace TimeMachine.Server
open TimeMachine.Base Strtol

/-- `Poco::Path`: the directories of a path, and the name behind them. -/
structure Path where
  dirs : List String
  name : String
  deriving DecidableEq, Repr

namespace Path

/-- `depth`. -/
def depth (path : Path) : Nat := path.dirs.length

/-- `operator []`. -/
def get (path : Path) (n : Nat) : String := path.dirs.getD n path.name

end Path

/-- A `Poco::Net::HTTPServerRequest`: its method, its URI as it was sent, and the path and the
query parameters that `Poco::URI` and `Poco::Path` take from the URI. -/
structure HTTPServerRequest where
  method : String
  uri : String
  path : Path
  queryParameters : List (String × String) := []
  deriving DecidableEq, Repr

/-- The branches of the factory. -/
inductive Route where
  | info
  | status
  | put
  | subsampling
  | get
  | health
  | notFound
  deriving DecidableEq, Repr

/-- The handlers the factory makes. -/
inductive Handler where
  | info
  | status
  | save (handler : SaveHandler)
  | subsampling (handler : SubsamplingHandler)
  | getRange (handler : GetRangeHandler)
  | health
  | notFound
  deriving DecidableEq, Repr

namespace HandlerFactory

/-- The branch taken for a request; the conditions of
`src/handlers/HandlerFactory.cpp:30–184`. -/
def route (request : HTTPServerRequest) : Route :=
  if (request.uri = "/" ∨ request.uri = "") ∧ request.method = "GET" then .info
  else if request.uri = "/status" ∧ request.method = "GET" then .status
  else if request.method = "POST" ∧ request.path.depth = 1 ∧ request.path.get 1 = "put" then .put
  else if request.method = "GET" ∧ request.path.depth = 1 ∧ request.path.get 1 = "subsampling" then
    .subsampling
  else if request.method = "GET" ∧ request.path.depth = 1 ∧ request.path.get 1 = "get" then .get
  else if request.uri = "/health" ∧ request.method = "GET" then .health
  else .notFound

/-- A numeric parameter: under its key the value is converted, and set unless it is `-1`. -/
def numeric {H α : Type} [DecidableEq α] [Neg α] [OfNat α 1] (key : String)
    (convert : String → Option α) (set : H → α → H) (kv : String × String) (h : H) : Option H :=
  if key = kv.1 then do
    let val ← convert kv.2
    return if val ≠ -1 then set h val else h
  else return h

/-- `std::stoi` assigned to an `unsigned int`. -/
def stoui (text : String) : Option UInt32 := (stoi text).map Int32.toUInt32

/-- One query parameter of the subsampling route; `src/handlers/HandlerFactory.cpp:79–113`. -/
def subsamplingStep (h : SubsamplingHandler) (kv : String × String) :
    Option SubsamplingHandler := do
  let h ← numeric "from" stoul (fun h from_ ↦ { h with from' := from_ }) kv h
  let h ← numeric "to" stoul (fun h till_ ↦ { h with till := till_ }) kv h
  let h ← numeric "amount" stoui (fun h val ↦ { h with amount := val }) kv h
  numeric "batchSize" stoui (fun h val ↦ { h with batchSize := val }) kv h

/-- The subsampling route; `src/handlers/HandlerFactory.cpp:69–117`. -/
def createSubsamplingHandler (name : String) (query : List (String × String)) :
    Option SubsamplingHandler :=
  query.foldlM subsamplingStep { name, from' := 0, till := 0, amount := 0, batchSize := 100 }

/-- One query parameter of the range route; `src/handlers/HandlerFactory.cpp:129–171`. -/
def getStep (h : GetRangeHandler) (kv : String × String) : Option GetRangeHandler := do
  let h ← numeric "from" stoul (fun h from_ ↦ { h with from' := from_ }) kv h
  let h ← numeric "to" stoul (fun h till_ ↦ { h with till := till_ }) kv h
  let h ← numeric "maxBytes" stoul (fun h maxBytes_ ↦ { h with maxBytes := maxBytes_ }) kv h
  let h ← numeric "maxMessages" stoul (fun h maxMessages_ ↦
    { h with maxMessages := maxMessages_ }) kv h
  return if "reverse" = kv.1 ∧ kv.2 = "true" then { h with reverse := true } else h

/-- The range route; `src/handlers/HandlerFactory.cpp:118–176`. -/
def createGetRangeHandler (name : String) (query : List (String × String)) :
    Option GetRangeHandler :=
  query.foldlM getStep
    { name, from' := 0, till := UInt64.ofNat (2 ^ 64 - 1), maxMessages := 0, maxBytes := 0
      reverse := false }

/-- `src/handlers/HandlerFactory.cpp:23–187`; `none` where an exception escapes. -/
def createRequestHandler (request : HTTPServerRequest) : Option Handler :=
  let name := request.path.get 0
  let query := request.queryParameters
  match route request with
  | .info => some .info
  | .status => some .status
  | .put => some (.save (createSaveHandler name query))
  | .subsampling => (createSubsamplingHandler name query).map .subsampling
  | .get => (createGetRangeHandler name query).map .getRange
  | .health => some .health
  | .notFound => some .notFound

/-! ### Parameters that do not parse -/

/-- A parameter that is no number of its route, or can be converted to one. -/
def Parses : Route → String × String → Prop
  | .put, kv => kv.1 = "timestamp" → (stol kv.2).isSome
  | .subsampling, kv =>
    (kv.1 ∈ ["from", "to"] → (stoul kv.2).isSome) ∧
      (kv.1 ∈ ["amount", "batchSize"] → (stoi kv.2).isSome)
  | .get, kv => kv.1 ∈ ["from", "to", "maxBytes", "maxMessages"] → (stoul kv.2).isSome
  | .info, _ | .status, _ | .health, _ | .notFound, _ => True

instance Parses.decidable (r : Route) (kv : String × String) : Decidable (Parses r kv) := by
  cases r <;> unfold Parses <;> infer_instance

/-- The request without the parameters that do not parse. -/
def ignoringUnparsed (request : HTTPServerRequest) : HTTPServerRequest :=
  { request with
    queryParameters := request.queryParameters.filter (Parses (route request) ·) }

/-- The factory returns a handler, and it is the handler of the request without the parameters
that do not parse. -/
def Answers (request : HTTPServerRequest) : Prop :=
  ∃ handler, createRequestHandler request = some handler ∧
    createRequestHandler (ignoringUnparsed request) = some handler

/-! ### The query loops -/

/-- A loop whose steps succeed or throw by their input alone succeeds if all of them do. -/
theorem isSome_foldlM_iff {σ α : Type} {step : σ → α → Option σ} {ok : α → Prop}
    (hstep : ∀ s a, (step s a).isSome ↔ ok a) (l : List α) (s : σ) :
    (l.foldlM step s).isSome ↔ ∀ a ∈ l, ok a := by
  induction l generalizing s with
  | nil => simp
  | cons a l ih =>
    rw [List.foldlM_cons, List.forall_mem_cons, ← hstep s a]
    cases step s a with
    | none => simp
    | some s' => simpa using ih s'

/-- A conversion throws under its key only. -/
theorem isSome_numeric_iff {H α : Type} [DecidableEq α] [Neg α] [OfNat α 1] (key : String)
    (convert : String → Option α) (set : H → α → H) (kv : String × String) (h : H) :
    (numeric key convert set kv h).isSome ↔ (kv.1 = key → (convert kv.2).isSome) := by
  unfold numeric
  split
  · next hkey =>
    cases convert kv.2 <;> simp [hkey]
  · next hkey =>
    simp [Ne.symm hkey]

/-- Of two conversions, one after the other, neither may throw. -/
theorem isSome_bind_iff {σ τ : Type} {x : Option σ} {f : σ → Option τ} {p q : Prop}
    (hx : x.isSome ↔ p) (hf : ∀ s, (f s).isSome ↔ q) : (x >>= f).isSome ↔ p ∧ q := by
  rw [← hx]
  cases x with
  | none => simp
  | some s => simpa using hf s

/-- A parameter of the subsampling route throws unless it parses. -/
theorem isSome_subsamplingStep_iff (h : SubsamplingHandler) (kv : String × String) :
    (subsamplingStep h kv).isSome ↔ Parses .subsampling kv := by
  unfold subsamplingStep
  rw [isSome_bind_iff (isSome_numeric_iff ..) fun h ↦
    isSome_bind_iff (isSome_numeric_iff ..) fun h ↦
      isSome_bind_iff (isSome_numeric_iff ..) fun h ↦ isSome_numeric_iff ..]
  simp only [stoui, Option.isSome_map, Parses, List.mem_cons, List.not_mem_nil, or_false,
    or_imp, and_assoc]

/-- The subsampling route makes a handler if every parameter parses. -/
theorem isSome_createSubsamplingHandler_iff (name : String) (query : List (String × String)) :
    (createSubsamplingHandler name query).isSome ↔ ∀ kv ∈ query, Parses .subsampling kv :=
  isSome_foldlM_iff isSome_subsamplingStep_iff query _

/-- A parameter of the range route throws unless it parses. -/
theorem isSome_getStep_iff (h : GetRangeHandler) (kv : String × String) :
    (getStep h kv).isSome ↔ Parses .get kv := by
  unfold getStep
  rw [isSome_bind_iff (isSome_numeric_iff ..) fun h ↦
    isSome_bind_iff (isSome_numeric_iff ..) fun h ↦
      isSome_bind_iff (isSome_numeric_iff ..) fun h ↦
        isSome_bind_iff (isSome_numeric_iff ..) fun h ↦ iff_of_true rfl trivial]
  simp only [Parses, List.mem_cons, List.not_mem_nil, or_false, or_imp, and_true]

/-- The range route makes a handler if every parameter parses. -/
theorem isSome_createGetRangeHandler_iff (name : String) (query : List (String × String)) :
    (createGetRangeHandler name query).isSome ↔ ∀ kv ∈ query, Parses .get kv :=
  isSome_foldlM_iff isSome_getStep_iff query _

/-- The put route leaves out a timestamp that does not parse. -/
theorem queryStep_of_not_parses {acc : Bool × UInt64} {kv : String × String}
    (h : ¬ Parses .put kv) : queryStep acc kv = acc := by
  unfold Parses at h
  obtain ⟨hkey, hnone⟩ := Classical.not_imp.mp h
  rw [Option.not_isSome_iff_eq_none] at hnone
  simp [queryStep, hkey, hnone]

/-- The parameters that do not parse change nothing about a put. -/
theorem createSaveHandler_filter (name : String) (query : List (String × String)) :
    createSaveHandler name (query.filter (Parses .put ·)) = createSaveHandler name query := by
  have hfold (acc : Bool × UInt64) :
      (query.filter (Parses .put ·)).foldl queryStep acc = query.foldl queryStep acc := by
    induction query generalizing acc with
    | nil => rfl
    | cons kv query ih =>
      by_cases h : Parses .put kv
      · rw [List.filter_cons_of_pos (by simpa using h), List.foldl_cons, List.foldl_cons, ih]
      · rw [List.filter_cons_of_neg (by simpa using h), List.foldl_cons,
          queryStep_of_not_parses h, ih]
  unfold createSaveHandler
  rw [hfold]

/-! ### The requests that are answered -/

/-- A route without a guard answers exactly if every parameter parses. -/
theorem unguarded_answers_iff {H : Type} {r : Route} {create : List (String × String) → Option H}
    (hcreate : ∀ query, (create query).isSome ↔ ∀ kv ∈ query, Parses r kv) (make : H → Handler)
    (query : List (String × String)) :
    (∃ handler, (create query).map make = some handler ∧
        (create (query.filter (Parses r ·))).map make = some handler) ↔
      ∀ kv ∈ query, Parses r kv := by
  rw [← hcreate]
  constructor
  · rintro ⟨handler, h, -⟩
    rw [← Option.isSome_map, h]
    rfl
  · intro h
    have hall : query.filter (Parses r ·) = query := by
      apply List.filter_eq_self.mpr
      intro kv hkv
      exact decide_eq_true ((hcreate query).mp h kv hkv)
    obtain ⟨handler, hhandler⟩ := Option.isSome_iff_exists.mp h
    rw [hall, hhandler]
    exact ⟨make handler, rfl, rfl⟩

/-- For every method, path and query: a handler is returned, and no parameter that does not parse
counts, exactly if the request is for neither the subsampling nor the range route or all its
parameters parse. -/
theorem createRequestHandler_answers_iff (request : HTTPServerRequest) :
    Answers request ↔
      (route request = .subsampling ∨ route request = .get →
        ∀ kv ∈ request.queryParameters, Parses (route request) kv) := by
  have hroute : route (ignoringUnparsed request) = route request := rfl
  unfold Answers createRequestHandler
  rw [hroute]
  unfold ignoringUnparsed
  cases route request with
  | put => simp [createSaveHandler_filter]
  | subsampling =>
    have hcreate := isSome_createSubsamplingHandler_iff (request.path.get 0)
    simpa using unguarded_answers_iff hcreate .subsampling request.queryParameters
  | get =>
    have hcreate := isSome_createGetRangeHandler_iff (request.path.get 0)
    simpa using unguarded_answers_iff hcreate .getRange request.queryParameters
  | info => simp
  | status => simp
  | health => simp
  | notFound => simp

/-- The start of a range that is no number throws. -/
theorem createRequestHandler_not_answers : ¬ ∀ request : HTTPServerRequest, Answers request := by
  intro h
  obtain ⟨handler, hhandler, -⟩ := h
    { method := "GET", uri := "/f/get?from=x", path := { dirs := ["f"], name := "get" }
      queryParameters := [("from", "x")] }
  have hthrows : createRequestHandler
      { method := "GET", uri := "/f/get?from=x", path := { dirs := ["f"], name := "get" }
        queryParameters := [("from", "x")] } = none := by
    decide
  rw [hthrows] at hhandler
  cases hhandler

end HandlerFactory
end TimeMachine.Server
