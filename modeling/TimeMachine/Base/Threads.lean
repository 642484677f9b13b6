import TimeMachine.Base.Steps
import TimeMachine.Base.Transition

/-!
# Programs side by side

Requests arrive, and each is served by a program on a thread of its own. The programs
take their steps in any order on one shared state, and a program that is done gives its
answer some time later. A failure that no handler takes ends all threads, and so does a
start. The history records the arrivals, what the steps did and the answers.

Between two steps of a thread the history goes on without it. `Keeps` is what a program
has to do about that: from any later history on, each of its steps keeps an invariant of
the state and the history, and its result has a property. If all programs do, the
invariant holds throughout, and every answer has its property.
-/

namespace TimeMachine.Base

/-- What is recorded: the arrival of request `i`, something a step for it did, and its answer. -/
inductive Record (ρ ω α : Type) where
  | arrived (i : Nat) (request : ρ)
  | did (i : Nat) (what : ω)
  | ended (i : Nat) (answer : α)
  deriving DecidableEq, Repr

/-- The thread a record is about. -/
def Record.thread {ρ ω α : Type} : Record ρ ω α → Nat
  | arrived i _ | did i _ | ended i _ => i

/-- What a step did. -/
def Record.what {ρ ω α : Type} : Record ρ ω α → Option ω
  | did _ what => some what
  | arrived .. | ended .. => none

/-- An answer, with the thread that gave it. -/
def Record.answer {ρ ω α : Type} : Record ρ ω α → Option (Nat × α)
  | ended i a => some (i, a)
  | arrived .. | did .. => none

/-- A request and the rest of its program, unless that has ended. -/
structure Thread (ι ε σ ω ρ α : Type) : Type 1 where
  request : ρ
  rest : Option (Steps ι ε σ ω α)

/-- The shared state, whether requests are accepted, all threads so far in the order of their
arrival, and the history. -/
structure Threads (ι ε σ ω ρ α : Type) : Type 1 where
  shared : σ
  up : Bool
  threads : List (Thread ι ε σ ω ρ α) := []
  history : List (Record ρ ω α) := []

namespace Threads
variable {ι ε σ ω ρ α : Type}

/-- A request arrives, a thread goes on, or everything is started again. -/
inductive Label (ι ρ : Type) where
  | arrive (request : ρ)
  | run (i : Nat) (env : ι)
  | start (env : ι)

/-- All threads end where they are. -/
def halt (T : Threads ι ε σ ω ρ α) (s : σ) (up : Bool) : Threads ι ε σ ω ρ α :=
  { T with shared := s, up, threads := T.threads.map fun t ↦ { t with rest := none } }

/-- A thread goes on as `rest`. -/
def resume (T : Threads ι ε σ ω ρ α) (s : σ) (i : Nat) (t : Thread ι ε σ ω ρ α)
    (records : List (Record ρ ω α)) : Threads ι ε σ ω ρ α :=
  { T with shared := s, threads := T.threads.set i t, history := T.history ++ records }

section Step
variable (program : ρ → Steps ι ε σ ω α) (boot : ι → EStateM ε σ Unit)

/-- A new thread. -/
def accept (T : Threads ι ε σ ω ρ α) (request : ρ) : Threads ι ε σ ω ρ α :=
  { T with
    threads := T.threads ++ [⟨request, some (program request)⟩]
    history := T.history ++ [.arrived T.threads.length request] }

/-- The step relation, as a function of the label. -/
def step (T : Threads ι ε σ ω ρ α) : Label ι ρ → Option (Threads ι ε σ ω ρ α)
  | .arrive request => if T.up then some (T.accept program request) else none
  | .run i env =>
    match T.threads[i]? with
    | some ⟨request, some (.done a)⟩ => some (T.resume T.shared i ⟨request, none⟩ [.ended i a])
    | some ⟨request, some (.step x note next)⟩ =>
      match (x env).run T.shared with
      | .ok b s => some (T.resume s i ⟨request, some (next b)⟩ ((note b).map (.did i)))
      | .error _ s => some (T.halt s false)
    | _ => none
  | .start env =>
    match (boot env).run T.shared with
    | .ok () s => some (T.halt s true)
    | .error _ s => some (T.halt s false)

/-- What a step does: a request arrives, a thread ends, a thread takes a step that succeeds or one
that fails, or a start succeeds or fails. -/
inductive Moved (T : Threads ι ε σ ω ρ α) : Label ι ρ → Threads ι ε σ ω ρ α → Prop
  | arrives {request : ρ} (hup : T.up = true) :
    Moved T (.arrive request) (T.accept program request)
  | ends {i : Nat} {env : ι} {request : ρ} {a : α}
      (hi : T.threads[i]? = some ⟨request, some (.done a)⟩) :
    Moved T (.run i env) (T.resume T.shared i ⟨request, none⟩ [.ended i a])
  | moves {i : Nat} {env : ι} {request : ρ} {β : Type} {x : ι → EStateM ε σ β} {note : β → List ω}
      {next : β → Steps ι ε σ ω α} {b : β} {s : σ}
      (hi : T.threads[i]? = some ⟨request, some (.step x note next)⟩)
      (hx : (x env).run T.shared = .ok b s) :
    Moved T (.run i env) (T.resume s i ⟨request, some (next b)⟩ ((note b).map (.did i)))
  | fails {i : Nat} {env : ι} {request : ρ} {β : Type} {x : ι → EStateM ε σ β} {note : β → List ω}
      {next : β → Steps ι ε σ ω α} {e : ε} {s : σ}
      (hi : T.threads[i]? = some ⟨request, some (.step x note next)⟩)
      (hx : (x env).run T.shared = .error e s) :
    Moved T (.run i env) (T.halt s false)
  | starts {env : ι} {s : σ} (hboot : (boot env).run T.shared = .ok () s) :
    Moved T (.start env) (T.halt s true)
  | stays {env : ι} {e : ε} {s : σ} (hboot : (boot env).run T.shared = .error e s) :
    Moved T (.start env) (T.halt s false)

variable {program boot} {T T' : Threads ι ε σ ω ρ α}

/-- A step does one of these. -/
theorem moved_of_step {l : Label ι ρ} (h : T.step program boot l = some T') :
    Moved program boot T l T' := by
  cases l with
  | arrive request =>
    rw [step] at h
    split at h
    · next hup =>
      cases h
      exact .arrives hup
    · cases h
  | run i env =>
    rw [step] at h
    split at h
    · next hi =>
      cases h
      exact .ends hi
    · next hi =>
      split at h
      · next hx =>
        cases h
        exact .moves hi hx
      · next hx =>
        cases h
        exact .fails hi hx
    · cases h
  | start env =>
    rw [step] at h
    split at h
    · next hboot =>
      cases h
      exact .starts hboot
    · next hboot =>
      cases h
      exact .stays hboot

/-- The threads are those that were there and the new one. -/
theorem thread_accept {request : ρ} {i : Nat} {t : Thread ι ε σ ω ρ α}
    (hi : (T.accept program request).threads[i]? = some t) :
    T.threads[i]? = some t ∨ i = T.threads.length ∧ t = ⟨request, some (program request)⟩ := by
  rcases Nat.lt_trichotomy i T.threads.length with hlt | rfl | hgt
  · rw [accept, List.getElem?_append_left hlt] at hi
    exact Or.inl hi
  · rw [accept, List.getElem?_concat_length] at hi
    exact Or.inr ⟨rfl, (Option.some.inj hi).symm⟩
  · have hlen : T.threads.length + 1 ≤ i := hgt
    rw [accept, List.getElem?_eq_none (by simpa using hlen)] at hi
    cases hi

/-- The threads are the one that went on and the others. -/
theorem thread_resume {i j : Nat} {s : σ} {t u : Thread ι ε σ ω ρ α} {w : List (Record ρ ω α)}
    (hj : (T.resume s i t w).threads[j]? = some u) :
    i = j ∧ u = t ∨ i ≠ j ∧ T.threads[j]? = some u := by
  by_cases hij : i = j
  · subst hij
    have hlt : i < T.threads.length := by
      have hlen := (List.getElem?_eq_some_iff.mp hj).1
      rwa [resume, List.length_set] at hlen
    rw [resume, List.getElem?_set_self hlt] at hj
    exact Or.inl ⟨rfl, (Option.some.inj hj).symm⟩
  · rw [resume, List.getElem?_set_ne hij] at hj
    exact Or.inr ⟨hij, hj⟩

/-- A thread that has not ended can always go on. -/
theorem step_run_isSome {i : Nat} {t : Thread ι ε σ ω ρ α} (hi : T.threads[i]? = some t)
    (ht : t.rest.isSome) (env : ι) : (T.step program boot (.run i env)).isSome := by
  obtain ⟨request, rest⟩ := t
  cases rest with
  | none => cases ht
  | some p =>
    cases p with
    | done a => simp only [step, hi, Option.isSome_some]
    | step x note next =>
      simp only [step, hi]
      split <;> rfl

end Step

/-! ### Histories that go on without a thread -/

/-- The history goes on, without the thread. -/
def Later (i : Nat) (h h' : List (Record ρ ω α)) : Prop :=
  ∃ w, h' = h ++ w ∧ ∀ x ∈ w, x.thread ≠ i

/-- The answers. -/
def answers (h : List (Record ρ ω α)) : List (Nat × α) := h.filterMap Record.answer

/-- What the steps did. -/
def effects (h : List (Record ρ ω α)) : List ω := h.filterMap Record.what

section Later
variable {i j : Nat} {h h' h'' : List (Record ρ ω α)}

/-- Nothing was recorded. -/
theorem later_refl (i : Nat) (h : List (Record ρ ω α)) : Later i h h :=
  ⟨[], (List.append_nil h).symm, by simp⟩

/-- The history goes on and on. -/
theorem Later.trans (hl : Later i h h') (hl' : Later i h' h'') : Later i h h'' := by
  obtain ⟨w, rfl, hw⟩ := hl
  obtain ⟨w', rfl, hw'⟩ := hl'
  refine ⟨w ++ w', List.append_assoc h w w', fun x hx ↦ ?_⟩
  rcases List.mem_append.mp hx with hx | hx
  · exact hw x hx
  · exact hw' x hx

/-- Something was recorded about other threads. -/
theorem later_append {w : List (Record ρ ω α)} (hw : ∀ x ∈ w, x.thread ≠ i) : Later i h (h ++ w) :=
  ⟨w, rfl, hw⟩

/-- What was recorded stays. -/
theorem Later.isPrefix (hl : Later i h h') : h <+: h' := by
  obtain ⟨w, rfl, -⟩ := hl
  exact List.prefix_append h w

/-- What is not among the last records was recorded before them. -/
theorem exists_append_of_notMem {l w : List (Record ρ ω α)} {x : Record ρ ω α} (hx : x ∉ w)
    (heq : l ++ w = h ++ x :: h') : ∃ h'', l = h ++ x :: h'' := by
  rcases List.append_eq_append_iff.mp heq with ⟨c, rfl, rfl⟩ | ⟨c, rfl, hc⟩
  · exact absurd (List.mem_append_right c List.mem_cons_self) hx
  · cases c with
    | nil =>
      rw [List.nil_append] at hc
      exact absurd (hc ▸ List.mem_cons_self) hx
    | cons y c =>
      obtain ⟨rfl, -⟩ := List.cons_eq_cons.mp hc
      exact ⟨c, rfl⟩

/-- A record is the last one or was recorded before it. -/
theorem cases_of_append_singleton {l : List (Record ρ ω α)} {x y : Record ρ ω α}
    (heq : l ++ [x] = h ++ y :: h') : h = l ∧ y = x ∨ ∃ h'', l = h ++ y :: h'' := by
  rcases List.eq_nil_or_concat h' with rfl | ⟨w, z, rfl⟩
  · obtain ⟨rfl, hxy⟩ := List.append_inj' heq rfl
    obtain ⟨rfl, -⟩ := List.cons_eq_cons.mp hxy
    exact Or.inl ⟨rfl, rfl⟩
  · rw [List.concat_eq_append, ← List.cons_append, ← List.append_assoc] at heq
    exact Or.inr ⟨w, (List.append_inj' heq rfl).1⟩

/-- The thread did nothing more. -/
theorem Later.did_mem_iff (hl : Later i h h') {what : ω} : .did i what ∈ h' ↔ .did i what ∈ h := by
  obtain ⟨w, rfl, hw⟩ := hl
  rw [List.mem_append]
  exact or_iff_left fun hmem ↦ hw _ hmem rfl

/-- What one step did. -/
@[simp] theorem did_mem_map {w : List ω} {what : ω} :
    (.did j what : Record ρ ω α) ∈ w.map (.did i) ↔ i = j ∧ what ∈ w := by
  rw [List.mem_map]
  constructor
  · rintro ⟨e, he, heq⟩
    cases heq
    exact ⟨rfl, he⟩
  · rintro ⟨rfl, hwhat⟩
    exact ⟨what, hwhat, rfl⟩

/-- An answer was recorded. -/
theorem mem_answers {a : α} : (i, a) ∈ answers h ↔ .ended i a ∈ h := by
  rw [answers, List.mem_filterMap]
  constructor
  · rintro ⟨x, hx, ha⟩
    cases x with
    | ended j b =>
      cases ha
      exact hx
    | arrived j request => cases ha
    | did j what => cases ha
  · exact fun ha ↦ ⟨_, ha, rfl⟩

/-- Something was done by a step of some thread. -/
theorem mem_effects {what : ω} : what ∈ effects h ↔ ∃ i, .did i what ∈ h := by
  rw [effects, List.mem_filterMap]
  constructor
  · rintro ⟨x, hx, hwhat⟩
    cases x with
    | did j what' =>
      cases hwhat
      exact ⟨j, hx⟩
    | arrived j request => cases hwhat
    | ended j a => cases hwhat
  · rintro ⟨i, hi⟩
    exact ⟨_, hi, rfl⟩

/-- What one step did is done after all before it. -/
theorem effects_append_did (i : Nat) (h : List (Record ρ ω α)) (w : List ω) :
    effects (h ++ w.map (.did i)) = effects h ++ w := by
  have hall : (w.map (.did i)).filterMap (Record.what (ρ := ρ) (α := α)) = w := by
    rw [List.filterMap_map]
    simp [Record.what, Function.comp_def]
  rw [effects, List.filterMap_append, hall, effects]

/-- What was done stays done. -/
theorem effects_isPrefix (hpre : h <+: h') : (effects h : List ω) <+: effects h' := by
  obtain ⟨w, rfl⟩ := hpre
  rw [effects, effects, List.filterMap_append]
  exact List.prefix_append _ _

end Later

/-! ### Programs that keep an invariant -/

section Keeps
variable (A : ι → Prop) (I : σ → List (Record ρ ω α) → Prop)
  (E : List (Record ρ ω α) → ε → Prop) (i : Nat)
variable {β γ : Type}

/-- From the history on, whatever the other threads do, the steps of thread `i` run as this program
keep the invariant in every environment that is allowed, fail only with what is expected, and
their result has a property of the history then. -/
def Keeps (Q : List (Record ρ ω α) → β → Prop) : Steps ι ε σ ω β → List (Record ρ ω α) → Prop
  | .done b, h => ∀ h', Later i h h' → Q h' b
  | .step x note next, h => ∀ env s h', A env → Later i h h' → I s h' →
      match (x env).run s with
      | .ok c t =>
        I t (h' ++ (note c).map (.did i)) ∧ Keeps Q (next c) (h' ++ (note c).map (.did i))
      | .error e t => I t h' ∧ E h' e

variable {A I E i} {Q R : List (Record ρ ω α) → β → Prop} {S : List (Record ρ ω α) → γ → Prop}
variable {p : Steps ι ε σ ω β} {h h' : List (Record ρ ω α)}

/-- So it is of any later history. -/
theorem Keeps.later (hp : Keeps A I E i Q p h) (hl : Later i h h') : Keeps A I E i Q p h' := by
  cases p with
  | done b => exact fun h'' hl' ↦ hp h'' (hl.trans hl')
  | step x note next => exact fun env s h'' henv hl' ↦ hp env s h'' henv (hl.trans hl')

/-- A result. -/
theorem keeps_pure {b : β} (hQ : ∀ h', Later i h h' → Q h' b) :
    Keeps A I E i Q (pure b : Steps ι ε σ ω β) h := hQ

/-- A step. -/
theorem keeps_atomic {x : ι → EStateM ε σ β} {note : β → List ω}
    (hx : ∀ env s h', A env → Later i h h' → I s h' →
      match (x env).run s with
      | .ok b t => I t (h' ++ (note b).map (.did i)) ∧
          ∀ h'', Later i (h' ++ (note b).map (.did i)) h'' → Q h'' b
      | .error e t => I t h' ∧ E h' e) :
    Keeps A I E i Q (.atomic x note) h := hx

/-- One of two programs. -/
theorem keeps_ite {c : Prop} [Decidable c] {q : Steps ι ε σ ω β} (hp : c → Keeps A I E i Q p h)
    (hq : ¬ c → Keeps A I E i Q q h) : Keeps A I E i Q (if c then p else q) h := by
  split
  · next hc => exact hp hc
  · next hc => exact hq hc

/-- One program after the other; the history has gone on meanwhile. -/
theorem Keeps.bind {f : β → Steps ι ε σ ω γ} (hp : Keeps A I E i R p h)
    (hf : ∀ b h', h <+: h' → R h' b → Keeps A I E i S (f b) h') :
    Keeps A I E i S (p >>= f) h := by
  induction p generalizing h with
  | done b => exact hf b h List.prefix_rfl (hp h (later_refl i h))
  | step x note next ih =>
    intro env s h' henv hl hI
    have hstep := hp env s h' henv hl hI
    cases hx : (x env).run s with
    | ok c t =>
      rw [hx] at hstep
      refine ⟨hstep.1, ih c hstep.2 fun b h'' hpre ↦ hf b h'' ?_⟩
      exact (hl.isPrefix.trans (List.prefix_append h' _)).trans hpre
    | error e t =>
      rw [hx] at hstep
      exact hstep

/-- A weaker property of the result, and more failures. -/
theorem Keeps.imp {E' : List (Record ρ ω α) → ε → Prop} (hp : Keeps A I E i R p h)
    (himp : ∀ b h', h <+: h' → R h' b → Q h' b) (hE : ∀ e h', h <+: h' → E h' e → E' h' e) :
    Keeps A I E' i Q p h := by
  induction p generalizing h with
  | done b => exact fun h' hl ↦ himp b h' hl.isPrefix (hp h' hl)
  | step x note next ih =>
    intro env s h' henv hl hI
    have hstep := hp env s h' henv hl hI
    cases hx : (x env).run s with
    | ok c t =>
      rw [hx] at hstep
      have hpre := hl.isPrefix.trans (List.prefix_append h' ((note c).map (.did i)))
      exact ⟨hstep.1, ih c hstep.2 (fun b h'' hpre' ↦ himp b h'' (hpre.trans hpre'))
        fun e h'' hpre' ↦ hE e h'' (hpre.trans hpre')⟩
    | error e t =>
      rw [hx] at hstep
      exact ⟨hstep.1, hE e h' hl.isPrefix hstep.2⟩

/-- A handler; what it makes of an expected failure is a result too. -/
theorem Keeps.caught {E' : List (Record ρ ω α) → ε → Prop} {handle : ε → Option β}
    (hp : Keeps A I E i Q p h)
    (hsome : ∀ e b h', h <+: h' → E h' e → handle e = some b → ∀ h'', Later i h' h'' → Q h'' b)
    (hnone : ∀ e h', h <+: h' → E h' e → handle e = none → E' h' e) :
    Keeps A I E' i Q (p.caught handle) h := by
  induction p generalizing h with
  | done b => exact hp
  | step x note next ih =>
    rw [Steps.caught]
    intro env s h' henv hl hI
    have hstep := hp env s h' henv hl hI
    rw [Steps.run_attempt]
    cases hx : (x env).run s with
    | ok c t =>
      rw [hx] at hstep
      have hpre := hl.isPrefix.trans (List.prefix_append h' ((note c).map (.did i)))
      exact ⟨hstep.1, ih c hstep.2 (fun e b h'' hpre' ↦ hsome e b h'' (hpre.trans hpre'))
        fun e h'' hpre' ↦ hnone e h'' (hpre.trans hpre')⟩
    | error e t =>
      rw [hx] at hstep
      simp only
      cases hh : handle e with
      | none => exact ⟨hstep.1, hnone e h' hl.isPrefix hstep.2 hh⟩
      | some b =>
        simp only [Sum.elim_inr, List.map_nil, List.append_nil]
        exact ⟨hstep.1, hsome e b h' hl.isPrefix hstep.2 hh⟩

end Keeps

/-! ### The whole -/

section Whole
variable (program : ρ → Steps ι ε σ ω α) (boot : ι → EStateM ε σ Unit) (A : ι → Prop)
  (I : σ → List (Record ρ ω α) → Prop) (Q : Nat → ρ → List (Record ρ ω α) → α → Prop)

/-- Arrivals, answers and starts keep the invariant, and so do the programs from their arrival
on. -/
structure Contract : Prop where
  arrives : ∀ s h i request, I s h → (∀ x ∈ h, x.thread ≠ i) →
    I s (h ++ [.arrived i request]) ∧
      Keeps A I (fun _ _ ↦ True) i (Q i request) (program request) (h ++ [.arrived i request])
  ends : ∀ s h i request a, I s h → .arrived i request ∈ h → Q i request h a →
    I s (h ++ [.ended i a])
  starts : ∀ env s h, A env → I s h →
    match (boot env).run s with
    | .ok () t => I t h
    | .error _ t => I t h

/-- The invariant holds; the threads are those that arrived; what is left of their programs keeps
the invariant; and each answer had the property when it was given. -/
structure Kept (T : Threads ι ε σ ω ρ α) : Prop where
  shared : I T.shared T.history
  known : ∀ x ∈ T.history, x.thread < T.threads.length
  arrived : ∀ i request, .arrived i request ∈ T.history ↔
    ∃ t, T.threads[i]? = some t ∧ t.request = request
  threads : ∀ i t p, T.threads[i]? = some t → t.rest = some p →
    Keeps A I (fun _ _ ↦ True) i (Q i t.request) p T.history
  answers : ∀ h i a h', T.history = h ++ .ended i a :: h' →
    ∃ request, .arrived i request ∈ h ∧ Q i request h a

/-- The environments a label runs in are allowed. -/
def Label.Under : Label ι ρ → Prop
  | .arrive _ => True
  | .run _ env => A env
  | .start env => A env

/-- A label that can be taken in an environment that is allowed, or needs none. -/
instance Label.Under.decidable [DecidablePred A] : ∀ l : Label ι ρ, Decidable (l.Under A)
  | .arrive _ => isTrue trivial
  | .run _ env => inferInstanceAs (Decidable (A env))
  | .start env => inferInstanceAs (Decidable (A env))

variable {program boot A I Q} {T T' : Threads ι ε σ ω ρ α}

private theorem Kept.accept (hC : Contract program boot A I Q) (hT : Kept A I Q T) (request : ρ) :
    Kept A I Q (T.accept program request) := by
  have hfresh : ∀ x ∈ T.history, x.thread ≠ T.threads.length :=
    fun x hx ↦ Nat.ne_of_lt (hT.known x hx)
  obtain ⟨hshared, hkeeps⟩ :=
    hC.arrives T.shared T.history T.threads.length request hT.shared hfresh
  constructor
  · exact hshared
  · intro x hx
    rw [Threads.accept, List.length_append]
    rcases List.mem_append.mp hx with hx | hx
    · exact Nat.lt_add_right 1 (hT.known x hx)
    · rw [List.mem_singleton.mp hx]
      exact Nat.lt_add_one _
  · intro i request'
    rw [Threads.accept, List.mem_append, hT.arrived, List.mem_singleton, Record.arrived.injEq]
    rcases Nat.lt_trichotomy i T.threads.length with hlt | rfl | hgt
    · simp [List.getElem?_append_left hlt, Nat.ne_of_lt hlt]
    · simp [eq_comm]
    · have hnone : (T.threads ++ [⟨request, some (program request)⟩])[i]? = none :=
        List.getElem?_eq_none (by rw [List.length_append, List.length_singleton]; omega)
      simp [hnone, List.getElem?_eq_none (Nat.le_of_lt hgt), Nat.ne_of_gt hgt]
  · intro i t p hi hp
    rcases thread_accept hi with hi | ⟨rfl, rfl⟩
    · apply (hT.threads i t p hi hp).later
      apply later_append
      simp only [List.mem_singleton, forall_eq]
      exact Nat.ne_of_gt (List.getElem?_eq_some_iff.mp hi).1
    · cases hp
      exact hkeeps
  · intro h i a h' heq
    obtain ⟨h'', heq'⟩ := exists_append_of_notMem (by simp) heq
    exact hT.answers h i a h'' heq'

private theorem Kept.resume (hT : Kept A I Q T) {i : Nat} {t t' : Thread ι ε σ ω ρ α}
    (hi : T.threads[i]? = some t) (hrequest : t'.request = t.request) {s : σ}
    {w : List (Record ρ ω α)} (hw : ∀ x ∈ w, x.thread = i ∧ ∀ j r, x ≠ .arrived j r)
    (hshared : I s (T.history ++ w))
    (hrest : ∀ p, t'.rest = some p →
      Keeps A I (fun _ _ ↦ True) i (Q i t.request) p (T.history ++ w))
    (hanswers : ∀ h j a h', T.history ++ w = h ++ .ended j a :: h' →
      (∃ h'', T.history = h ++ .ended j a :: h'') ∨
        ∃ request, .arrived j request ∈ h ∧ Q j request h a) :
    Kept A I Q (T.resume s i t' w) := by
  have hlt : i < T.threads.length := (List.getElem?_eq_some_iff.mp hi).1
  constructor
  · exact hshared
  · intro x hx
    rw [Threads.resume, List.length_set]
    rcases List.mem_append.mp hx with hx | hx
    · exact hT.known x hx
    · rwa [(hw x hx).1]
  · intro j request
    have hold : .arrived j request ∈ T.history ++ w ↔ .arrived j request ∈ T.history := by
      rw [List.mem_append]
      exact or_iff_left fun hx ↦ (hw _ hx).2 j request rfl
    rw [Threads.resume, hold, hT.arrived]
    by_cases hij : i = j
    · subst hij
      rw [List.getElem?_set_self hlt, hi]
      simp [hrequest]
    · simp [List.getElem?_set_ne hij]
  · intro j u p hj hp
    rcases thread_resume hj with ⟨rfl, rfl⟩ | ⟨hij, hj⟩
    · rw [hrequest]
      exact hrest p hp
    · apply (hT.threads j u p hj hp).later
      apply later_append
      intro x hx
      rw [(hw x hx).1]
      exact hij
  · intro h j a h' heq
    rcases hanswers h j a h' heq with ⟨h'', hold⟩ | hnew
    · exact hT.answers h j a h'' hold
    · exact hnew

private theorem Kept.halt (hT : Kept A I Q T) {s : σ} (hshared : I s T.history) (up : Bool) :
    Kept A I Q (T.halt s up) := by
  constructor
  · exact hshared
  · intro x hx
    rw [Threads.halt, List.length_map]
    exact hT.known x hx
  · intro i request
    rw [Threads.halt, hT.arrived, List.getElem?_map]
    cases T.threads[i]? with
    | none => simp
    | some t => simp
  · intro i t p hi hp
    rw [Threads.halt, List.getElem?_map] at hi
    obtain ⟨u, -, rfl⟩ := Option.map_eq_some_iff.mp hi
    cases hp
  · exact hT.answers

/-- Every step keeps all of this. -/
theorem kept_step (hC : Contract program boot A I Q) {l : Label ι ρ} (hl : l.Under A)
    (hstep : T.step program boot l = some T') (hT : Kept A I Q T) : Kept A I Q T' := by
  cases moved_of_step hstep with
  | arrives hup => exact hT.accept hC _
  | @ends i env request a hi =>
    have hdone : Q i request T.history a := hT.threads i _ _ hi rfl _ (later_refl i _)
    have harrived : .arrived i request ∈ T.history := (hT.arrived i request).mpr ⟨_, hi, rfl⟩
    apply hT.resume hi
    · rfl
    · simp [Record.thread]
    · exact hC.ends _ _ i request a hT.shared harrived hdone
    · rintro p ⟨⟩
    · intro h j b h' heq
      rcases cases_of_append_singleton heq with ⟨rfl, hlast⟩ | hold
      · cases hlast
        exact Or.inr ⟨request, harrived, hdone⟩
      · exact Or.inl hold
  | @moves i env request β x note next b s hi hx =>
    have hstep := hT.threads i _ _ hi rfl env T.shared T.history hl (later_refl i _) hT.shared
    rw [hx] at hstep
    apply hT.resume hi
    · rfl
    · intro y hy
      obtain ⟨what, -, rfl⟩ := List.mem_map.mp hy
      exact ⟨rfl, fun j r ↦ nofun⟩
    · exact hstep.1
    · rintro p ⟨⟩
      exact hstep.2
    · exact fun h j a h' heq ↦ Or.inl (exists_append_of_notMem (by simp) heq)
  | @fails i env request β x note next e s hi hx =>
    have hstep := hT.threads i _ _ hi rfl env T.shared T.history hl (later_refl i _) hT.shared
    rw [hx] at hstep
    exact hT.halt hstep.1 false
  | @starts env s hboot =>
    have hstart := hC.starts env T.shared T.history hl hT.shared
    rw [hboot] at hstart
    exact hT.halt hstart true
  | @stays env e s hboot =>
    have hstart := hC.starts env T.shared T.history hl hT.shared
    rw [hboot] at hstart
    exact hT.halt hstart false

/-- So does every run. -/
theorem kept_run (hC : Contract program boot A I Q) {ls : List (Label ι ρ)}
    (hls : ∀ l ∈ ls, l.Under A) (hrun : run (step program boot) T ls = some T')
    (hT : Kept A I Q T) : Kept A I Q T' :=
  run_invariant_along (fun _ _ _ hstep hl ↦ kept_step hC hl hstep) hrun
    (along_of_forall hls T) hT

/-- It all holds where nothing has arrived. -/
theorem kept_start {s : σ} (hs : I s []) (up : Bool) :
    Kept A I Q ({ shared := s, up } : Threads ι ε σ ω ρ α) := by
  constructor
  · exact hs
  · rintro x ⟨⟩
  · simp
  · rintro i t p ⟨⟩
  · intro h i a h' heq
    simp at heq

end Whole

-- from here on the rules say what a program keeps, not the recursion on its steps
attribute [irreducible] Keeps

end Threads
end TimeMachine.Base
