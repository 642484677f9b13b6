/-!
# Stepping through stateful code with failures

`EStateM` code keeps the changes made before a failure. These equations complete the
core library's, so that code is run one command at a time on a given state, and a
specification is proved by rewriting. `Yields` is the other way to specify code: it
keeps an invariant of the state, also when it fails, and what it returns has a
property; there is one rule for each command.
-/

namespace TimeMachine.Base.StateError

universe u
variable {ε σ α β : Type u}

/-- The state where a run that succeeded ended. -/
def final : EStateM.Result ε σ α → Option σ
  | .ok _ t => some t
  | .error _ _ => none

/-- What is checked of the final state of a run holds where the run ends. -/
theorem forall_of_final {r : EStateM.Result ε σ α} {P : σ → Prop} (h : ∀ t ∈ final r, P t) (t : σ)
    {a : α} (hr : r = .ok a t) : P t := by
  subst hr
  exact h t rfl

/-- A failure leaves the state where it is. -/
@[simp] theorem run_throw (e : ε) (s : σ) : (throw e : EStateM ε σ α).run s = .error e s := rfl

/-- Mapping touches the result only. -/
@[simp] theorem run_map (f : α → β) (x : EStateM ε σ α) (s : σ) :
    (f <$> x).run s =
      match x.run s with
      | .ok a t => .ok (f a) t
      | .error e t => .error e t := rfl

/-- A handler runs in the state the failure left behind. -/
theorem run_tryCatch (x : EStateM ε σ α) (handle : ε → EStateM ε σ α) (s : σ) :
    (tryCatch x handle).run s =
      match x.run s with
      | .ok a t => .ok a t
      | .error e t => (handle e).run t := by
  change EStateM.tryCatch x handle s =
    match x s with
    | .ok a t => .ok a t
    | .error e t => handle e t
  delta EStateM.tryCatch
  cases x s <;> rfl

/-- A sequence succeeds when both parts do, the second from where the first ends. -/
theorem run_bind_eq_ok {x : EStateM ε σ α} {f : α → EStateM ε σ β} {s t : σ} {b : β} :
    (x >>= f).run s = .ok b t ↔ ∃ a r, x.run s = .ok a r ∧ (f a).run r = .ok b t := by
  rw [EStateM.run_bind]
  constructor
  · intro h
    cases hx : x.run s with
    | ok a r =>
      rw [hx] at h
      exact ⟨a, r, rfl, h⟩
    | error e r =>
      rw [hx] at h
      cases h
  · rintro ⟨a, r, hx, hf⟩
    rw [hx]
    exact hf

/-- Run a command that succeeds. -/
theorem run_bind_of_ok {x : EStateM ε σ α} {f : α → EStateM ε σ β} {s r : σ} {a : α}
    (h : x.run s = .ok a r) : (x >>= f).run s = (f a).run r := by
  rw [EStateM.run_bind, h]

/-- Run a command that fails. -/
theorem run_bind_of_error {x : EStateM ε σ α} {f : α → EStateM ε σ β} {s r : σ} {e : ε}
    (h : x.run s = .error e r) : (x >>= f).run s = .error e r := by
  rw [EStateM.run_bind, h]

/-! ### Invariants with a property of the result -/

/-- Run in a state with the invariant, the code leaves the invariant, and the property holds
of what it returns if it returns. -/
def Yields (I : σ → Prop) (x : EStateM ε σ α) (Q : α → Prop) : Prop :=
  ∀ s, I s →
    match x.run s with
    | .ok a t => I t ∧ Q a
    | .error _ t => I t

variable {I : σ → Prop} {Q R : α → Prop} {S : β → Prop}

/-- A value. -/
theorem yields_pure {a : α} (h : Q a) : Yields I (pure a : EStateM ε σ α) Q :=
  fun _ hs ↦ ⟨hs, h⟩

/-- A failure. -/
theorem yields_throw (e : ε) : Yields I (throw e : EStateM ε σ α) Q := fun _ hs ↦ hs

/-- Reading the state tells the invariant of it. -/
theorem yields_get : Yields I (get : EStateM ε σ σ) I := fun _ hs ↦ ⟨hs, hs⟩

/-- Writing a state that has the invariant. -/
theorem yields_set {t : σ} (h : I t) : Yields I (set t : EStateM ε σ PUnit) (fun _ ↦ True) :=
  fun _ _ ↦ ⟨h, trivial⟩

/-- A change of the state that keeps the invariant. -/
theorem yields_modify {f : σ → σ} (h : ∀ s, I s → I (f s)) :
    Yields I (modify f : EStateM ε σ PUnit) (fun _ ↦ True) :=
  fun s hs ↦ ⟨h s hs, trivial⟩

/-- One command after the other. -/
theorem yields_bind {x : EStateM ε σ α} {f : α → EStateM ε σ β} (hx : Yields I x Q)
    (hf : ∀ a, Q a → Yields I (f a) S) : Yields I (x >>= f) S := by
  intro s hs
  have h := hx s hs
  rw [EStateM.run_bind]
  cases hr : x.run s with
  | ok a t =>
    rw [hr] at h
    exact hf a h.2 t h.1
  | error e t =>
    rw [hr] at h
    exact h

/-- Code with a handler for its failures. -/
theorem yields_tryCatch {x : EStateM ε σ α} {handle : ε → EStateM ε σ α} (hx : Yields I x Q)
    (hh : ∀ e, Yields I (handle e) Q) : Yields I (tryCatch x handle) Q := by
  intro s hs
  have h := hx s hs
  rw [run_tryCatch]
  cases hr : x.run s with
  | ok a t =>
    rw [hr] at h
    exact h
  | error e t =>
    rw [hr] at h
    exact hh e t h

/-- A loop over a list. -/
theorem yields_forM {γ : Type u} {l : List γ} {f : γ → EStateM ε σ PUnit}
    (h : ∀ c, Yields I (f c) (fun _ ↦ True)) : Yields I (l.forM f) (fun _ ↦ True) := by
  induction l with
  | nil => exact yields_pure trivial
  | cons c rest ih => exact yields_bind (h c) (fun _ _ ↦ ih)

/-! ### Code that only reads -/

/-- The code leaves every state as it is, also when it fails. -/
def ReadOnly (x : EStateM ε σ α) : Prop := ∀ s, Yields (· = s) x (fun _ ↦ True)

/-- A value. -/
theorem readOnly_pure (a : α) : ReadOnly (pure a : EStateM ε σ α) := fun _ ↦ yields_pure trivial

/-- A failure. -/
theorem readOnly_throw (e : ε) : ReadOnly (throw e : EStateM ε σ α) := fun _ ↦ yields_throw e

/-- Reading the state. -/
theorem readOnly_get : ReadOnly (get : EStateM ε σ σ) := fun _ _ hs ↦ ⟨hs, trivial⟩

/-- One command after the other. -/
theorem readOnly_bind {x : EStateM ε σ α} {f : α → EStateM ε σ β} (hx : ReadOnly x)
    (hf : ∀ a, ReadOnly (f a)) : ReadOnly (x >>= f) :=
  fun s ↦ yields_bind (hx s) (fun a _ ↦ hf a s)

/-- Code with a handler for its failures. -/
theorem readOnly_tryCatch {x : EStateM ε σ α} {handle : ε → EStateM ε σ α} (hx : ReadOnly x)
    (hh : ∀ e, ReadOnly (handle e)) : ReadOnly (tryCatch x handle) :=
  fun s ↦ yields_tryCatch (hx s) (fun e ↦ hh e s)

/-- Code that only reads keeps every invariant. -/
theorem yields_of_readOnly {x : EStateM ε σ α} (h : ReadOnly x) : Yields I x (fun _ ↦ True) := by
  intro s hs
  have hrun := h s s rfl
  cases hr : x.run s with
  | ok a t =>
    rw [hr] at hrun
    exact ⟨hrun.1 ▸ hs, trivial⟩
  | error e t =>
    rw [hr] at hrun
    exact hrun ▸ hs

/-- A loop over a list that collects what it returns. -/
theorem readOnly_mapM {f : α → EStateM ε σ β} (h : ∀ a, ReadOnly (f a)) (l : List α) :
    ReadOnly (l.mapM f) := by
  induction l with
  | nil =>
    rw [List.mapM_nil]
    exact readOnly_pure []
  | cons a rest ih =>
    rw [List.mapM_cons]
    exact readOnly_bind (h a) (fun b ↦ readOnly_bind ih (fun bs ↦ readOnly_pure (b :: bs)))

end TimeMachine.Base.StateError
