import TimeMachine.Base.StateError

/-!
# Programs of atomic steps

A program takes one atomic step after the other on a state it shares with others. A step
is code that can fail, run in the environment of its own moment; what is recorded of it
depends on what it returned. Run with nobody else in between, and in one environment, a
program is the code its steps make up.
-/

namespace TimeMachine.Base
open StateError

/-- A program: it is done, or it takes a step, of which something is recorded, and goes on. -/
inductive Steps (ι ε σ ω α : Type) : Type 1 where
  | done (a : α)
  | step {β : Type} (x : ι → EStateM ε σ β) (note : β → List ω) (next : β → Steps ι ε σ ω α)

namespace Steps
variable {ι ε σ ω α β : Type}

/-- One step. -/
def atomic (x : ι → EStateM ε σ α) (note : α → List ω) : Steps ι ε σ ω α := .step x note .done

/-- One program after the other. -/
protected def bind : Steps ι ε σ ω α → (α → Steps ι ε σ ω β) → Steps ι ε σ ω β
  | .done a, f => f a
  | .step x note next, f => .step x note fun b ↦ (next b).bind f

instance : Monad (Steps ι ε σ ω) where
  pure := .done
  bind := Steps.bind

/-- Code whose failures become results where the handler makes one of them. -/
def attempt (handle : ε → Option α) (x : EStateM ε σ β) : EStateM ε σ (β ⊕ α) :=
  tryCatch (Sum.inl <$> x) fun e ↦
    match handle e with
    | some a => pure (.inr a)
    | none => throw e

/-- A program with a handler for the failures of its steps. What the handler makes of one is the
result; it takes no step. -/
def caught (handle : ε → Option α) : Steps ι ε σ ω α → Steps ι ε σ ω α
  | .done a => .done a
  | .step x note next =>
    .step (fun i ↦ attempt handle (x i)) (Sum.elim note fun _ ↦ []) fun
      | .inl b => (next b).caught handle
      | .inr a => .done a

/-! ### Alone -/

/-- The program run with nobody else in between. -/
def alone (i : ι) : Steps ι ε σ ω α → EStateM ε σ α
  | .done a => pure a
  | .step x _ next => x i >>= fun b ↦ (next b).alone i

/-- Nothing is done. -/
@[simp] theorem alone_pure (i : ι) (a : α) : (pure a : Steps ι ε σ ω α).alone i = pure a := rfl

/-- One step is its code. -/
@[simp] theorem alone_atomic (i : ι) (x : ι → EStateM ε σ α) (note : α → List ω) :
    (atomic x note).alone i = x i := bind_pure (x i)

/-- One program after the other is one code after the other. -/
@[simp] theorem alone_bind (i : ι) (p : Steps ι ε σ ω α) (f : α → Steps ι ε σ ω β) :
    (p >>= f).alone i = p.alone i >>= fun a ↦ (f a).alone i := by
  induction p with
  | done a => exact (pure_bind a fun a ↦ (f a).alone i).symm
  | step x note next ih =>
    show (x i >>= fun b ↦ (next b >>= f).alone i) = _
    simp only [ih, alone, bind_assoc]

/-- A result seen through a function. -/
@[simp] theorem alone_map (i : ι) (f : α → β) (p : Steps ι ε σ ω α) :
    (f <$> p).alone i = f <$> p.alone i := by
  show (p >>= fun a ↦ pure (f a)).alone i = _
  rw [alone_bind]
  rfl

/-- Of two programs one is run. -/
@[simp] theorem alone_ite (i : ι) (c : Prop) [Decidable c] (p q : Steps ι ε σ ω α) :
    (if c then p else q).alone i = if c then p.alone i else q.alone i := apply_ite _ c p q

/-- What the handler leaves of a run. -/
theorem run_attempt (handle : ε → Option α) (x : EStateM ε σ β) (s : σ) :
    (attempt handle x).run s =
      match x.run s with
      | .ok b t => .ok (.inl b) t
      | .error e t =>
        match handle e with
        | some a => .ok (.inr a) t
        | none => .error e t := by
  rw [attempt, run_tryCatch, run_map]
  cases x.run s with
  | ok b t => rfl
  | error e t =>
    simp only
    cases handle e with
    | some a => rfl
    | none => rfl

/-- A handler for every step is one for the whole code. -/
theorem run_alone_caught (i : ι) (handle : ε → Option α) (p : Steps ι ε σ ω α) (s : σ) :
    ((p.caught handle).alone i).run s =
      match (p.alone i).run s with
      | .ok a t => .ok a t
      | .error e t =>
        match handle e with
        | some a => .ok a t
        | none => .error e t := by
  induction p generalizing s with
  | done a => rfl
  | step x note next ih =>
    rw [caught, alone, alone, EStateM.run_bind, EStateM.run_bind, run_attempt]
    cases (x i).run s with
    | ok b t => exact ih b t
    | error e t =>
      simp only
      cases handle e with
      | some a => rfl
      | none => rfl

/-! ### The number of steps -/

/-- The program takes at most so many steps, whatever it finds. -/
def Within : Steps ι ε σ ω α → Nat → Prop
  | .done _, _ => True
  | .step _ _ next, n => ∃ m, n = m + 1 ∧ ∀ b, (next b).Within m

/-- More steps are allowed. -/
theorem Within.mono {p : Steps ι ε σ ω α} {m n : Nat} (h : p.Within m) (hle : m ≤ n) :
    p.Within n := by
  induction p generalizing m n with
  | done a => trivial
  | step x note next ih =>
    obtain ⟨k, rfl, hk⟩ := h
    exact ⟨n - 1, by omega, fun b ↦ ih b (hk b) (by omega)⟩

/-- A step is taken, and the others are left. -/
theorem Within.next {β : Type} {x : ι → EStateM ε σ β} {note : β → List ω}
    {next : β → Steps ι ε σ ω α} {n : Nat} (h : (Steps.step x note next).Within n) :
    ∃ m, n = m + 1 ∧ ∀ b, (next b).Within m := h

/-- A result takes none. -/
theorem within_pure (a : α) (n : Nat) : (pure a : Steps ι ε σ ω α).Within n := trivial

/-- A step is one. -/
theorem within_atomic (x : ι → EStateM ε σ α) (note : α → List ω) : (atomic x note).Within 1 :=
  ⟨0, rfl, fun _ ↦ trivial⟩

/-- The steps of two programs add up. -/
theorem Within.bind {p : Steps ι ε σ ω α} {f : α → Steps ι ε σ ω β} {m n : Nat} (hp : p.Within m)
    (hf : ∀ a, (f a).Within n) : (p >>= f).Within (m + n) := by
  induction p generalizing m with
  | done a => exact (hf a).mono (Nat.le_add_left n m)
  | step x note next ih =>
    obtain ⟨k, rfl, hk⟩ := hp
    exact ⟨k + n, by omega, fun b ↦ ih b (hk b)⟩

/-- What is made of a result takes none. -/
theorem Within.bind_pure {p : Steps ι ε σ ω α} {n : Nat} (hp : p.Within n) (f : α → β) :
    (p >>= fun a ↦ pure (f a)).Within n :=
  hp.bind fun a ↦ within_pure (f a) 0

/-- Of two programs one is run. -/
theorem Within.ite {c : Prop} [Decidable c] {p q : Steps ι ε σ ω α} {n : Nat} (hp : p.Within n)
    (hq : q.Within n) : (if c then p else q).Within n := by
  split
  · exact hp
  · exact hq

/-- A handler takes no steps. -/
theorem Within.caught {p : Steps ι ε σ ω α} {n : Nat} (hp : p.Within n) (handle : ε → Option α) :
    (p.caught handle).Within n := by
  induction p generalizing n with
  | done a => trivial
  | step x note next ih =>
    obtain ⟨k, rfl, hk⟩ := hp
    rw [Steps.caught]
    refine ⟨k, rfl, fun r ↦ ?_⟩
    cases r with
    | inl b => exact ih b (hk b)
    | inr a => trivial

-- from here on the rules count the steps, not the recursion on them
attribute [irreducible] Within

end Steps
end TimeMachine.Base
