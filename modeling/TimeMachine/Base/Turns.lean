import TimeMachine.Base.Threads

/-!
# Turns

Programs side by side take turns, one step each. A thread that has not ended can always
take its next one, and it takes no more of them than its program has steps, and one to
give its answer, whatever the others do. It gives one answer at most, and while requests
are accepted and nothing is started again, it does not end without.
-/

namespace TimeMachine.Base.Threads
variable {ι ε σ ω ρ α : Type} {program : ρ → Steps ι ε σ ω α} {boot : ι → EStateM ε σ Unit}
  {T T' : Threads ι ε σ ω ρ α} {ls : List (Label ι ρ)}

/-- The label is a turn of the thread. -/
def Label.isTurn (i : Nat) : Label ι ρ → Bool
  | .run j _ => j == i
  | .arrive _ | .start _ => false

/-- The label is a start. -/
def Label.isStart : Label ι ρ → Bool
  | .start _ => true
  | .arrive _ | .run .. => false

/-- How many turns a thread has taken. -/
def turns (i : Nat) (ls : List (Label ι ρ)) : Nat := ls.countP (Label.isTurn i)

/-- Each thread has taken no more turns than its program has steps, up to those that are left, and
one to give its answer. -/
structure Paced (bound : ρ → Nat) (past : List (Label ι ρ)) (T : Threads ι ε σ ω ρ α) : Prop where
  taken : ∀ i t, T.threads[i]? = some t → turns i past ≤ bound t.request + 1
  going : ∀ i t p, T.threads[i]? = some t → t.rest = some p →
    ∃ n, p.Within n ∧ turns i past + n ≤ bound t.request
  absent : ∀ i, T.threads.length ≤ i → turns i past = 0

private theorem turns_concat (i : Nat) (past : List (Label ι ρ)) (l : Label ι ρ) :
    turns i (past ++ [l]) = turns i past + if l.isTurn i then 1 else 0 := by
  rw [turns, List.countP_append, List.countP_singleton, turns]

private theorem Paced.halt {bound : ρ → Nat} {past : List (Label ι ρ)} {l : Label ι ρ}
    (hT : Paced bound past T)
    (hl : ∀ i, l.isTurn i → ∃ t p, T.threads[i]? = some t ∧ t.rest = some p) (s : σ) (up : Bool) :
    Paced bound (past ++ [l]) (T.halt s up) := by
  constructor
  · intro i t hi
    rw [Threads.halt, List.getElem?_map] at hi
    obtain ⟨u, hu, rfl⟩ := Option.map_eq_some_iff.mp hi
    rw [turns_concat]
    split
    · next hturn =>
      obtain ⟨t, p, ht, hp⟩ := hl i hturn
      obtain rfl : t = u := Option.some.inj (ht.symm.trans hu)
      obtain ⟨n, -, hn⟩ := hT.going i t p ht hp
      show turns i past + 1 ≤ bound t.request + 1
      omega
    · exact hT.taken i u hu
  · intro i t p hi hp
    rw [Threads.halt, List.getElem?_map] at hi
    obtain ⟨u, -, rfl⟩ := Option.map_eq_some_iff.mp hi
    cases hp
  · intro i hi
    rw [Threads.halt, List.length_map] at hi
    rw [turns_concat, hT.absent i hi]
    split
    · next hturn =>
      obtain ⟨t, p, ht, -⟩ := hl i hturn
      rw [List.getElem?_eq_none hi] at ht
      cases ht
    · rfl

private theorem Paced.resume {bound : ρ → Nat} {past : List (Label ι ρ)} (hT : Paced bound past T)
    {i : Nat} {t t' : Thread ι ε σ ω ρ α} (hi : T.threads[i]? = some t)
    (hrequest : t'.request = t.request) {env : ι} (hturns : turns i past ≤ bound t.request)
    (hrest : ∀ p, t'.rest = some p → ∃ n, p.Within n ∧ turns i past + 1 + n ≤ bound t.request)
    (s : σ) (w : List (Record ρ ω α)) : Paced bound (past ++ [.run i env]) (T.resume s i t' w) := by
  have hlt : i < T.threads.length := (List.getElem?_eq_some_iff.mp hi).1
  have hturn (j : Nat) : turns j (past ++ [.run i env]) =
      turns j past + if i = j then 1 else 0 := by
    rw [turns_concat]
    simp [Label.isTurn]
  constructor
  · intro j u hj
    rw [hturn]
    rcases thread_resume hj with ⟨rfl, rfl⟩ | ⟨hij, hj⟩
    · rw [if_pos rfl, hrequest]
      omega
    · rw [if_neg hij]
      exact hT.taken j u hj
  · intro j u p hj hp
    rw [hturn]
    rcases thread_resume hj with ⟨rfl, rfl⟩ | ⟨hij, hj⟩
    · rw [if_pos rfl, hrequest]
      exact hrest p hp
    · rw [if_neg hij]
      exact hT.going j u p hj hp
  · intro j hj
    rw [Threads.resume, List.length_set] at hj
    rw [hturn, hT.absent j hj, if_neg (by omega)]

private theorem paced_step {bound : ρ → Nat} (hbound : ∀ r, (program r).Within (bound r))
    {past : List (Label ι ρ)} {l : Label ι ρ} (hstep : T.step program boot l = some T')
    (hT : Paced bound past T) : Paced bound (past ++ [l]) T' := by
  cases moved_of_step hstep with
  | @arrives request hup =>
    have hsame (i : Nat) : turns i (past ++ [.arrive request]) = turns i past := by
      rw [turns_concat]
      rfl
    constructor
    · intro i t hi
      rw [hsame]
      rcases thread_accept hi with hi | ⟨rfl, rfl⟩
      · exact hT.taken i t hi
      · rw [hT.absent _ (Nat.le_refl _)]
        exact Nat.zero_le _
    · intro i t p hi hp
      rw [hsame]
      rcases thread_accept hi with hi | ⟨rfl, rfl⟩
      · exact hT.going i t p hi hp
      · cases hp
        refine ⟨bound request, hbound request, ?_⟩
        exact Nat.le_of_eq (by rw [hT.absent _ (Nat.le_refl _), Nat.zero_add])
    · intro i hi
      rw [Threads.accept, List.length_append, List.length_singleton] at hi
      rw [hsame]
      exact hT.absent i (by omega)
  | ends hi =>
    obtain ⟨n, -, hn⟩ := hT.going _ _ _ hi rfl
    apply hT.resume hi
    · rfl
    · exact Nat.le_of_add_right_le hn
    · rintro p ⟨⟩
  | moves hi hx =>
    obtain ⟨n, hwithin, hn⟩ := hT.going _ _ _ hi rfl
    obtain ⟨m, rfl, hm⟩ := hwithin.next
    apply hT.resume hi
    · rfl
    · exact Nat.le_of_add_right_le hn
    · rintro p ⟨⟩
      exact ⟨m, hm _, by omega⟩
  | @fails i env request β x note next e s hi hx =>
    apply hT.halt
    intro j hj
    obtain rfl : i = j := by simpa [Label.isTurn] using hj
    exact ⟨_, _, hi, rfl⟩
  | starts hboot => exact hT.halt (fun i hi ↦ by cases hi) _ _
  | stays hboot => exact hT.halt (fun i hi ↦ by cases hi) _ _

private theorem paced_run {bound : ρ → Nat} (hbound : ∀ r, (program r).Within (bound r)) {s : σ}
    {up : Bool} (hrun : run (step program boot) { shared := s, up } ls = some T) :
    Paced bound ls T := by
  have hstart : Paced bound [] ({ shared := s, up } : Threads ι ε σ ω ρ α) :=
    ⟨nofun, nofun, fun _ _ ↦ rfl⟩
  exact run_history (fun _ _ _ _ hstep ↦ paced_step hbound hstep) hrun hstart

/-- No thread takes more turns than its program has steps, and one to give its answer, whatever the
others do. -/
theorem turns_le {bound : ρ → Nat} (hbound : ∀ r, (program r).Within (bound r)) {s : σ} {up : Bool}
    (hrun : run (step program boot) { shared := s, up } ls = some T) {i : Nat}
    {t : Thread ι ε σ ω ρ α} (hi : T.threads[i]? = some t) : turns i ls ≤ bound t.request + 1 :=
  (paced_run hbound hrun).taken i t hi

/-- A thread that has taken them all has ended. -/
theorem rest_eq_none_of_turns {bound : ρ → Nat} (hbound : ∀ r, (program r).Within (bound r)) {s : σ}
    {up : Bool} (hrun : run (step program boot) { shared := s, up } ls = some T) {i : Nat}
    {t : Thread ι ε σ ω ρ α} (hi : T.threads[i]? = some t) (hturns : bound t.request < turns i ls) :
    t.rest = none := by
  cases hrest : t.rest with
  | none => rfl
  | some p =>
    obtain ⟨n, -, hn⟩ := (paced_run hbound hrun).going i t p hi hrest
    omega

/-! ### Answers -/

/-- The threads that have answered have ended, and none has answered twice. -/
structure Answered (T : Threads ι ε σ ω ρ α) : Prop where
  nodup : ((answers T.history).map Prod.fst).Nodup
  ended : ∀ i a, (i, a) ∈ answers T.history → ∃ t, T.threads[i]? = some t ∧ t.rest = none

private theorem answers_append_of_none {h w : List (Record ρ ω α)}
    (hw : ∀ x ∈ w, x.answer = none) : answers (h ++ w) = answers h := by
  rw [answers, List.filterMap_append, List.filterMap_eq_nil_iff.mpr hw, List.append_nil, answers]

private theorem Answered.halt (hT : Answered T) (s : σ) (up : Bool) : Answered (T.halt s up) := by
  constructor
  · exact hT.nodup
  · intro i a ha
    obtain ⟨t, ht, hrest⟩ := hT.ended i a ha
    refine ⟨{ t with rest := none }, ?_, rfl⟩
    rw [Threads.halt, List.getElem?_map, ht]
    rfl

private theorem answered_step {l : Label ι ρ} (hstep : T.step program boot l = some T')
    (hT : Answered T) : Answered T' := by
  cases moved_of_step hstep with
  | @arrives request hup =>
    have hsame : answers (T.accept program request).history = answers T.history :=
      answers_append_of_none (by simp [Record.answer])
    constructor
    · rw [hsame]
      exact hT.nodup
    · intro i a ha
      rw [hsame] at ha
      obtain ⟨t, ht, hrest⟩ := hT.ended i a ha
      refine ⟨t, ?_, hrest⟩
      rwa [accept, List.getElem?_append_left (List.getElem?_eq_some_iff.mp ht).1]
  | @ends i env request a hi =>
    have hlt : i < T.threads.length := (List.getElem?_eq_some_iff.mp hi).1
    have hnew : ∀ b, (i, b) ∉ answers T.history := by
      intro b hb
      obtain ⟨t, ht, hrest⟩ := hT.ended i b hb
      rw [hi] at ht
      cases ht
      cases hrest
    have hlast : answers (T.resume T.shared i ⟨request, none⟩ [.ended i a]).history =
        answers T.history ++ [(i, a)] := by
      rw [resume, answers, List.filterMap_append]
      rfl
    constructor
    · rw [hlast, List.map_append, List.nodup_append]
      refine ⟨hT.nodup, by simp, ?_⟩
      simp only [List.map_cons, List.map_nil, List.mem_singleton, forall_eq]
      rintro _ hj rfl
      obtain ⟨⟨_, b⟩, hb, rfl⟩ := List.mem_map.mp hj
      exact hnew b hb
    · intro j b hb
      rw [hlast, List.mem_append, List.mem_singleton] at hb
      by_cases hij : i = j
      · subst hij
        exact ⟨⟨request, none⟩, List.getElem?_set_self hlt, rfl⟩
      · rw [resume, List.getElem?_set_ne hij]
        rcases hb with hb | hb
        · exact hT.ended j b hb
        · exact absurd (Prod.mk.inj hb).1.symm hij
  | @moves i env request β x note next b s hi hx =>
    have hsame : answers (T.resume s i ⟨request, some (next b)⟩ ((note b).map (.did i))).history =
        answers T.history :=
      answers_append_of_none (by simp [Record.answer])
    constructor
    · rw [hsame]
      exact hT.nodup
    · intro j a ha
      rw [hsame] at ha
      obtain ⟨t, ht, hrest⟩ := hT.ended j a ha
      have hij : i ≠ j := by
        rintro rfl
        rw [hi] at ht
        cases ht
        cases hrest
      refine ⟨t, ?_, hrest⟩
      rwa [resume, List.getElem?_set_ne hij]
  | fails hi hx => exact hT.halt _ _
  | starts hboot => exact hT.halt _ _
  | stays hboot => exact hT.halt _ _

/-- No thread answers twice. -/
theorem nodup_answers {s : σ} {up : Bool}
    (hrun : run (step program boot) { shared := s, up } ls = some T) :
    ((answers T.history).map Prod.fst).Nodup := by
  have hstart : Answered ({ shared := s, up } : Threads ι ε σ ω ρ α) := ⟨List.nodup_nil, nofun⟩
  exact (run_invariant (fun _ _ _ hstep ↦ answered_step hstep) hrun hstart).nodup

/-- While requests are accepted and nothing is started again, a thread that has ended since has
given its answer. -/
theorem ended_of_run (hrun : run (step program boot) T ls = some T')
    (hls : ∀ l ∈ ls, l.isStart = false) (hup : T'.up = true) {i : Nat} {t : Thread ι ε σ ω ρ α}
    (hi : T'.threads[i]? = some t) (ht : t.rest = none) :
    (∃ u, T.threads[i]? = some u ∧ u.rest = none) ∨ ∃ a, .ended i a ∈ T'.history := by
  refine run_invariant_along (C := fun _ l ↦ l.isStart = false) (I := fun T'' ↦ T''.up = true →
    ∀ i t, T''.threads[i]? = some t → t.rest = none →
      (∃ u, T.threads[i]? = some u ∧ u.rest = none) ∨ ∃ a, .ended i a ∈ T''.history)
    ?_ hrun (along_of_forall hls T) (fun _ i t hi ht ↦ Or.inl ⟨t, hi, ht⟩) hup i t hi ht
  intro S l S' hstep hl ih hup j u hj hu
  have hstill (w : List (Record ρ ω α)) : (∃ a, .ended j a ∈ S.history) →
      ∃ a, .ended j a ∈ S.history ++ w := by
    rintro ⟨a, ha⟩
    exact ⟨a, List.mem_append_left w ha⟩
  cases moved_of_step hstep with
  | arrives hup' =>
    rcases thread_accept hj with hj | ⟨-, rfl⟩
    · exact (ih hup j u hj hu).imp_right (hstill _)
    · cases hu
  | ends hi =>
    rcases thread_resume hj with ⟨rfl, -⟩ | ⟨-, hj⟩
    · exact Or.inr ⟨_, List.mem_append_right _ List.mem_cons_self⟩
    · exact (ih hup j u hj hu).imp_right (hstill _)
  | moves hi hx =>
    rcases thread_resume hj with ⟨-, rfl⟩ | ⟨-, hj⟩
    · cases hu
    · exact (ih hup j u hj hu).imp_right (hstill _)
  | fails hi hx => cases hup
  | starts hboot => cases hl
  | stays hboot => cases hl

end TimeMachine.Base.Threads
