import TimeMachine.Base.OrderedStore
import Mathlib.Data.List.Induction
import Mathlib.Data.List.Sort

/-!
# Replaying a log of writes

An ordered store that is only ever written to is determined by its log, and of the log
only the last write under each key counts. Whatever the order of the other writes, the
store holds exactly the last values, in key order, and a lookup reports them.
-/

namespace TimeMachine.Base

universe u v
variable {K : Type u} {V : Type v}

/-! ### The last write -/

/-- The value of the last write under a key. -/
def lastWrite [DecidableEq K] (k : K) (log : List (K × V)) : Option V :=
  (log.reverse.find? (fun e ↦ e.1 = k)).map Prod.snd

section LastWrite
variable [DecidableEq K] {k : K} {v : V} {log : List (K × V)}

/-- Nothing was written. -/
@[simp] theorem lastWrite_nil (k : K) : lastWrite k ([] : List (K × V)) = none := rfl

/-- A later write under the key is the last one, and under another key it does not count. -/
theorem lastWrite_concat (k : K) (e : K × V) (log : List (K × V)) :
    lastWrite k (log ++ [e]) = if e.1 = k then some e.2 else lastWrite k log := by
  rw [lastWrite, List.reverse_append, List.reverse_singleton, List.singleton_append,
    List.find?_cons]
  by_cases h : e.1 = k
  · simp [h]
  · simp [h, lastWrite]

/-- The last write is one of the log. -/
theorem mem_of_lastWrite (h : lastWrite k log = some v) : (k, v) ∈ log := by
  obtain ⟨e, he, rfl⟩ := Option.map_eq_some_iff.mp h
  have hkey := List.find?_some he
  have hmem := List.mem_of_find?_eq_some he
  rw [decide_eq_true_eq] at hkey
  rw [← hkey]
  exact List.mem_reverse.mp hmem

/-- Under a key that was written there is a last write. -/
theorem exists_lastWrite_of_mem {e : K × V} (h : e ∈ log) : ∃ v, lastWrite e.1 log = some v := by
  have hsome : (log.reverse.find? fun d ↦ d.1 = e.1).isSome :=
    List.find?_isSome.mpr ⟨e, List.mem_reverse.mpr h, decide_eq_true rfl⟩
  obtain ⟨d, hd⟩ := Option.isSome_iff_exists.mp hsome
  exact ⟨d.2, by rw [lastWrite, hd, Option.map_some]⟩

/-- Taken through maps of keys, one to one, and of values. -/
theorem lastWrite_map {K' : Type*} {V' : Type*} [DecidableEq K'] {f : K → K'}
    (hf : Function.Injective f) (g : V → V') (k : K) (log : List (K × V)) :
    lastWrite (f k) (log.map (Prod.map f g)) = (lastWrite k log).map g := by
  have hkey : (fun e : K' × V' ↦ decide (e.1 = f k)) ∘ Prod.map f g =
      fun e : K × V ↦ decide (e.1 = k) := by
    funext e
    simp [hf.eq_iff]
  rw [lastWrite, lastWrite, ← List.map_reverse, List.find?_map, hkey]
  simp only [Option.map_map]
  rfl

end LastWrite

/-! ### The store -/

namespace OrderedStore
variable {cmp : K → K → Int} {P : K → Prop}

/-- Well-kept contents with the same entries are the same. -/
theorem Kept.ext (h : TotalOn cmp P) {l m : List (K × V)} (hl : Kept cmp P l)
    (hm : Kept cmp P m) (he : ∀ e, e ∈ l ↔ e ∈ m) : l = m := by
  have hnodup {l : List (K × V)} (hl : Kept cmp P l) : l.Nodup := by
    apply hl.sorted.imp_of_mem
    rintro a b ha - hab rfl
    have := TotalOn.self h (hl.keys a ha)
    omega
  apply List.Perm.eq_of_pairwise _ hl.sorted hm.sorted
    ((List.perm_ext_iff_of_nodup (hnodup hl) (hnodup hm)).mpr he)
  intro a b ha hb hab hba
  have := h.swap a.1 b.1 (hl.keys a ha) (hm.keys b hb)
  omega

variable (cmp) in
/-- The store after the writes of a log, in order, from an empty one. -/
def replay (log : List (K × V)) : List (K × V) := log.foldl (fun l e ↦ put cmp e.1 e.2 l) []

/-- The store after one more write. -/
theorem replay_concat (log : List (K × V)) (e : K × V) :
    replay cmp (log ++ [e]) = put cmp e.1 e.2 (replay cmp log) := by
  rw [replay, List.foldl_append]
  rfl

/-- A replayed log is in key order. -/
theorem kept_replay (h : TotalOn cmp P) {log : List (K × V)} (hlog : ∀ e ∈ log, P e.1) :
    Kept cmp P (replay cmp log) := by
  induction log using List.reverseRecOn with
  | nil => exact kept_nil
  | append_singleton log e ih =>
    rw [replay_concat]
    exact kept_put h (ih fun d hd ↦ hlog d (List.mem_append_left _ hd))
      (hlog e (List.mem_append_right _ (List.mem_singleton_self e))) _

section LastWrite
variable [DecidableEq K]

/-- The store holds exactly the last write under each key. -/
theorem mem_replay (h : TotalOn cmp P) {log : List (K × V)} (hlog : ∀ e ∈ log, P e.1) (e : K × V) :
    e ∈ replay cmp log ↔ lastWrite e.1 log = some e.2 := by
  induction log using List.reverseRecOn with
  | nil => simp [replay]
  | append_singleton log d ih =>
    have hold : ∀ d ∈ log, P d.1 := fun d hd ↦ hlog d (List.mem_append_left _ hd)
    have hkept := kept_replay h hold
    rw [replay_concat, mem_put h hkept (hlog d (by simp)), ih hold, lastWrite_concat]
    by_cases hk : d.1 = e.1
    · rw [if_pos hk, Option.some.injEq]
      constructor
      · rintro (rfl | ⟨-, hne⟩)
        · rfl
        · exact absurd hk.symm hne
      · intro hv
        exact Or.inl (Prod.ext hk.symm hv.symm)
    · rw [if_neg hk]
      constructor
      · rintro (rfl | ⟨hlast, -⟩)
        · exact absurd rfl hk
        · exact hlast
      · exact fun hlast ↦ Or.inr ⟨hlast, Ne.symm hk⟩

/-- A lookup reports the last write. -/
theorem get_replay (h : TotalOn cmp P) {log : List (K × V)} (hlog : ∀ e ∈ log, P e.1) {k : K}
    (hk : P k) :
    get cmp k (replay cmp log) = lastWrite k log := by
  apply Option.ext
  intro v
  rw [get_eq_some_iff h (kept_replay h hlog) hk, mem_replay h hlog]

/-- Well-kept contents are what is left of writing them. -/
theorem Kept.replay_eq (h : TotalOn cmp P) {l : List (K × V)} (hl : Kept cmp P l) :
    replay cmp l = l := by
  apply Kept.ext h (kept_replay h hl.keys) hl
  intro e
  rw [mem_replay h hl.keys]
  constructor
  · exact fun hlast ↦ mem_of_lastWrite hlast
  · intro he
    obtain ⟨v, hv⟩ := exists_lastWrite_of_mem he
    have hmem : (e.1, v) ∈ l := mem_of_lastWrite hv
    rw [hv, ← (get_eq_some_iff h hl (hl.keys e he) v).mpr hmem,
      (get_eq_some_iff h hl (hl.keys e he) e.2).mpr he]

/-- Of two logs the same is left exactly if they end in the same writes. -/
theorem replay_eq_iff (h : TotalOn cmp P) {log log' : List (K × V)} (hlog : ∀ e ∈ log, P e.1)
    (hlog' : ∀ e ∈ log', P e.1) :
    replay cmp log = replay cmp log' ↔ ∀ k, lastWrite k log = lastWrite k log' := by
  constructor
  · intro heq k
    apply Option.ext
    intro v
    rw [← mem_replay h hlog (k, v), ← mem_replay h hlog' (k, v), heq]
  · intro hlast
    apply Kept.ext h (kept_replay h hlog) (kept_replay h hlog')
    intro e
    rw [mem_replay h hlog, mem_replay h hlog', hlast]

end LastWrite
end OrderedStore
end TimeMachine.Base
