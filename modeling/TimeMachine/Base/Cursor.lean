import Mathlib.Data.List.TakeWhile

/-!
# Iterators over a key-value store

An iterator is on an entry of an ordered store, or on none and then invalid. Its
position splits the entries: those before it, nearest first, and those after it. The
entries an iterator visits from a position are the rest of the store in the direction
it moves; the seeks are described by what they leave on either side.
-/

namespace TimeMachine.Base

universe u v

/-- A position in a list. -/
structure Position (α : Type u) where
  before : List α
  current : α
  after : List α
  deriving DecidableEq, Repr

/-- An iterator: invalid, or at a position. -/
abbrev Cursor (α : Type u) := Option (Position α)

namespace Cursor
variable {α : Type u}

/-- `SeekToFirst`. -/
def seekToFirst : List α → Cursor α
  | [] => none
  | x :: rest => some ⟨[], x, rest⟩

/-- `SeekToLast`. -/
def seekToLast (l : List α) : Cursor α :=
  match l.reverse with
  | [] => none
  | x :: rest => some ⟨rest, x, []⟩

/-- `SeekForPrev`: the last entry in iteration order that is not past the key. -/
def seekForPrev (atMost : α → Bool) (l : List α) : Cursor α :=
  match l.reverse.dropWhile (!atMost ·) with
  | [] => none
  | x :: rest => some ⟨rest, x, (l.reverse.takeWhile (!atMost ·)).reverse⟩

/-- `Next`. -/
def next (p : Position α) : Cursor α :=
  match p.after with
  | [] => none
  | x :: rest => some ⟨p.current :: p.before, x, rest⟩

/-- `Prev`. -/
def prev (p : Position α) : Cursor α :=
  match p.before with
  | [] => none
  | x :: rest => some ⟨rest, x, p.current :: p.after⟩

/-- The step of a loop that moves forwards or, reversed, backwards. -/
def advance (reverse : Bool) (p : Position α) : Cursor α := if reverse then prev p else next p

/-- The entries such a loop visits, from the current one on. -/
def ahead (reverse : Bool) : Cursor α → List α
  | none => []
  | some p => p.current :: if reverse then p.before else p.after

/-- A step leaves the current entry behind and visits the others. -/
theorem ahead_advance (reverse : Bool) (p : Position α) :
    ahead reverse (some p) = p.current :: ahead reverse (advance reverse p) := by
  obtain ⟨before, current, after⟩ := p
  cases reverse
  · cases after <;> rfl
  · cases before <;> rfl

/-- From a position in a list, entries of the list are visited. -/
theorem mem_of_mem_ahead {p : Position α} {l : List α}
    (hl : l = p.before.reverse ++ p.current :: p.after) {reverse : Bool} {x : α}
    (hx : x ∈ ahead reverse (some p)) : x ∈ l := by
  rw [hl, List.mem_append, List.mem_reverse]
  rcases List.mem_cons.mp hx with rfl | hx
  · exact Or.inr List.mem_cons_self
  · cases reverse with
    | false => exact Or.inr (List.mem_cons_of_mem _ hx)
    | true => exact Or.inl hx

/-- From the first entry forwards, all entries are visited. -/
@[simp] theorem ahead_seekToFirst (l : List α) : ahead false (seekToFirst l) = l := by
  cases l <;> rfl

/-- From the last entry backwards, all entries are visited. -/
@[simp] theorem ahead_seekToLast (l : List α) : ahead true (seekToLast l) = l.reverse := by
  rw [seekToLast]
  cases l.reverse <;> rfl

/-- `SeekForPrev` is invalid exactly if every entry is past the key. -/
theorem seekForPrev_eq_none_iff (atMost : α → Bool) (l : List α) :
    seekForPrev atMost l = none ↔ ∀ x ∈ l, atMost x = false := by
  have hiff : seekForPrev atMost l = none ↔ l.reverse.dropWhile (!atMost ·) = [] := by
    rw [seekForPrev]
    cases l.reverse.dropWhile (!atMost ·) <;> simp
  rw [hiff, List.dropWhile_eq_nil_iff]
  simp

/-- A valid `SeekForPrev` visits backwards the entries up to the last that is not past the
key, all of those behind it being past the key. -/
theorem ahead_seekForPrev (atMost : α → Bool) (l : List α) :
    ahead true (seekForPrev atMost l) = l.reverse.dropWhile (!atMost ·) := by
  rw [seekForPrev]
  cases l.reverse.dropWhile (!atMost ·) <;> rfl

/-- If the entries that are not past the key come first, they are what is visited backwards. -/
theorem ahead_seekForPrev_of_first {atMost : α → Bool} {l : List α}
    (h : l.Pairwise (fun a b ↦ atMost b = true → atMost a = true)) :
    ahead true (seekForPrev atMost l) = (l.filter atMost).reverse := by
  have hrev : l.reverse.Pairwise (fun a b ↦ atMost a = true → atMost b = true) :=
    List.pairwise_reverse.mpr h
  rw [ahead_seekForPrev, ← List.filter_reverse]
  generalize l.reverse = r at hrev
  induction r with
  | nil => rfl
  | cons x rest ih =>
    obtain ⟨hx, hrest⟩ := List.pairwise_cons.mp hrev
    by_cases hp : atMost x = true
    · have hall : rest.filter atMost = rest := List.filter_eq_self.mpr fun y hy ↦ hx y hy hp
      rw [List.dropWhile_cons_of_neg (by simp [hp]), List.filter_cons_of_pos hp, hall]
    · rw [List.dropWhile_cons_of_pos (by simp [hp]), List.filter_cons_of_neg hp, ih hrest]

/-- Where `SeekForPrev` ends, the store splits into entries up to one that is not past the key
and entries that all are. -/
theorem seekForPrev_eq_some {atMost : α → Bool} {l : List α} {p : Position α}
    (h : seekForPrev atMost l = some p) :
    l = p.before.reverse ++ p.current :: p.after ∧ atMost p.current = true ∧
      ∀ x ∈ p.after, atMost x = false := by
  rw [seekForPrev] at h
  split at h
  · cases h
  · next x rest hdrop =>
    have hp := Option.some.inj h
    subst hp
    have hsplit := List.takeWhile_append_dropWhile (p := (!atMost ·)) (l := l.reverse)
    rw [hdrop] at hsplit
    refine ⟨?_, ?_, ?_⟩
    · have hrev := congrArg List.reverse hsplit
      rw [List.reverse_reverse, List.reverse_append, List.reverse_cons] at hrev
      rw [List.append_assoc, List.singleton_append] at hrev
      exact hrev.symm
    · have hhead := List.head_dropWhile_not (!atMost ·) (l := l.reverse) (by rw [hdrop]; simp)
      simpa [hdrop] using hhead
    · intro y hy
      have htake := List.mem_takeWhile_imp (List.mem_reverse.mp hy)
      simpa using htake

end Cursor
end TimeMachine.Base
