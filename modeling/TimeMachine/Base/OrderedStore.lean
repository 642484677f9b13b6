import Mathlib.Data.List.Basic

/-!
# Key-value stores ordered by a comparator

The map an ordered key-value database presents to its client: the entries in
iteration order, a write that overwrites the entry comparing equal, and a point
lookup that stops at the first entry not before the wanted key. The comparator is
a signed comparison in the C manner and need not be an order: the laws below ask
for one on the keys that are actually stored.
-/

namespace TimeMachine.Base

universe u v
variable {K : Type u} {V : Type v}

/-- On the keys satisfying `P` the comparator is a strict total order, with zero only
for equal keys. -/
structure TotalOn (cmp : K → K → Int) (P : K → Prop) : Prop where
  swap : ∀ a b, P a → P b → cmp b a = -cmp a b
  eq_of_zero : ∀ a b, P a → P b → cmp a b = 0 → a = b
  trans : ∀ a b c, P a → P b → P c → cmp a b < 0 → cmp b c < 0 → cmp a c < 0

/-- Such a comparator makes the keys a strict total order. -/
theorem TotalOn.isStrictTotalOrder {cmp : K → K → Int} {P : K → Prop} (h : TotalOn cmp P) :
    IsStrictTotalOrder {k // P k} (fun a b ↦ cmp a b < 0) where
  trichotomous a b hab hba := by
    apply Subtype.ext
    apply h.eq_of_zero _ _ a.2 b.2
    have hswap := h.swap _ _ a.2 b.2
    omega
  irrefl a := by
    have hswap := h.swap _ _ a.2 a.2
    omega
  trans a b c hab hbc := h.trans _ _ _ a.2 b.2 c.2 hab hbc

namespace OrderedStore
variable (cmp : K → K → Int)

/-- Write an entry at its place in the iteration order, over the entry comparing equal. -/
def put (k : K) (v : V) : List (K × V) → List (K × V)
  | [] => [(k, v)]
  | e :: rest =>
    if cmp e.1 k < 0 then e :: put k v rest
    else if cmp e.1 k = 0 then (k, v) :: rest
    else (k, v) :: e :: rest

/-- The first entry in iteration order that is not before the key. -/
def lowerBound (k : K) (l : List (K × V)) : Option (K × V) := l.find? (fun e ↦ 0 ≤ cmp e.1 k)

/-- Point lookup: the lower bound, provided it compares equal. -/
def find (k : K) (l : List (K × V)) : Option (K × V) :=
  (lowerBound cmp k l).filter (fun e ↦ cmp e.1 k = 0)

/-- The value a point lookup reports. -/
def get (k : K) (l : List (K × V)) : Option V := (find cmp k l).map Prod.snd

/-- The entry an iterator is on after `SeekToFirst`, if it is valid. -/
def seekToFirst (l : List (K × V)) : Option (K × V) := l.head?

/-- The entry an iterator is on after `SeekToLast`, if it is valid. -/
def seekToLast (l : List (K × V)) : Option (K × V) := l.getLast?

/-- Well-kept contents: keys of the ordered kind, in strictly increasing order. -/
structure Kept (P : K → Prop) (l : List (K × V)) : Prop where
  sorted : l.Pairwise (fun a b ↦ cmp a.1 b.1 < 0)
  keys : ∀ e ∈ l, P e.1

variable {cmp} {P : K → Prop}

/-- The empty store is well kept. -/
theorem kept_nil : Kept cmp P ([] : List (K × V)) :=
  ⟨List.Pairwise.nil, by simp⟩

private theorem kept_tail {e : K × V} {l : List (K × V)} (h : Kept cmp P (e :: l)) :
    Kept cmp P l :=
  ⟨(List.pairwise_cons.mp h.sorted).2, fun d hd ↦ h.keys d (List.mem_cons_of_mem e hd)⟩

/-- A key compares to itself as zero. -/
theorem TotalOn.self (h : TotalOn cmp P) {k : K} (hk : P k) : cmp k k = 0 := by
  have := h.swap k k hk hk
  omega

private theorem ne_of_neg (h : TotalOn cmp P) {a b : K} (ha : P a) (hab : cmp a b < 0) :
    a ≠ b := by
  rintro rfl
  have := TotalOn.self h ha
  omega

/-- A write adds one entry at most. -/
theorem eq_or_mem_of_mem_put {k : K} {v : V} {l : List (K × V)} {e : K × V}
    (h : e ∈ put cmp k v l) : e = (k, v) ∨ e ∈ l := by
  induction l with
  | nil => exact Or.inl (List.mem_singleton.mp h)
  | cons d rest ih =>
    rw [put] at h
    split at h
    · rcases List.mem_cons.mp h with rfl | h
      · exact Or.inr List.mem_cons_self
      · exact (ih h).imp_right (List.mem_cons_of_mem d)
    · split at h
      · exact (List.mem_cons.mp h).imp_right (List.mem_cons_of_mem d)
      · exact List.mem_cons.mp h

/-- The written entry is there, whatever the order of the store. -/
theorem mem_put_self (k : K) (v : V) (l : List (K × V)) : (k, v) ∈ put cmp k v l := by
  induction l with
  | nil => exact List.mem_singleton.mpr rfl
  | cons d rest ih =>
    rw [put]
    split
    · exact List.mem_cons_of_mem d ih
    · split
      · exact List.mem_cons_self
      · exact List.mem_cons_self

/-- A write drops no key. -/
theorem exists_key_mem_put (h : TotalOn cmp P) {l : List (K × V)} (hl : ∀ e ∈ l, P e.1) {k : K}
    (hk : P k) (v : V) {e : K × V} (he : e ∈ l) : ∃ e' ∈ put cmp k v l, e'.1 = e.1 := by
  induction l with
  | nil => cases he
  | cons d rest ih =>
    rw [put]
    split
    · rcases List.mem_cons.mp he with rfl | he
      · exact ⟨e, List.mem_cons_self, rfl⟩
      · obtain ⟨e', he', hkey⟩ := ih (fun c hc ↦ hl c (List.mem_cons_of_mem d hc)) he
        exact ⟨e', List.mem_cons_of_mem d he', hkey⟩
    · split
      · next hzero =>
        rcases List.mem_cons.mp he with rfl | he
        · exact ⟨(k, v), List.mem_cons_self,
            (h.eq_of_zero e.1 k (hl e List.mem_cons_self) hk hzero).symm⟩
        · exact ⟨e, List.mem_cons_of_mem (k, v) he, rfl⟩
      · exact ⟨e, List.mem_cons_of_mem (k, v) he, rfl⟩

/-- A store that was written to is not empty. -/
theorem put_ne_nil (k : K) (v : V) (l : List (K × V)) : put cmp k v l ≠ [] := by
  cases l with
  | nil => simp [put]
  | cons d rest =>
    rw [put]
    split
    · simp
    · split <;> simp

/-- After a write exactly the written entry is new, and exactly the old entry at its key
is gone. -/
theorem mem_put (h : TotalOn cmp P) {l : List (K × V)} (hl : Kept cmp P l) {k : K} (hk : P k)
    (v : V) (e : K × V) : e ∈ put cmp k v l ↔ e = (k, v) ∨ (e ∈ l ∧ e.1 ≠ k) := by
  induction l with
  | nil => simp [put]
  | cons d rest ih =>
    have hd : P d.1 := hl.keys d (by simp)
    have hrest := List.pairwise_cons.mp hl.sorted
    rw [put]
    split
    · next hlt =>
      have hne : d.1 ≠ k := ne_of_neg h hd hlt
      rw [List.mem_cons, ih (kept_tail hl), List.mem_cons]
      constructor
      · rintro (rfl | rfl | ⟨he, hn⟩)
        · exact Or.inr ⟨Or.inl rfl, hne⟩
        · exact Or.inl rfl
        · exact Or.inr ⟨Or.inr he, hn⟩
      · rintro (rfl | ⟨rfl | he, hn⟩)
        · exact Or.inr (Or.inl rfl)
        · exact Or.inl rfl
        · exact Or.inr (Or.inr ⟨he, hn⟩)
    · next hge =>
      -- from here on every entry of the tail is after the written key
      have hafter : ∀ c ∈ rest, c.1 ≠ k := by
        intro c hc he
        have hdc := hrest.1 c hc
        rw [he] at hdc
        exact hge hdc
      split
      · next hz =>
        have hdk : d.1 = k := h.eq_of_zero d.1 k hd hk hz
        rw [List.mem_cons, List.mem_cons]
        constructor
        · rintro (rfl | he)
          · exact Or.inl rfl
          · exact Or.inr ⟨Or.inr he, hafter e he⟩
        · rintro (rfl | ⟨rfl | he, hn⟩)
          · exact Or.inl rfl
          · exact absurd hdk hn
          · exact Or.inr he
      · next hnz =>
        have hdk : d.1 ≠ k := by
          rintro rfl
          exact hnz (TotalOn.self h hd)
        rw [List.mem_cons]
        constructor
        · rintro (rfl | he)
          · exact Or.inl rfl
          · refine Or.inr ⟨he, ?_⟩
            rcases List.mem_cons.mp he with rfl | hr
            · exact hdk
            · exact hafter e hr
        · rintro (rfl | ⟨he, -⟩)
          · exact Or.inl rfl
          · exact Or.inr he

/-- A write keeps the contents well kept. -/
theorem kept_put (h : TotalOn cmp P) {l : List (K × V)} (hl : Kept cmp P l) {k : K} (hk : P k)
    (v : V) : Kept cmp P (put cmp k v l) := by
  refine ⟨?_, ?_⟩
  · induction l with
    | nil => simp [put]
    | cons d rest ih =>
      have hd : P d.1 := hl.keys d (by simp)
      have hrest := List.pairwise_cons.mp hl.sorted
      rw [put]
      split
      · next hlt =>
        refine List.pairwise_cons.mpr ⟨?_, ih (kept_tail hl)⟩
        intro c hc
        rcases (mem_put h (kept_tail hl) hk v c).mp hc with rfl | ⟨hc', -⟩
        · exact hlt
        · exact hrest.1 c hc'
      · next hge =>
        split
        · next hz =>
          have hdk : d.1 = k := h.eq_of_zero d.1 k hd hk hz
          refine List.pairwise_cons.mpr ⟨?_, hrest.2⟩
          intro c hc
          rw [← hdk]
          exact hrest.1 c hc
        · next hnz =>
          have hkd : cmp k d.1 < 0 := by
            have := h.swap d.1 k hd hk
            omega
          refine List.pairwise_cons.mpr ⟨?_, hl.sorted⟩
          intro c hc
          rcases List.mem_cons.mp hc with rfl | hr
          · exact hkd
          · exact h.trans k d.1 c.1 hk hd (hl.keys c hc) hkd (hrest.1 c hr)
  · intro e he
    rcases (mem_put h hl hk v e).mp he with rfl | ⟨he', -⟩
    · exact hk
    · exact hl.keys e he'

/-- Entries before the wanted key are passed over. -/
theorem find_cons_of_neg {d : K × V} {k : K} (h : cmp d.1 k < 0) (l : List (K × V)) :
    find cmp k (d :: l) = find cmp k l := by
  have hn : ¬ 0 ≤ cmp d.1 k := by omega
  simp [find, lowerBound, hn]

/-- The first entry not before the wanted key decides the lookup. -/
theorem find_cons_of_nonneg {d : K × V} {k : K} (h : 0 ≤ cmp d.1 k) (l : List (K × V)) :
    find cmp k (d :: l) = if cmp d.1 k = 0 then some d else none := by
  simp [find, lowerBound, h, Option.filter_some]

/-- Whatever is found is stored. -/
theorem mem_of_find {k : K} {l : List (K × V)} {e : K × V} (h : find cmp k l = some e) :
    e ∈ l := by
  obtain ⟨he, -⟩ := Option.filter_eq_some_iff.mp h
  exact List.mem_of_find?_eq_some he

/-- Lookups with keys that compare equal to the stored ones, but not as the stored ones are
ordered: each finds its entry exactly if every earlier entry is before it. -/
theorem find_probe_iff (probe : K → K) {l : List (K × V)} (hl : l.Nodup)
    (hself : ∀ e ∈ l, cmp e.1 (probe e.1) = 0) :
    (∀ e ∈ l, find cmp (probe e.1) l = some e) ↔
      l.Pairwise (fun a b ↦ cmp a.1 (probe b.1) < 0) := by
  induction l with
  | nil => simp
  | cons d rest ih =>
    obtain ⟨hd, hrest⟩ := List.nodup_cons.mp hl
    have hi := ih hrest (fun e he ↦ hself e (List.mem_cons_of_mem d he))
    rw [List.pairwise_cons, ← hi]
    constructor
    · intro h
      have hbefore : ∀ e ∈ rest, cmp d.1 (probe e.1) < 0 := by
        intro e he
        by_contra hge
        have hf := h e (List.mem_cons_of_mem d he)
        rw [find_cons_of_nonneg (by omega)] at hf
        split at hf
        · cases hf
          exact hd he
        · cases hf
      refine ⟨hbefore, fun e he ↦ ?_⟩
      rw [← find_cons_of_neg (hbefore e he)]
      exact h e (List.mem_cons_of_mem d he)
    · rintro ⟨hbefore, h⟩ e he
      rcases List.mem_cons.mp he with rfl | he
      · have hz := hself e List.mem_cons_self
        rw [find_cons_of_nonneg (by omega), if_pos hz]
      · rw [find_cons_of_neg (hbefore e he)]
        exact h e he

/-- A point lookup at a stored key finds its entry, and nothing else. -/
theorem find_eq_some_iff (h : TotalOn cmp P) {l : List (K × V)} (hl : Kept cmp P l) {k : K}
    (hk : P k) (e : K × V) : find cmp k l = some e ↔ e ∈ l ∧ e.1 = k := by
  induction l with
  | nil => simp [find, lowerBound]
  | cons d rest ih =>
    have hd : P d.1 := hl.keys d (by simp)
    have hrest := List.pairwise_cons.mp hl.sorted
    by_cases hge : 0 ≤ cmp d.1 k
    · rw [find_cons_of_nonneg hge]
      have htail : ∀ c ∈ rest, c.1 ≠ k := by
        intro c hc he
        have hdc := hrest.1 c hc
        rw [he] at hdc
        omega
      constructor
      · intro hf
        split at hf
        · next hz =>
          have hde : d = e := Option.some.inj hf
          rw [← hde]
          exact ⟨by simp, h.eq_of_zero d.1 k hd hk hz⟩
        · cases hf
      · rintro ⟨hm, he⟩
        rcases List.mem_cons.mp hm with rfl | hr
        · rw [if_pos (by rw [he]; exact TotalOn.self h hk)]
        · exact absurd he (htail e hr)
    · have hne : d.1 ≠ k := by
        intro he
        rw [he] at hge
        exact hge (Int.le_of_eq (TotalOn.self h hk).symm)
      rw [find_cons_of_neg (by omega), ih (kept_tail hl), List.mem_cons]
      constructor
      · rintro ⟨hm, he⟩
        exact ⟨Or.inr hm, he⟩
      · rintro ⟨rfl | hm, he⟩
        · exact absurd he hne
        · exact ⟨hm, he⟩

/-- The point lookup reports exactly the stored values. -/
theorem get_eq_some_iff (h : TotalOn cmp P) {l : List (K × V)} (hl : Kept cmp P l) {k : K}
    (hk : P k) (v : V) : get cmp k l = some v ↔ (k, v) ∈ l := by
  rw [get, Option.map_eq_some_iff]
  constructor
  · rintro ⟨e, he, rfl⟩
    obtain ⟨hm, rfl⟩ := (find_eq_some_iff h hl hk e).mp he
    exact hm
  · intro hm
    exact ⟨(k, v), (find_eq_some_iff h hl hk _).mpr ⟨hm, rfl⟩, rfl⟩

/-- Writing at a key that is not stored adds one entry. -/
theorem put_perm_cons (h : TotalOn cmp P) {l : List (K × V)} (hl : Kept cmp P l) {k : K}
    (hk : P k) (v : V) (hfresh : ∀ e ∈ l, e.1 ≠ k) : (put cmp k v l).Perm ((k, v) :: l) := by
  induction l with
  | nil => simp [put]
  | cons d rest ih =>
    have hd : P d.1 := hl.keys d (by simp)
    rw [put]
    split
    · have hi := ih (kept_tail hl) (fun e he ↦ hfresh e (List.mem_cons_of_mem d he))
      exact (hi.cons d).trans (List.Perm.swap (k, v) d rest)
    · split
      · next hz => exact absurd (h.eq_of_zero d.1 k hd hk hz) (hfresh d (by simp))
      · exact List.Perm.refl _

end OrderedStore
end TimeMachine.Base
