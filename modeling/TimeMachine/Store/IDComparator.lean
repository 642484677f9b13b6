import TimeMachine.Store.ID
import TimeMachine.Base.OrderedStore
import Mathlib.Data.Set.Basic

/-!
# The key comparator

`IDComparator` orders keys by timestamp and then by unique number, except that a
key with timestamp zero is a wildcard: against any other key it is compared by
unique number alone, which is how subsampling looks a message up. The sign laws
hold on all keys; transitivity holds on a set of keys exactly when no wildcard of
the set sits between two dated keys whose unique numbers run against their
timestamps.
-/

namespace TimeMachine.Store.IDComparator
open TimeMachine.Base

/-- `src/IDComparator.cpp:30–36`. -/
def compareByTs (first second : ID) : Int :=
  -- if request ts is empty we should compare by unique (for subsampling)
  if first.timestamp = 0 ∨ second.timestamp = 0 then 0
  else if first.timestamp < second.timestamp then -1
  else if first.timestamp > second.timestamp then 1
  else 0

/-- `src/IDComparator.cpp:38–42`. -/
def compareByUnique (first second : ID) : Int :=
  if first.unique < second.unique then -1
  else if first.unique > second.unique then 1
  else 0

/-- `src/IDComparator.cpp:12–28`. -/
def compare (a b : Slice) : Int :=
  let k1 := deserializeID a
  let k2 := deserializeID b
  let result := compareByTs k1 k2
  if result = 0 then compareByUnique k1 k2 else result

/-- `src/IDComparator.cpp:59–62`. -/
def equal (a b : Slice) : Bool := compare a b = 0

/-- What a negative comparison says about the two identifiers. -/
def Before (x y : ID) : Prop :=
  if x.timestamp = 0 ∨ y.timestamp = 0 then x.unique < y.unique
  else x.timestamp < y.timestamp ∨ (x.timestamp = y.timestamp ∧ x.unique < y.unique)

/-- The comparison is negative exactly when the first identifier comes before the second. -/
theorem compare_neg_iff (a b : Slice) :
    compare a b < 0 ↔ Before (deserializeID a) (deserializeID b) := by
  simp only [compare, compareByTs, compareByUnique, Before]
  grind

/-- The comparison is positive exactly when the second identifier comes before the first. -/
theorem compare_pos_iff (a b : Slice) :
    0 < compare a b ↔ Before (deserializeID b) (deserializeID a) := by
  simp only [compare, compareByTs, compareByUnique, Before]
  grind

/-- Comparing in the other order gives the opposite number, on all keys. -/
theorem compare_swap (a b : Slice) : compare b a = -compare a b := by
  simp only [compare, compareByTs, compareByUnique]
  grind

/-- Every key compares equal to itself. -/
@[simp] theorem compare_self (a : Slice) : compare a a = 0 := by
  have h := compare_swap a a
  omega

/-- Against a key without a timestamp the unique numbers decide. -/
theorem compare_wildcard_neg_iff (a : Slice) (unique : UInt64) :
    compare a (serializeID ⟨0, unique⟩) < 0 ↔ (deserializeID a).unique < unique := by
  rw [compare_neg_iff, deserializeID_serializeID, Before, if_pos (Or.inr rfl)]

/-- A key compares equal to the key of its unique number without a timestamp. -/
theorem compare_wildcard_self (a : Slice) :
    compare a (serializeID ⟨0, (deserializeID a).unique⟩) = 0 := by
  have hn := compare_wildcard_neg_iff a (deserializeID a).unique
  have hp := compare_pos_iff a (serializeID ⟨0, (deserializeID a).unique⟩)
  rw [deserializeID_serializeID, Before, if_pos (Or.inl rfl)] at hp
  have hirrefl := UInt64.lt_irrefl (deserializeID a).unique
  have h1 : ¬ compare a (serializeID ⟨0, (deserializeID a).unique⟩) < 0 := fun h ↦
    hirrefl (hn.mp h)
  have h2 : ¬ 0 < compare a (serializeID ⟨0, (deserializeID a).unique⟩) := fun h ↦
    hirrefl (hp.mp h)
  omega

/-- A key compares equal to a unique number without a timestamp exactly if it has that number. -/
theorem compare_wildcard_eq_zero_iff (a : Slice) (unique : UInt64) :
    compare a (serializeID ⟨0, unique⟩) = 0 ↔ (deserializeID a).unique = unique := by
  constructor
  · intro hz
    have hn := compare_wildcard_neg_iff a unique
    have hp := compare_pos_iff a (serializeID ⟨0, unique⟩)
    rw [deserializeID_serializeID, Before, if_pos (Or.inl rfl)] at hp
    have h1 : ¬ (deserializeID a).unique < unique := fun h ↦ by
      have := hn.mpr h
      omega
    have h2 : ¬ unique < (deserializeID a).unique := fun h ↦ by
      have := hp.mpr h
      omega
    exact UInt64.le_antisymm (UInt64.not_lt.mp h2) (UInt64.not_lt.mp h1)
  · rintro rfl
    exact compare_wildcard_self a

/-! ### Keys with a timestamp -/

/-- A sixteen-byte key whose timestamp is not the wildcard. -/
def Dated (k : Slice) : Prop := k.length = 16 ∧ (deserializeID k).timestamp ≠ 0

/-- The key of an identifier with a timestamp is dated. -/
theorem dated_serializeID {id : ID} (h : id.timestamp ≠ 0) : Dated (serializeID id) := by
  rw [Dated, deserializeID_serializeID]
  exact ⟨length_serializeID id, h⟩

/-- Unsigned lexicographic order on timestamp and unique number. -/
def LexLt (x y : ID) : Prop :=
  x.timestamp < y.timestamp ∨ (x.timestamp = y.timestamp ∧ x.unique < y.unique)

instance LexLt.decidable (x y : ID) : Decidable (LexLt x y) :=
  inferInstanceAs (Decidable (x.timestamp < y.timestamp ∨
    (x.timestamp = y.timestamp ∧ x.unique < y.unique)))

/-- Nothing comes before itself. -/
theorem lexLt_irrefl (x : ID) : ¬ LexLt x x := by
  rintro (h | ⟨-, h⟩) <;> exact UInt64.lt_irrefl _ h

/-- The order is transitive. -/
theorem lexLt_trans {x y z : ID} (hxy : LexLt x y) (hyz : LexLt y z) : LexLt x z := by
  rw [LexLt] at *
  grind

/-- Of two identifiers only one comes before the other. -/
theorem lexLt_asymm {x y : ID} (hxy : LexLt x y) : ¬ LexLt y x :=
  fun hyx ↦ lexLt_irrefl x (lexLt_trans hxy hyx)

/-- On dated keys the comparator is the lexicographic order. -/
theorem compare_neg_iff_lexLt {a b : Slice} (ha : Dated a) (hb : Dated b) :
    compare a b < 0 ↔ LexLt (deserializeID a) (deserializeID b) := by
  rw [compare_neg_iff, Before, if_neg (by simp [ha.2, hb.2]), LexLt]

/-- On dated keys the comparator is a strict total order whose zero is byte equality. -/
theorem dated_total : TotalOn compare Dated where
  swap a b _ _ := compare_swap a b
  eq_of_zero := by
    intro a b ha hb h
    have hn := compare_neg_iff_lexLt ha hb
    have hp := compare_neg_iff_lexLt hb ha
    rw [compare_swap a b] at hp
    apply (deserializeID_inj ha.1 hb.1).mp
    rw [ID.mk.injEq]
    simp only [LexLt] at hn hp
    grind
  trans := by
    intro a b c ha hb hc hab hbc
    rw [compare_neg_iff_lexLt ha hb] at hab
    rw [compare_neg_iff_lexLt hb hc] at hbc
    rw [compare_neg_iff_lexLt ha hc]
    exact lexLt_trans hab hbc

/-- Dated keys compare equal only if they are equal. -/
theorem compare_eq_zero_iff {a b : Slice} (ha : Dated a) (hb : Dated b) :
    compare a b = 0 ↔ a = b := by
  constructor
  · exact dated_total.eq_of_zero a b ha hb
  · rintro rfl
    exact compare_self a

/-- On dated keys a positive comparison is the lexicographic order turned round. -/
theorem compare_pos_iff_lexLt {a b : Slice} (ha : Dated a) (hb : Dated b) :
    0 < compare a b ↔ LexLt (deserializeID b) (deserializeID a) := by
  rw [← compare_neg_iff_lexLt hb ha, compare_swap a b]
  omega

/-! ### Lookups by unique number -/

/-- The unique numbers of the stored keys strictly increase in iteration order. -/
def UniquesIncrease {V : Type} (l : List (Slice × V)) : Prop :=
  l.Pairwise (fun a b ↦ (deserializeID a.1).unique < (deserializeID b.1).unique)

instance UniquesIncrease.decidable {V : Type} (l : List (Slice × V)) :
    Decidable (UniquesIncrease l) :=
  inferInstanceAs (Decidable
    (l.Pairwise (fun a b ↦ (deserializeID a.1).unique < (deserializeID b.1).unique)))

/-- In a store ordered by timestamp and unique number, looking up each record by its unique
number alone finds that record exactly if the unique numbers increase too. -/
theorem find_by_unique_iff {V : Type} {l : List (Slice × V)}
    (hl : l.Pairwise (fun a b ↦ LexLt (deserializeID a.1) (deserializeID b.1))) :
    (∀ e ∈ l, OrderedStore.find compare (serializeID ⟨0, (deserializeID e.1).unique⟩) l = some e) ↔
      UniquesIncrease l := by
  have hnodup : l.Nodup := by
    refine List.nodup_iff_pairwise_ne.mpr (hl.imp ?_)
    rintro a b hab rfl
    exact lexLt_irrefl _ hab
  rw [OrderedStore.find_probe_iff (fun k ↦ serializeID ⟨0, (deserializeID k).unique⟩) hnodup
    (fun e _ ↦ compare_wildcard_self e.1), UniquesIncrease]
  simp only [compare_wildcard_neg_iff]

/-- The number of an entry that all entries before it are below. -/
def Found {V : Type} (l : List (Slice × V)) (unique : UInt64) : Prop :=
  ∃ before e after, l = before ++ e :: after ∧ (deserializeID e.1).unique = unique ∧
    ∀ d ∈ before, (deserializeID d.1).unique < unique

/-- A lookup by unique number alone finds something for exactly these numbers. -/
theorem isSome_find_iff {V : Type} {l : List (Slice × V)} {unique : UInt64} :
    (OrderedStore.find compare (serializeID ⟨0, unique⟩) l).isSome ↔ Found l unique := by
  have hbelow (d : Slice × V) :
      decide (0 ≤ compare d.1 (serializeID ⟨0, unique⟩)) = false ↔
        (deserializeID d.1).unique < unique := by
    rw [decide_eq_false_iff_not, not_le, compare_wildcard_neg_iff]
  constructor
  · intro h
    obtain ⟨e, he⟩ := Option.isSome_iff_exists.mp h
    obtain ⟨hlower, hz⟩ := Option.filter_eq_some_iff.mp he
    obtain ⟨-, before, after, rfl, hbefore⟩ := List.find?_eq_some_iff_append.mp hlower
    have hz := (compare_wildcard_eq_zero_iff e.1 unique).mp (of_decide_eq_true hz)
    exact ⟨before, e, after, rfl, hz, fun d hd ↦ (hbelow d).mp (by simpa using hbefore d hd)⟩
  · rintro ⟨before, e, after, rfl, he, hbefore⟩
    have hz := (compare_wildcard_eq_zero_iff e.1 unique).mpr he
    have hlower : OrderedStore.lowerBound compare (serializeID ⟨0, unique⟩)
        (before ++ e :: after) = some e := by
      refine List.find?_eq_some_iff_append.mpr ⟨by simp [hz], before, after, rfl, fun d hd ↦ ?_⟩
      rw [(hbelow d).mpr (hbefore d hd)]
      rfl
    rw [OrderedStore.find, hlower, Option.filter_some, if_pos (by simpa using hz)]
    rfl

/-- What a lookup by unique number alone finds: the first entry whose number is not below. -/
theorem split_of_find {V : Type} {l : List (Slice × V)} {unique : UInt64} {e : Slice × V}
    (h : OrderedStore.find compare (serializeID ⟨0, unique⟩) l = some e) :
    ∃ before after, l = before ++ e :: after ∧ (deserializeID e.1).unique = unique ∧
      ∀ d ∈ before, (deserializeID d.1).unique < unique := by
  obtain ⟨hlower, hz⟩ := Option.filter_eq_some_iff.mp h
  obtain ⟨-, before, after, hl, hbefore⟩ := List.find?_eq_some_iff_append.mp hlower
  refine ⟨before, after, hl,
    (compare_wildcard_eq_zero_iff e.1 unique).mp (of_decide_eq_true hz), fun d hd ↦ ?_⟩
  have hneg : ¬ 0 ≤ compare d.1 (serializeID ⟨0, unique⟩) := by simpa using hbefore d hd
  exact (compare_wildcard_neg_iff d.1 unique).mp (not_le.mp hneg)

/-! ### Where the wildcard breaks the order -/

/-- A wildcard `w` between two dated identifiers whose unique numbers run against
their timestamps. -/
def Straddled (w x y : ID) : Prop :=
  w.timestamp = 0 ∧ x.timestamp ≠ 0 ∧ x.timestamp < y.timestamp ∧
    y.unique ≤ w.unique ∧ w.unique ≤ x.unique

/-- Transitivity, and equal keys being interchangeable, on the keys of a set. -/
structure OrderLaws (S : Set Slice) : Prop where
  trans : ∀ a ∈ S, ∀ b ∈ S, ∀ c ∈ S, compare a b ≤ 0 → compare b c ≤ 0 → compare a c ≤ 0
  congr : ∀ a ∈ S, ∀ b ∈ S, ∀ c ∈ S, equal a b = true →
    (compare a c).sign = (compare b c).sign

private theorem trans_of_unstraddled (a b c : Slice)
    (h1 : ¬ Straddled (deserializeID a) (deserializeID b) (deserializeID c))
    (h2 : ¬ Straddled (deserializeID b) (deserializeID c) (deserializeID a))
    (h3 : ¬ Straddled (deserializeID c) (deserializeID a) (deserializeID b))
    (hab : compare a b ≤ 0) (hbc : compare b c ≤ 0) : compare a c ≤ 0 := by
  -- a positive comparison of the ends makes one of the three the straddled wildcard
  have hab' := compare_pos_iff a b
  have hbc' := compare_pos_iff b c
  have hac' := compare_pos_iff a c
  simp only [Straddled, Before] at *
  grind

private theorem sign_congr_of_unstraddled (a b c : Slice)
    (h1 : ¬ Straddled (deserializeID a) (deserializeID b) (deserializeID c))
    (h2 : ¬ Straddled (deserializeID a) (deserializeID c) (deserializeID b))
    (h3 : ¬ Straddled (deserializeID b) (deserializeID a) (deserializeID c))
    (h4 : ¬ Straddled (deserializeID b) (deserializeID c) (deserializeID a))
    (hab : equal a b = true) : (compare a c).sign = (compare b c).sign := by
  have hz : compare a b = 0 := by simpa [equal] using hab
  have hneg : compare a c < 0 ↔ compare b c < 0 := by
    have hab' := compare_pos_iff a b
    have hba' := compare_neg_iff a b
    rw [compare_neg_iff, compare_neg_iff]
    simp only [Straddled, Before] at *
    grind
  have hpos : 0 < compare a c ↔ 0 < compare b c := by
    have hab' := compare_pos_iff a b
    have hba' := compare_neg_iff a b
    rw [compare_pos_iff, compare_pos_iff]
    simp only [Straddled, Before] at *
    grind
  rcases lt_trichotomy (compare a c) 0 with h | h | h
  · rw [Int.sign_eq_neg_one_of_neg h, Int.sign_eq_neg_one_of_neg (hneg.mp h)]
  · have h' : compare b c = 0 := by omega
    rw [h, h']
  · rw [Int.sign_eq_one_of_pos h, Int.sign_eq_one_of_pos (hpos.mp h)]

/-- The sign law holds on all keys; the other two laws hold on a set of keys exactly when
the set has no straddled wildcard. -/
theorem order_laws_iff (S : Set Slice) :
    (∀ a b : Slice, (compare b a).sign = -(compare a b).sign) ∧
    (OrderLaws S ↔ ∀ w ∈ S, ∀ x ∈ S, ∀ y ∈ S,
      ¬ Straddled (deserializeID w) (deserializeID x) (deserializeID y)) := by
  refine ⟨fun a b ↦ by rw [compare_swap, Int.sign_neg], ?_, ?_⟩
  · rintro h w hw x hx y hy ⟨hz, hn, hts, hyw, hwx⟩
    -- the later key passes below the wildcard, and the wildcard below the earlier key
    have hy0 : ¬ (deserializeID y).timestamp = 0 := by grind
    have h1 : ¬ 0 < compare y w := by
      rw [compare_pos_iff, Before, if_pos (Or.inl hz)]
      grind
    have h2 : ¬ 0 < compare w x := by
      rw [compare_pos_iff, Before, if_pos (Or.inr hz)]
      grind
    have h3 : 0 < compare y x := by
      rw [compare_pos_iff, Before, if_neg (by simp [hn, hy0])]
      exact Or.inl hts
    have := h.trans y hy w hw x hx (by omega) (by omega)
    omega
  · intro h
    refine ⟨fun a ha b hb c hc ↦ ?_, fun a ha b hb c hc ↦ ?_⟩
    · exact trans_of_unstraddled a b c (h a ha b hb c hc) (h b hb c hc a ha) (h c hc a ha b hb)
    · exact sign_congr_of_unstraddled a b c (h a ha b hb c hc) (h a ha c hc b hb)
        (h b hb a ha c hc) (h b hb c hc a ha)

/-- The wildcard with unique number 2 passes between two dated keys in the wrong order, and
equals a dated key that compares differently with a third. -/
theorem wildcard_breaks_order :
    ¬ ∀ a b c : Slice, a.length = 16 → b.length = 16 → c.length = 16 →
      (compare b a).sign = -(compare a b).sign ∧
      (compare a b ≤ 0 → compare b c ≤ 0 → compare a c ≤ 0) ∧
      (equal a b = true → (compare a c).sign = (compare b c).sign) := by
  intro h
  have ht := (h (serializeID ⟨5, 1⟩) (serializeID ⟨0, 2⟩) (serializeID ⟨3, 3⟩)
    (by decide) (by decide) (by decide)).2.1
  exact absurd (ht (by decide) (by decide)) (by decide)

end TimeMachine.Store.IDComparator
