import Mathlib.Algebra.Group.Nat.Defs

/-!
# Byte strings and little-endian words

Fixed-width little-endian encodings, as `std::memcpy` leaves an unsigned word in
memory on a little-endian machine. Widths are in bytes. Reading is total: a
missing high-order byte counts as zero, so only complete words are recovered.
-/

namespace TimeMachine.Base

/-- The contents of a `std::string`, byte by byte. -/
abbrev Bytes := List UInt8

/-- The `width` low-order bytes of `n`, least significant first. -/
def leBytes : Nat → Nat → Bytes
  | 0, _ => []
  | width + 1, n => UInt8.ofNat n :: leBytes width (n / 256)

/-- The number a little-endian byte string stands for. -/
def leNat : Bytes → Nat
  | [] => 0
  | b :: rest => b.toNat + 256 * leNat rest

/-- A width of `n` bytes is written with `n` bytes. -/
@[simp] theorem length_leBytes (width n : Nat) : (leBytes width n).length = width := by
  induction width generalizing n with
  | zero => rfl
  | succ width ih => simp only [leBytes, List.length_cons, ih]

/-- Reading what was written keeps the bits that fit the width. -/
theorem leNat_leBytes (width n : Nat) : leNat (leBytes width n) = n % 256 ^ width := by
  induction width generalizing n with
  | zero => simp only [leBytes, leNat, Nat.pow_zero, Nat.mod_one]
  | succ width ih =>
    have hsplit : n % 256 ^ (width + 1) = n % 256 + 256 * (n / 256 % 256 ^ width) := by
      rw [Nat.pow_succ', Nat.mod_mul]
    rw [hsplit, leBytes, leNat, ih, UInt8.toNat_ofNat']

/-- A byte string stands for a number below the bound of its width. -/
theorem leNat_lt (bs : Bytes) : leNat bs < 256 ^ bs.length := by
  induction bs with
  | nil => simp [leNat]
  | cons b rest ih =>
    have hb : b.toNat < 256 := b.toNat_lt
    simp only [leNat, List.length_cons, Nat.pow_succ]
    omega

/-- Writing what was read recovers every byte. -/
theorem leBytes_leNat (bs : Bytes) : leBytes bs.length (leNat bs) = bs := by
  induction bs with
  | nil => rfl
  | cons b rest ih =>
    have hb : b.toNat < 256 := b.toNat_lt
    have hlow : UInt8.ofNat (b.toNat + 256 * leNat rest) = b := by
      apply UInt8.toNat_inj.mp
      rw [UInt8.toNat_ofNat']
      omega
    have hhigh : (b.toNat + 256 * leNat rest) / 256 = leNat rest := by omega
    simp only [List.length_cons, leBytes, leNat, hlow, hhigh, ih]

/-- The eight bytes of a 64-bit word, least significant first. -/
def wordBytes (w : UInt64) : Bytes := leBytes 8 w.toNat

/-- The 64-bit word at the front of a byte string. -/
def readWord (bs : Bytes) : UInt64 := UInt64.ofNat (leNat (bs.take 8))

/-- A word takes eight bytes. -/
@[simp] theorem length_wordBytes (w : UInt64) : (wordBytes w).length = 8 := length_leBytes 8 _

/-- A word is read back from its bytes, whatever follows them. -/
@[simp] theorem readWord_wordBytes (w : UInt64) (rest : Bytes) :
    readWord (wordBytes w ++ rest) = w := by
  have ht : (wordBytes w ++ rest).take 8 = wordBytes w := by
    rw [List.take_append_of_le_length (by simp), List.take_of_length_le (by simp)]
  rw [readWord, ht, wordBytes, leNat_leBytes]
  apply UInt64.toNat_inj.mp
  rw [UInt64.toNat_ofNat']
  have := w.toNat_lt
  omega

/-- The bytes of the word at the front are the first eight bytes. -/
theorem wordBytes_readWord (bs : Bytes) (h : 8 ≤ bs.length) :
    wordBytes (readWord bs) = bs.take 8 := by
  have hl : (bs.take 8).length = 8 := by rw [List.length_take]; omega
  have hn := leNat_lt (bs.take 8)
  rw [hl] at hn
  have hm : leNat (bs.take 8) % 2 ^ 64 = leNat (bs.take 8) := Nat.mod_eq_of_lt hn
  rw [wordBytes, readWord, UInt64.toNat_ofNat', hm]
  have hb := leBytes_leNat (bs.take 8)
  rwa [hl] at hb

end TimeMachine.Base
