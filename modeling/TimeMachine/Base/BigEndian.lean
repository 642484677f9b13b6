import TimeMachine.Base.Bytes
import Mathlib.Algebra.Group.Int.Defs

/-!
# Big-endian words

The network byte order: fixed-width encodings with the most significant byte
first, for unsigned numbers and for the signed 32- and 64-bit integers in two's
complement.
-/

namespace TimeMachine.Base

/-- The `width` low-order bytes of `n`, most significant first. -/
def beBytes (width n : Nat) : Bytes := (leBytes width n).reverse

/-- The number a big-endian byte string stands for. -/
def beNat (bs : Bytes) : Nat := leNat bs.reverse

/-- A width of `n` bytes is written with `n` bytes. -/
@[simp] theorem length_beBytes (width n : Nat) : (beBytes width n).length = width := by
  rw [beBytes, List.length_reverse, length_leBytes]

/-- Reading what was written keeps the bits that fit the width. -/
theorem beNat_beBytes (width n : Nat) : beNat (beBytes width n) = n % 256 ^ width := by
  rw [beNat, beBytes, List.reverse_reverse, leNat_leBytes]

/-- A byte string stands for a number below the bound of its width. -/
theorem beNat_lt (bs : Bytes) : beNat bs < 256 ^ bs.length := by
  have h := leNat_lt bs.reverse
  rwa [List.length_reverse] at h

/-- Writing what was read recovers every byte. -/
theorem beBytes_beNat (bs : Bytes) : beBytes bs.length (beNat bs) = bs := by
  have h := leBytes_leNat bs.reverse
  rw [List.length_reverse] at h
  rw [beBytes, beNat, h, List.reverse_reverse]

/-- The eight bytes of a signed 64-bit integer, most significant first. -/
def longBytes (v : Int64) : Bytes := beBytes 8 v.toUInt64.toNat

/-- The four bytes of a signed 32-bit integer, most significant first. -/
def intBytes (v : Int32) : Bytes := beBytes 4 v.toUInt32.toNat

/-- The signed 64-bit integer a byte string stands for. -/
def beLong (bs : Bytes) : Int64 := (UInt64.ofNat (beNat bs)).toInt64

/-- The signed 32-bit integer a byte string stands for. -/
def beInt (bs : Bytes) : Int32 := (UInt32.ofNat (beNat bs)).toInt32

/-- A 64-bit integer takes eight bytes. -/
@[simp] theorem length_longBytes (v : Int64) : (longBytes v).length = 8 := length_beBytes 8 _

/-- A 32-bit integer takes four bytes. -/
@[simp] theorem length_intBytes (v : Int32) : (intBytes v).length = 4 := length_beBytes 4 _

/-- A number that is an `int` is written like the unsigned number. -/
theorem intBytes_ofNat {n : Nat} (h : n < 2 ^ 31) : intBytes (Int32.ofNat n) = beBytes 4 n := by
  have hnat : (Int32.ofNat n).toUInt32.toNat = n := by
    change n % 2 ^ 32 = n
    omega
  rw [intBytes, hnat]

/-- A 64-bit integer is read back from its bytes. -/
@[simp] theorem beLong_longBytes (v : Int64) : beLong (longBytes v) = v := by
  have hlt : v.toUInt64.toNat < 256 ^ 8 := v.toUInt64.toNat_lt
  rw [beLong, longBytes, beNat_beBytes, Nat.mod_eq_of_lt hlt, UInt64.ofNat_toNat]
  exact Int64.toInt64_toUInt64 v

/-- A 32-bit integer is read back from its bytes. -/
@[simp] theorem beInt_intBytes (v : Int32) : beInt (intBytes v) = v := by
  have hlt : v.toUInt32.toNat < 256 ^ 4 := v.toUInt32.toNat_lt
  rw [beInt, intBytes, beNat_beBytes, Nat.mod_eq_of_lt hlt, UInt32.ofNat_toNat]
  exact Int32.toInt32_toUInt32 v

/-- Eight bytes are the bytes of the 64-bit integer read from them. -/
theorem longBytes_beLong (bs : Bytes) (h : bs.length = 8) : longBytes (beLong bs) = bs := by
  have hlt := beNat_lt bs
  have hb := beBytes_beNat bs
  rw [h] at hlt hb
  have hm : beNat bs % 2 ^ 64 = beNat bs := Nat.mod_eq_of_lt hlt
  rw [longBytes, beLong, UInt64.toUInt64_toInt64, UInt64.toNat_ofNat', hm, hb]

/-- Four bytes are the bytes of the 32-bit integer read from them. -/
theorem intBytes_beInt (bs : Bytes) (h : bs.length = 4) : intBytes (beInt bs) = bs := by
  have hlt := beNat_lt bs
  have hb := beBytes_beNat bs
  rw [h] at hlt hb
  have hm : beNat bs % 2 ^ 32 = beNat bs := Nat.mod_eq_of_lt hlt
  rw [intBytes, beInt, UInt32.toUInt32_toInt32, UInt32.toNat_ofNat', hm, hb]

/-- Four bytes stand for a number in two's complement. -/
theorem toInt_beInt {bs : Bytes} (h : bs.length = 4) :
    (beInt bs).toInt = if beNat bs < 2 ^ 31 then (beNat bs : Int) else beNat bs - 2 ^ 32 := by
  have hlt := beNat_lt bs
  rw [h] at hlt
  have hm : beNat bs % 2 ^ 32 = beNat bs := Nat.mod_eq_of_lt hlt
  have hint : (beInt bs).toInt =
      if 2 * (UInt32.ofNat (beNat bs)).toNat < 2 ^ 32 then
        ((UInt32.ofNat (beNat bs)).toNat : Int)
      else (UInt32.ofNat (beNat bs)).toNat - 2 ^ 32 := BitVec.toInt_eq_toNat_cond _
  rw [hint, UInt32.toNat_ofNat', hm]
  split <;> split <;> omega

/-! ### Words put together by shifts -/

private theorem toNat_byte_shiftLeft (x : UInt8) {k : UInt32} (hk : k.toNat ≤ 24) :
    (x.toUInt32 <<< k).toNat = x.toNat * 2 ^ k.toNat := by
  have hx := x.toNat_lt
  have hpow : 2 ^ k.toNat ≤ 2 ^ 24 := Nat.pow_le_pow_right (by decide) hk
  have hmul : x.toNat * 2 ^ k.toNat ≤ 255 * 2 ^ 24 := Nat.mul_le_mul (by omega) hpow
  rw [UInt32.toNat_shiftLeft, UInt8.toNat_toUInt32, Nat.mod_eq_of_lt (a := k.toNat) (by omega),
    Nat.shiftLeft_eq, Nat.mod_eq_of_lt (by omega)]

private theorem mul_or_of_lt {x low : Nat} (i : Nat) (h : low < 2 ^ i) :
    x * 2 ^ i ||| low = x * 2 ^ i + low := by
  rw [← Nat.shiftLeft_eq, ← Nat.shiftLeft_add_eq_or_of_lt h]

private theorem toNat_shifts (a b c d : UInt8) :
    (a.toUInt32 <<< 24 ||| b.toUInt32 <<< 16 ||| c.toUInt32 <<< 8 ||| d.toUInt32 <<< 0).toNat =
      beNat [a, b, c, d] := by
  have hb := b.toNat_lt
  have hc := c.toNat_lt
  have hd := d.toNat_lt
  have hval : beNat [a, b, c, d] =
      a.toNat * 2 ^ 24 + (b.toNat * 2 ^ 16 + (c.toNat * 2 ^ 8 + d.toNat)) := by
    simp only [beNat, leNat, List.reverse_cons, List.reverse_nil, List.nil_append,
      List.cons_append]
    omega
  rw [UInt32.toNat_or, UInt32.toNat_or, UInt32.toNat_or, toNat_byte_shiftLeft a (by decide),
    toNat_byte_shiftLeft b (by decide), toNat_byte_shiftLeft c (by decide),
    toNat_byte_shiftLeft d (by decide), Nat.or_assoc, Nat.or_assoc, hval]
  change a.toNat * 2 ^ 24 ||| (b.toNat * 2 ^ 16 ||| (c.toNat * 2 ^ 8 ||| d.toNat * 2 ^ 0)) = _
  rw [Nat.pow_zero, Nat.mul_one, mul_or_of_lt 8 hd, mul_or_of_lt 16 (by omega),
    mul_or_of_lt 24 (by omega)]

/-- Four bytes shifted to their places and combined are the signed number they stand for. -/
theorem shifts_eq_beInt (a b c d : UInt8) :
    a.toUInt32.toInt32 <<< 24 ||| b.toUInt32.toInt32 <<< 16 ||| c.toUInt32.toInt32 <<< 8 |||
      d.toUInt32.toInt32 <<< 0 = beInt [a, b, c, d] := by
  rw [beInt, ← toNat_shifts, UInt32.ofNat_toNat]
  rfl

end TimeMachine.Base
