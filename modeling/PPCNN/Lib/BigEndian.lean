import PPCNN.Lib.Bytes
import Mathlib.Data.Nat.Bitwise

/-!
# Big-endian numbers

`beBytes w n` is the number in `w` bytes, the highest first, and `beNat` reads it back. A program that
reads such a number with a word of a little-endian machine gets the bytes in the reverse order, and
`swapBytes` puts them right (`toNat_swapBytes`).
-/

set_option autoImplicit false

namespace Lib

/-- The low `w` bytes of a number, the highest first. -/
def beBytes (w n : ℕ) : List UInt8 := (leBytes w n).reverse

def beNat (bs : List UInt8) : ℕ := leNat bs.reverse

@[simp] theorem length_beBytes (w n : ℕ) : (beBytes w n).length = w := by
  rw [beBytes, List.length_reverse, length_leBytes]

theorem beNat_beBytes (w n : ℕ) : beNat (beBytes w n) = n % 2 ^ (8 * w) := by
  rw [beNat, beBytes, List.reverse_reverse, leNat_leBytes]

theorem leNat_lt (bs : List UInt8) : leNat bs < 2 ^ (8 * bs.length) := by
  induction bs with
  | nil => simp [leNat]
  | cons b bs ih =>
    have hb := b.toNat_lt
    have hcons : leNat (b :: bs) = b.toNat + 2 ^ 8 * leNat bs := rfl
    rw [hcons, List.length_cons, Nat.mul_succ, Nat.pow_add]
    omega

theorem beNat_lt (bs : List UInt8) : beNat bs < 2 ^ (8 * bs.length) := by
  have hlt := leNat_lt bs.reverse
  rwa [List.length_reverse] at hlt

/-- The byte at bit `k`. -/
theorem and_byte (x k : ℕ) : x &&& 255 * 2 ^ k = x / 2 ^ k % 2 ^ 8 * 2 ^ k := by
  apply Nat.eq_of_testBit_eq
  intro j
  rw [Nat.testBit_and, Nat.testBit_mul_two_pow, Nat.testBit_mul_two_pow]
  by_cases hj : k ≤ j
  · rw [Nat.testBit_mod_two_pow, Nat.testBit_div_two_pow, Nat.sub_add_cancel hj,
      show (255 : ℕ) = 2 ^ 8 - 1 from rfl, Nat.testBit_two_pow_sub_one]
    cases x.testBit j <;> simp [hj]
  · simp [hj]

/-- The bytes of a word in the reverse order. -/
def swapBytes (value : UInt32) : UInt32 :=
  (value <<< (24 : UInt32)) ||| ((value <<< (8 : UInt32)) &&& (0x00FF0000 : UInt32)) |||
    ((value >>> (8 : UInt32)) &&& (0x0000FF00 : UInt32)) |||
    (value >>> (24 : UInt32))

/-- A big-endian number that was read as a little-endian one. -/
theorem toNat_swapBytes {bs : List UInt8} (h : bs.length = 4) :
    (swapBytes (.ofNat (leNat bs))).toNat = beNat bs := by
  obtain ⟨a, b, c, d, rfl⟩ : ∃ a b c d, bs = [a, b, c, d] := by
    match bs, h with
    | [a, b, c, d], _ => exact ⟨a, b, c, d, rfl⟩
  have ha := a.toNat_lt
  have hb := b.toNat_lt
  have hc := c.toNat_lt
  have hd := d.toNat_lt
  generalize hv : leNat [a, b, c, d] = v
  have hval : v = a.toNat + 2 ^ 8 * (b.toNat + 2 ^ 8 * (c.toNat + 2 ^ 8 * d.toNat)) := by
    rw [← hv]
    simp [leNat]
  have hbig : beNat [a, b, c, d] =
      d.toNat + 2 ^ 8 * (c.toNat + 2 ^ 8 * (b.toNat + 2 ^ 8 * a.toNat)) := by
    simp [beNat, leNat]
  have hmask16 : (0x00FF0000 : UInt32).toNat = 255 * 2 ^ 16 := rfl
  have hmask8 : (0x0000FF00 : UInt32).toNat = 255 * 2 ^ 8 := rfl
  have hv32 : (UInt32.ofNat v).toNat = v := by
    rw [UInt32.toNat_ofNat']
    omega
  simp only [swapBytes, UInt32.toNat_or, UInt32.toNat_and, UInt32.toNat_shiftLeft,
    UInt32.toNat_shiftRight, hv32, hmask16, hmask8, and_byte, Nat.shiftLeft_eq, Nat.shiftRight_eq_div_pow]
  have h24 : v * 2 ^ ((24 : UInt32).toNat % 32) % 2 ^ 32 = 2 ^ 24 * a.toNat := by
    rw [show (24 : UInt32).toNat % 32 = 24 from rfl]
    omega
  have h16 : v * 2 ^ ((8 : UInt32).toNat % 32) % 2 ^ 32 / 2 ^ 16 % 2 ^ 8 = b.toNat := by
    rw [show (8 : UInt32).toNat % 32 = 8 from rfl]
    omega
  have h8 : v / 2 ^ ((8 : UInt32).toNat % 32) / 2 ^ 8 % 2 ^ 8 = c.toNat := by
    rw [show (8 : UInt32).toNat % 32 = 8 from rfl]
    omega
  have h0 : v / 2 ^ ((24 : UInt32).toNat % 32) = d.toNat := by
    rw [show (24 : UInt32).toNat % 32 = 24 from rfl]
    omega
  rw [h24, h16, h8, h0, hbig, ← Nat.two_pow_add_eq_or_of_lt (show b.toNat * 2 ^ 16 < 2 ^ 24 by omega),
    show 2 ^ 24 * a.toNat + b.toNat * 2 ^ 16 = 2 ^ 16 * (2 ^ 8 * a.toNat + b.toNat) by omega,
    ← Nat.two_pow_add_eq_or_of_lt (show c.toNat * 2 ^ 8 < 2 ^ 16 by omega),
    show 2 ^ 16 * (2 ^ 8 * a.toNat + b.toNat) + c.toNat * 2 ^ 8 =
      2 ^ 8 * (2 ^ 8 * (2 ^ 8 * a.toNat + b.toNat) + c.toNat) by omega,
    ← Nat.two_pow_add_eq_or_of_lt hd]
  omega

end Lib
