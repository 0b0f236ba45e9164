import Mathlib.Algebra.Order.Field.Rat
import Mathlib.Data.Int.Log
import Mathlib.Data.Rat.Floor
import Mathlib.Tactic.Linarith
import Mathlib.Tactic.Ring

/-!
# Rounding to binary digits

`roundAt e` takes a rational number to the nearest multiple of `2 ^ e`, and of two equally near ones to
the even one. A `float` has 24 digits, none below `2 ^ (-149)` (`binary32`). `ceil_roundDigits_div`: the
quotient of two natural numbers of which the first has at most as many digits as are kept has the
ceiling of the exact quotient.
-/

set_option autoImplicit false

namespace Lib

/-! ## Integers -/

/-- The nearest integer, and the even one of two. -/
def roundEven (x : ℚ) : ℤ :=
  if Int.fract x < 1 / 2 then ⌊x⌋
  else if 1 / 2 < Int.fract x then ⌊x⌋ + 1
  else if ⌊x⌋ % 2 = 0 then ⌊x⌋
  else ⌊x⌋ + 1

variable {x : ℚ} {e j : ℤ} {p n d : ℕ}

theorem roundEven_cases (x : ℚ) :
    (roundEven x = ⌊x⌋ ∧ Int.fract x ≤ 1 / 2) ∨ (roundEven x = ⌊x⌋ + 1 ∧ 1 / 2 ≤ Int.fract x) := by
  unfold roundEven
  split
  · rename_i hlt
    exact .inl ⟨rfl, hlt.le⟩
  · rename_i hge
    split
    · rename_i hgt
      exact .inr ⟨rfl, hgt.le⟩
    · rename_i hle
      split
      · exact .inl ⟨rfl, not_lt.1 hle⟩
      · exact .inr ⟨rfl, not_lt.1 hge⟩

theorem abs_roundEven_sub_le (x : ℚ) : |(roundEven x : ℚ) - x| ≤ 1 / 2 := by
  have hfract := Int.floor_add_fract x
  have hlt := Int.fract_lt_one x
  have hnonneg := Int.fract_nonneg x
  rw [abs_le]
  rcases roundEven_cases x with ⟨h, hle⟩ | ⟨h, hle⟩
  · rw [h]
    constructor <;> linarith
  · rw [h]
    push_cast
    constructor <;> linarith

/-- Rounding does not pass an integer. -/
theorem le_roundEven {m : ℤ} (h : (m : ℚ) ≤ x) : m ≤ roundEven x := by
  have hfloor : m ≤ ⌊x⌋ := Int.le_floor.2 h
  rcases roundEven_cases x with ⟨hr, -⟩ | ⟨hr, -⟩ <;> omega

theorem roundEven_le {m : ℤ} (h : x ≤ m) : roundEven x ≤ m := by
  rcases roundEven_cases x with ⟨hr, -⟩ | ⟨hr, hhalf⟩
  · rw [hr]
    exact_mod_cast (Int.floor_le x).trans h
  · have hlt : (⌊x⌋ : ℚ) < m := by
      have := Int.floor_add_fract x
      linarith
    rw [hr]
    exact_mod_cast hlt

/-! ## Multiples of a power of two -/

def roundAt (e : ℤ) (x : ℚ) : ℚ := roundEven (x / 2 ^ e) * 2 ^ e

theorem two_zpow_pos (e : ℤ) : (0 : ℚ) < 2 ^ e := zpow_pos two_pos e

theorem abs_roundAt_sub_le (e : ℤ) (x : ℚ) : |roundAt e x - x| ≤ 2 ^ e / 2 := by
  have hpos := two_zpow_pos e
  have hx : roundAt e x - x = (roundEven (x / 2 ^ e) - x / 2 ^ e) * 2 ^ e := by
    rw [roundAt, sub_mul, div_mul_cancel₀ _ hpos.ne']
  rw [hx, abs_mul, abs_of_pos hpos]
  calc |(roundEven (x / 2 ^ e) : ℚ) - x / 2 ^ e| * 2 ^ e
      ≤ 1 / 2 * 2 ^ e := mul_le_mul_of_nonneg_right (abs_roundEven_sub_le _) hpos.le
    _ = 2 ^ e / 2 := by ring

theorem le_roundAt {m : ℤ} (h : m * 2 ^ e ≤ x) : m * 2 ^ e ≤ roundAt e x := by
  have hpos := two_zpow_pos e
  refine mul_le_mul_of_nonneg_right ?_ hpos.le
  exact_mod_cast le_roundEven ((le_div_iff₀ hpos).2 h)

theorem roundAt_le {m : ℤ} (h : x ≤ m * 2 ^ e) : roundAt e x ≤ m * 2 ^ e := by
  have hpos := two_zpow_pos e
  refine mul_le_mul_of_nonneg_right ?_ hpos.le
  exact_mod_cast roundEven_le ((div_le_iff₀ hpos).2 h)

/-- A higher power is a multiple. -/
theorem two_zpow_eq_mul (h : e ≤ j) : (2 : ℚ) ^ j = ((2 ^ (j - e).toNat : ℤ) : ℚ) * 2 ^ e := by
  rw [Int.cast_pow, Int.cast_ofNat, ← zpow_natCast, ← zpow_add₀ two_ne_zero]
  congr 1
  omega

theorem two_zpow_le_roundAt (he : e ≤ j) (h : 2 ^ j ≤ x) : 2 ^ j ≤ roundAt e x := by
  rw [two_zpow_eq_mul he] at h ⊢
  exact le_roundAt h

theorem roundAt_le_two_zpow (he : e ≤ j) (h : x ≤ 2 ^ j) : roundAt e x ≤ 2 ^ j := by
  rw [two_zpow_eq_mul he] at h ⊢
  exact roundAt_le h

theorem roundAt_le_neg_two_zpow (he : e ≤ j) (h : x ≤ -2 ^ j) : roundAt e x ≤ -2 ^ j := by
  rw [two_zpow_eq_mul he, ← neg_mul, ← Int.cast_neg] at h ⊢
  exact roundAt_le h

/-- Multiples are kept. -/
theorem roundAt_natCast (he : e ≤ 0) (n : ℕ) : roundAt e n = n := by
  have hn : (n : ℚ) = ((n * 2 ^ (0 - e).toNat : ℤ) : ℚ) * 2 ^ e := by
    have hone := two_zpow_eq_mul he
    rw [zpow_zero] at hone
    rw [Int.cast_mul, mul_assoc, ← hone, mul_one, Int.cast_natCast]
  rw [hn]
  exact le_antisymm (roundAt_le le_rfl) (le_roundAt le_rfl)

/-! ## Digits -/

/-- The exponent of the last of `p` digits. -/
def lastDigit (p : ℕ) (x : ℚ) : ℤ := Int.log 2 |x| - (p - 1)

/-- The nearest number of `p` digits. -/
def roundDigits (p : ℕ) (x : ℚ) : ℚ := roundAt (lastDigit p x) x

theorem two_zpow_log_le (h : 0 < x) : 2 ^ Int.log 2 |x| ≤ x := by
  rw [abs_of_pos h]
  exact Int.zpow_log_le_self one_lt_two h

theorem lastDigit_natCast_nonpos (hp : 0 < p) (h : n < 2 ^ p) : lastDigit p n ≤ 0 := by
  have hlog : Nat.log 2 n ≤ p - 1 := by
    rcases Nat.eq_zero_or_pos n with rfl | hn
    · simp
    · exact Nat.le_sub_one_of_lt (Nat.log_lt_of_lt_pow hn.ne' h)
  rw [lastDigit, Nat.abs_cast, Int.log_natCast]
  omega

theorem roundDigits_natCast (hp : 0 < p) (h : n < 2 ^ p) : roundDigits p n = n :=
  roundAt_natCast (lastDigit_natCast_nonpos hp h) n

theorem lastDigit_le_log (hp : 0 < p) (x : ℚ) : lastDigit p x ≤ Int.log 2 |x| := by
  rw [lastDigit]
  omega

/-- The leading power of two is kept. -/
theorem two_zpow_log_le_roundDigits (hp : 0 < p) (h : 0 < x) : 2 ^ Int.log 2 |x| ≤ roundDigits p x :=
  two_zpow_le_roundAt (lastDigit_le_log hp x) (two_zpow_log_le h)

theorem roundDigits_le_one (hp : 0 < p) (h0 : 0 < x) (h1 : x ≤ 1) : roundDigits p x ≤ 1 := by
  have hlog : Int.log 2 |x| ≤ 0 := by
    rw [abs_of_pos h0]
    simpa using Int.log_mono_right h0 h1
  rw [← zpow_zero (2 : ℚ)] at h1 ⊢
  exact roundAt_le_two_zpow ((lastDigit_le_log hp x).trans hlog) h1

/-- A natural number with more digits than are kept does not become smaller than all that have fewer. -/
theorem two_pow_le_roundDigits (hp : 0 < p) (h : 2 ^ p ≤ n) : (2 : ℚ) ^ p ≤ roundDigits p n := by
  have hpos : 0 < n := (Nat.two_pow_pos p).trans_le h
  have hlog : p ≤ Nat.log 2 n := Nat.le_log_of_pow_le one_lt_two h
  calc (2 : ℚ) ^ p ≤ 2 ^ Nat.log 2 n := pow_le_pow_right₀ one_le_two hlog
    _ = 2 ^ Int.log 2 |(n : ℚ)| := by rw [Nat.abs_cast, Int.log_natCast, zpow_natCast]
    _ ≤ roundDigits p n := two_zpow_log_le_roundDigits hp (Nat.cast_pos.2 hpos)

/-! ## Quotients -/

/-- Half of the last digit of a quotient is less than what separates it from the next integer. -/
theorem two_zpow_lastDigit_div_lt (hn : n < 2 ^ p) (hn0 : 0 < n) (hd : 0 < d) :
    (2 : ℚ) ^ lastDigit p (n / d) / 2 < 1 / d := by
  have hd' : (0 : ℚ) < d := Nat.cast_pos.2 hd
  have hle : (2 : ℚ) ^ Int.log 2 |(n / d : ℚ)| ≤ n / d := two_zpow_log_le (div_pos (Nat.cast_pos.2 hn0) hd')
  have hn' : (n : ℚ) < 2 ^ (p : ℤ) := by
    rw [zpow_natCast]
    exact_mod_cast hn
  have hsplit : (2 : ℚ) ^ lastDigit p (n / d) / 2 = 2 ^ Int.log 2 |(n / d : ℚ)| / 2 ^ (p : ℤ) := by
    rw [lastDigit, div_eq_mul_inv (2 ^ _) (2 : ℚ), ← zpow_sub_one₀ (two_ne_zero (α := ℚ)),
      ← zpow_sub₀ (two_ne_zero (α := ℚ))]
    congr 1
    ring
  rw [hsplit, div_lt_div_iff₀ (two_zpow_pos _) hd', one_mul]
  calc (2 : ℚ) ^ Int.log 2 |(n / d : ℚ)| * d ≤ n / d * d := mul_le_mul_of_nonneg_right hle hd'.le
    _ = n := div_mul_cancel₀ _ hd'.ne'
    _ < 2 ^ (p : ℤ) := hn'

/-- The quotient, rounded. -/
theorem ceil_roundDigits (hp : 0 < p) (hn : n < 2 ^ p) (hn0 : 0 < n) (hd : 0 < d) :
    ⌈roundDigits p (n / d)⌉₊ = (n + d - 1) / d := by
  obtain ⟨k, hk⟩ : ∃ k, (n + d - 1) / d = k + 1 :=
    ⟨(n + d - 1) / d - 1, (Nat.sub_add_cancel (Nat.div_pos (by omega) hd)).symm⟩
  have hlow : k * d + 1 ≤ n := by
    have := Nat.div_mul_le_self (n + d - 1) d
    rw [hk, Nat.add_mul] at this
    omega
  have hhigh : n ≤ (k + 1) * d := by
    have := Nat.lt_div_mul_add (a := n + d - 1) hd
    rw [hk] at this
    omega
  have hd' : (0 : ℚ) < d := Nat.cast_pos.2 hd
  have hhalf := two_zpow_lastDigit_div_lt hn hn0 hd
  have herr := abs_le.1 (abs_roundAt_sub_le (lastDigit p (n / d)) (n / d))
  rw [hk, Nat.ceil_eq_iff (by omega), Nat.add_sub_cancel, roundDigits]
  constructor
  · have hx : (k : ℚ) + 1 / d ≤ n / d := by
      rw [le_div_iff₀ hd', add_mul, div_mul_cancel₀ _ hd'.ne']
      exact_mod_cast hlow
    linarith
  · rcases hhigh.eq_or_lt with heq | hlt
    · have hx : (n / d : ℚ) = (k + 1 : ℕ) := by
        rw [div_eq_iff hd'.ne']
        exact_mod_cast heq
      rw [hx]
      exact (roundDigits_natCast hp ((Nat.le_of_dvd hn0 ⟨d, heq⟩).trans_lt hn)).le
    · have hx : (n / d : ℚ) ≤ (k + 1 : ℕ) - 1 / d := by
        rw [div_le_iff₀ hd', sub_mul, div_mul_cancel₀ _ hd'.ne', le_sub_iff_add_le]
        exact_mod_cast hlt
      linarith

theorem ceil_roundDigits_div (hp : 0 < p) (hn : n < 2 ^ p) (hd : 0 < d) :
    ⌈roundDigits p (roundDigits p n / roundDigits p d)⌉₊ = (n + d - 1) / d := by
  rw [roundDigits_natCast hp hn]
  rcases Nat.eq_zero_or_pos n with rfl | hn0
  · have hzero : roundDigits p ((0 : ℕ) / roundDigits p d) = 0 := by
      simpa using roundDigits_natCast (n := 0) hp (Nat.two_pow_pos p)
    rw [hzero, Nat.ceil_zero, Nat.div_eq_of_lt (by omega)]
  rcases lt_or_ge d (2 ^ p) with hlt | hge
  · rw [roundDigits_natCast hp hlt]
    exact ceil_roundDigits hp hn hn0 hd
  · -- the divisor stays greater than `n`, and the quotient is rounded to at most one
    have hD : (n : ℚ) < roundDigits p d :=
      (by exact_mod_cast hn : (n : ℚ) < 2 ^ p).trans_le (two_pow_le_roundDigits hp hge)
    have hpos : (0 : ℚ) < n / roundDigits p d :=
      div_pos (Nat.cast_pos.2 hn0) ((Nat.cast_nonneg n).trans_lt hD)
    have hle : (n / roundDigits p d : ℚ) ≤ 1 :=
      div_le_one_of_le₀ hD.le ((Nat.cast_nonneg n).trans hD.le)
    have hone : (n + d - 1) / d = 1 := by
      rw [show n + d - 1 = n - 1 + d by omega, Nat.add_div_right _ hd, Nat.div_eq_of_lt (by omega)]
    rw [hone, Nat.ceil_eq_iff one_ne_zero, Nat.sub_self, Nat.cast_zero, Nat.cast_one]
    exact ⟨(two_zpow_pos _).trans_le (two_zpow_log_le_roundDigits hp hpos), roundDigits_le_one hp hpos hle⟩

/-! ## Floats -/

/-- The nearest `float`, if it is below the greatest one. -/
def binary32 (x : ℚ) : ℚ := roundAt (max (lastDigit 24 x) (-149)) x

theorem binary32_natCast (h : n < 2 ^ 24) : binary32 n = n :=
  roundAt_natCast (max_le (lastDigit_natCast_nonpos (by decide) h) (by decide)) n

/-- A power of two below the number stays below it. -/
theorem two_zpow_le_abs_binary32 (hj : -149 ≤ j) (h : 2 ^ j ≤ |x|) : 2 ^ j ≤ |binary32 x| := by
  have hpos : 0 < |x| := (two_zpow_pos j).trans_le h
  have hlog : j ≤ Int.log 2 |x| := (Int.zpow_le_iff_le_log one_lt_two hpos).1 h
  have hlast : max (lastDigit 24 x) (-149) ≤ Int.log 2 |x| := by
    rw [lastDigit]
    omega
  refine (zpow_le_zpow_right₀ one_le_two hlog).trans ?_
  have hle : (2 : ℚ) ^ Int.log 2 |x| ≤ |x| := Int.zpow_log_le_self one_lt_two hpos
  rw [le_abs']
  rcases abs_cases x with ⟨habs, -⟩ | ⟨habs, -⟩
  · rw [habs] at hle
    rw [habs] at hlast ⊢
    exact .inr (two_zpow_le_roundAt (by simpa only [habs] using hlast) hle)
  · refine .inl (roundAt_le_neg_two_zpow hlast ?_)
    rw [habs] at hle ⊢
    linarith

end Lib
