import Mathlib.Algebra.Order.Field.Basic
import PPCNN.Lib.Rounding

/-!
# Options and constants (`types.h`, `define.h`, `opt_option.cpp`)

Real numbers of the program (`float`, `double`) are elements of a field `K`; `K = ℚ` runs.
-/

set_option autoImplicit false

namespace Cnn

open Lib

inductive EOptLevel where
  | noOpt | fuseLayers | optActivation | optPooling | allOpt
  deriving DecidableEq, Repr

inductive EActivation where
  | default | square | swishRg4Deg4 | swishRg6Deg4 | mishRg4Deg4 | mishRg6Deg4
  deriving DecidableEq, Repr

/-! ## Errors -/

/-- What ends a call early. The last three are undefined behaviour in C++, which the model stops
at instead of guessing a result. -/
inductive Error where
  /-- `std::runtime_error` with its text -/
  | runtimeError (what : String)
  /-- a group or data set that is not in the HDF5 file -/
  | h5 (path : String)
  /-- operands of a SEAL operation on different levels of the modulus chain -/
  | levelMismatch
  /-- operands of a SEAL addition with different scales -/
  | scaleMismatch
  /-- a rescaling or modulus switch past the end of the chain -/
  | endOfChain
  /-- a SEAL operation on a default-constructed or moved-from ciphertext -/
  | unassigned
  /-- an array access outside the array -/
  | outOfRange
  /-- a data set larger than the buffer it is read into -/
  | bufferOverflow
  /-- a use of a member that no branch of the constructor has set -/
  | uninitialized
  /-- a vector longer than it can be -/
  | lengthError
  deriving DecidableEq, Repr

/-! ## Constants -/

/-- A `SWISH_*_COEFFS` vector `a, b, c, d` of `a x⁴ + b x² + c x + d` with its `_OPT_COEFFS`
vector `b', c', d'` of `x⁴ + b' x² + c' x + d'`. -/
structure SwishCoeffs (K : Type) where
  a : K
  b : K
  c : K
  d : K
  b' : K
  c' : K
  d' : K
  deriving DecidableEq

namespace SwishCoeffs

variable {K : Type}

def coeffs (s : SwishCoeffs K) : List K := [s.a, s.b, s.c, s.d]

def optCoeffs (s : SwishCoeffs K) : List K := [s.b', s.c', s.d']

/-- The optimised coefficients are the quotients by the leading one. -/
structure Exact [Field K] (s : SwishCoeffs K) : Prop where
  ne_zero : s.a ≠ 0
  b' : s.b' = s.b / s.a
  c' : s.c' = s.c / s.a
  d' : s.d' = s.d / s.a

/-- The table with the same polynomial and exact optimised coefficients. -/
def exact [Field K] (s : SwishCoeffs K) : SwishCoeffs K :=
  { s with b' := s.b / s.a, c' := s.c / s.a, d' := s.d / s.a }

theorem exact_exact [Field K] {s : SwishCoeffs K} (h : s.a ≠ 0) : s.exact.Exact :=
  ⟨h, rfl, rfl, rfl⟩

def map (f : K → K) (s : SwishCoeffs K) : SwishCoeffs K :=
  ⟨f s.a, f s.b, f s.c, f s.d, f s.b', f s.c', f s.d'⟩

end SwishCoeffs

/-- The constants the builders use: `EPSILON`, `BN_EPSILON`, the swish tables, and `std::sqrt`. -/
structure Define (K : Type) where
  epsilon : K
  bnEpsilon : K
  sqrt : K → K
  swishRg4Deg4 : SwishCoeffs K
  swishRg6Deg4 : SwishCoeffs K

/-- The values in `define.h` and `batch_normalization.hpp`, without rounding. -/
def Define.source {K : Type} [Field K] (sqrt : K → K) : Define K where
  epsilon := 1 / 10000000
  bnEpsilon := 1 / 1000
  sqrt := sqrt
  swishRg4Deg4 := {
    a := -5075 / 1000000, b := 19566 / 100000, c := 5 / 10, d := 3347 / 100000
    b' := -385537 / 10000, c' := -9852222 / 100000, d' := -659507 / 100000 }
  swishRg6Deg4 := {
    a := -2012 / 1000000, b := 1473 / 10000, c := 5 / 10, d := 1198 / 10000
    b' := -732107 / 10000, c' := -2485089 / 10000, d' := -595427 / 10000 }

/-- The constants as the `float`s they are declared to be. -/
def Define.rounded {K : Type} (float : K → K) (c : Define K) : Define K where
  epsilon := float c.epsilon
  bnEpsilon := float c.bnEpsilon
  sqrt := c.sqrt
  swishRg4Deg4 := c.swishRg4Deg4.map float
  swishRg6Deg4 := c.swishRg6Deg4.map float

/-- A `MISH_*_COEFFS` vector of `a x⁴ + b x³ + c x² + d x + e`. -/
structure MishCoeffs (K : Type) where
  a : K
  b : K
  c : K
  d : K
  e : K

/-- `MISH_RG4_DEG4_COEFFS` -/
def mishRg4Deg4 {K : Type} [Field K] : MishCoeffs K where
  a := -609 / 100000
  b := -4142 / 1000000
  c := 21051 / 100000
  d := 565775 / 1000000
  e := 6021 / 100000

/-- `MISH_RG6_DEG4_COEFFS` -/
def mishRg6Deg4 {K : Type} [Field K] : MishCoeffs K where
  a := -2096 / 1000000
  b := -1277 / 1000000
  c := 148529 / 1000000
  d := 53663 / 100000
  e := 169 / 1000

/-- The tables with exact optimised coefficients. -/
def Define.exactTables {K : Type} [Field K] (c : Define K) : Define K :=
  { c with swishRg4Deg4 := c.swishRg4Deg4.exact, swishRg6Deg4 := c.swishRg6Deg4.exact }

/-! ## Options -/

/-- `OptOption` without the references to the SEAL objects. -/
structure OptOption (K : Type) where
  enableFuseLayers : Bool
  enableOptimizeActivation : Bool
  enableOptimizePooling : Bool
  shouldMultiplyCoeff : Bool
  shouldMultiplyPool : Bool
  activation : EActivation
  highestDegCoeff : K
  currentPoolingMulFactor : K
  consumedLevel : ℕ

namespace OptOption

variable {K : Type} [Field K]

/-- The constructor `OptOption::OptOption`. -/
def new (optLevel : EOptLevel) (act : EActivation) : OptOption K :=
  let option : OptOption K := {
    enableFuseLayers := false
    enableOptimizeActivation := false
    enableOptimizePooling := false
    shouldMultiplyCoeff := false
    shouldMultiplyPool := false
    activation := act
    highestDegCoeff := 0
    currentPoolingMulFactor := 0
    consumedLevel := 0 }
  match optLevel with
  | .fuseLayers => { option with enableFuseLayers := true }
  | .optActivation => { option with enableOptimizeActivation := true }
  | .optPooling => { option with enableOptimizePooling := true }
  | .allOpt =>
    { option with
      enableFuseLayers := true
      enableOptimizeActivation := true
      enableOptimizePooling := true }
  | .noOpt => option

/-- The factor a linear builder multiplies into its weights, and the option with the flags it
has cleared. The same four branches stand in `buildConv2D`, `buildDense` and both fused
builders. -/
def takeFolding (o : OptOption K) : K × OptOption K :=
  if o.enableOptimizeActivation && o.shouldMultiplyCoeff &&
      o.enableOptimizePooling && o.shouldMultiplyPool then
    (o.highestDegCoeff * o.currentPoolingMulFactor,
      { o with shouldMultiplyCoeff := false, shouldMultiplyPool := false })
  else if o.enableOptimizeActivation && o.shouldMultiplyCoeff then
    (o.highestDegCoeff, { o with shouldMultiplyCoeff := false })
  else if o.enableOptimizePooling && o.shouldMultiplyPool then
    (o.currentPoolingMulFactor, { o with shouldMultiplyPool := false })
  else (1, o)

end OptOption

/-! ## Machine integers -/

/-- How the integer types of the program store the mathematical result of an expression. -/
structure IntArith where
  /-- the value of a `size_t` expression -/
  size : ℤ → ℤ
  /-- the value of an `int` variable assigned from an expression -/
  int : ℤ → ℤ
  /-- `ceil(static_cast<float>(n) / static_cast<float>(d))` -/
  ceilQuotient : ℕ → ℕ → ℕ

/-- 64-bit `size_t`, 32-bit two's complement `int`, and 24 digits in a `float`, whose range of
exponents the quotients of two `size_t` do not leave. -/
def IntArith.lp64 : IntArith where
  size z := z % 2 ^ 64
  int z := Int.bmod z (2 ^ 32)
  ceilQuotient n d := ⌈roundDigits 24 (roundDigits 24 n / roundDigits 24 d)⌉₊

/-- Integers without bounds and exact quotients, for comparison. A `size_t` difference below zero
stays there, where the program wraps around twice: into `size_t`, and back when half of it is
subtracted into an `int`. -/
def IntArith.unbounded : IntArith where
  size z := z
  int z := z
  ceilQuotient n d := (n + d - 1) / d

theorem IntArith.toNat_size_lp64 {n : ℕ} (h : n < 2 ^ 64) : (lp64.size n).toNat = n := by
  simp only [lp64]
  omega

/-- A `float` holds the extents below `2 ^ 24`. -/
theorem IntArith.ceilQuotient_lp64 {n d : ℕ} (hn : n < 2 ^ 24) (hd : 0 < d) :
    lp64.ceilQuotient n d = (n + d - 1) / d :=
  ceil_roundDigits_div (by decide) hn hd

end Cnn
