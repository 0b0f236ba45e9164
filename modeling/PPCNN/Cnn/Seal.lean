import PPCNN.Cnn.Types
import Mathlib.Algebra.Algebra.Basic

/-!
# SEAL

The program reaches SEAL through `CKKSEncoder::encode` and the operations of `Evaluator` below.
The model of the program is written against this interface and takes the implementation as a
parameter `ev`, together with the rounding of its own `float` variables. Two implementations are used:

* `Evaluator.exact`: slotwise arithmetic without noise, levels, scales or rounding. Every plaintext of
  the program encodes one constant into all slots, so a plaintext is that constant, an element of `K`;
  a ciphertext is its vector of slots. The operations act on each slot alike, so any commutative
  `K`-algebra `V` serves as the type of slot vectors (`Fin n → K`, or `K` itself for one slot).
* `Evaluator.leveled`: the same values, each carrying its level (the number of primes dropped) and
  its scale, with the checks SEAL makes.
-/

set_option autoImplicit false

namespace Cnn

structure Evaluator (K Pt Ct : Type) where
  /-- the value of a `float` expression, from the exact one; `double` expressions are exact -/
  float : K → K
  /-- `encoder.encode(value, scale_param, plain)` -/
  encode : K → Except Error Pt
  /-- `mod_switch_to_next_inplace` of a plaintext -/
  modSwitchPlain : Pt → Except Error Pt
  /-- `mod_switch_to_next_inplace` of a ciphertext -/
  modSwitch : Ct → Except Error Ct
  multiplyPlain : Ct → Pt → Except Error Ct
  add : Ct → Ct → Except Error Ct
  addPlain : Ct → Pt → Except Error Ct
  square : Ct → Except Error Ct
  relinearize : Ct → Except Error Ct
  /-- `rescale_to_next_inplace` -/
  rescale : Ct → Except Error Ct
  /-- the assignment `x.scale() = option.scale_param` -/
  setScale : Ct → Ct

namespace Evaluator

variable {K : Type} [Field K] (V : Type) [CommRing V] [Algebra K V]

/-- Exact slotwise arithmetic. -/
def exact : Evaluator K K V where
  float := id
  encode w := .ok w
  modSwitchPlain p := .ok p
  modSwitch x := .ok x
  multiplyPlain x p := .ok (p • x)
  add x y := .ok (x + y)
  addPlain x p := .ok (x + algebraMap K V p)
  square x := .ok (x * x)
  relinearize x := .ok x
  rescale x := .ok x
  setScale x := x

end Evaluator

/-- The modulus chain of a key: how many primes can be dropped, the prime dropped at each level,
and the scale the encoder is called with. -/
structure Chain (K : Type) where
  length : ℕ
  prime : ℕ → K
  scaleParam : K

/-- A plaintext or ciphertext on a level of the chain. -/
structure Leveled (K α : Type) where
  level : ℕ
  scale : K
  value : α
  deriving DecidableEq

namespace Evaluator

variable {K : Type} [Field K] [DecidableEq K] (V : Type) [CommRing V] [Algebra K V]

/-- Exact slot values with SEAL's rules for levels and scales. -/
def leveled (ch : Chain K) : Evaluator K (Leveled K K) (Leveled K V) where
  float := id
  encode w := .ok ⟨0, ch.scaleParam, w⟩
  modSwitchPlain p :=
    if p.level < ch.length then .ok { p with level := p.level + 1 } else .error .endOfChain
  modSwitch x :=
    if x.level < ch.length then .ok { x with level := x.level + 1 } else .error .endOfChain
  multiplyPlain x p :=
    if x.level = p.level then .ok ⟨x.level, x.scale * p.scale, p.value • x.value⟩
    else .error .levelMismatch
  add x y :=
    if x.level = y.level then
      if x.scale = y.scale then .ok { x with value := x.value + y.value }
      else .error .scaleMismatch
    else .error .levelMismatch
  addPlain x p :=
    if x.level = p.level then
      if x.scale = p.scale then .ok { x with value := x.value + algebraMap K V p.value }
      else .error .scaleMismatch
    else .error .levelMismatch
  square x := .ok ⟨x.level, x.scale * x.scale, x.value * x.value⟩
  relinearize x := .ok x
  rescale x :=
    if x.level < ch.length then .ok ⟨x.level + 1, x.scale / ch.prime x.level, x.value⟩
    else .error .endOfChain
  setScale x := { x with scale := ch.scaleParam }

end Evaluator

namespace Evaluator

variable {K Pt Ct : Type} (ev : Evaluator K Pt Ct)

/-- `for (lv = 0; lv < n; ++lv) mod_switch_to_next_inplace(plain)`. -/
def modSwitchPlainTimes : ℕ → Pt → Except Error Pt
  | 0, p => .ok p
  | n + 1, p => do modSwitchPlainTimes n (← ev.modSwitchPlain p)

/-- Encodes a value and switches the plaintext down `lv` levels. -/
def encodeAt (lv : ℕ) (w : K) : Except Error Pt := do
  modSwitchPlainTimes ev lv (← ev.encode w)

/-- `add_inplace(out, x)`, where `out` may still be default-constructed. -/
def addInplace (out : Option Ct) (x : Ct) : Except Error (Option Ct) :=
  match out with
  | none => .error .unassigned
  | some y => return some (← ev.add y x)

/-- `if (first) out = x; else add_inplace(out, x);` -/
def assignOrAdd (first : Bool) (out : Option Ct) (x : Ct) : Except Error (Option Ct) :=
  if first then return some x else ev.addInplace out x

/-- The ciphertext an operation other than an assignment finds in `out`. -/
def assigned (out : Option Ct) : Except Error Ct :=
  match out with
  | none => .error .unassigned
  | some y => .ok y

end Evaluator

end Cnn
