import PPCNN.Cnn.Seal
import PPCNN.Lib.Except
import Mathlib.Algebra.BigOperators.Fin

/-!
# Ciphertexts that represent values

`Interp ev V` says what it takes for an implementation of SEAL to compute slot values: a relation
`rep lv s x v` ("the ciphertext `x` on level `lv` with scale `s` holds `v`") that every operation
respects. Exact arithmetic (`exactInterp`) and arithmetic with levels (`leveledInterp`) are the two
instances, so a theorem about the program stated with `Interp` says both what is computed and that
the level and scale requirements of each operation are met.

The accumulations of the layers go through `foldlM_assignOrAdd`: the first term is assigned, the
others are added, and the result represents the sum.
-/

set_option autoImplicit false

namespace Cnn.Proof

open Lib

structure Interp {K Pt Ct : Type} (ev : Evaluator K Pt Ct) (V : Type) [Field K] [CommRing V]
    [Algebra K V] where
  float : ev.float = id
  /-- a prime is left to drop at this level -/
  canDrop : ℕ → Prop
  scaleParam : K
  /-- the scale after a rescaling -/
  rescaled : ℕ → K → K
  rep : ℕ → K → Ct → V → Prop
  repPlain : ℕ → Pt → K → Prop
  encode : ∀ {w : K} {p : Pt}, ev.encode w = .ok p → repPlain 0 p w
  modSwitchPlain : ∀ {lv : ℕ} {p p' : Pt} {w : K}, repPlain lv p w →
    ev.modSwitchPlain p = .ok p' → repPlain (lv + 1) p' w
  modSwitch : ∀ {lv : ℕ} {s : K} {x : Ct} {v : V}, rep lv s x v → canDrop lv →
    ∃ y, ev.modSwitch x = .ok y ∧ rep (lv + 1) s y v
  multiplyPlain : ∀ {lv : ℕ} {s : K} {x : Ct} {v : V} {p : Pt} {w : K}, rep lv s x v →
    repPlain lv p w → ∃ y, ev.multiplyPlain x p = .ok y ∧ rep lv (s * scaleParam) y (w • v)
  add : ∀ {lv : ℕ} {s : K} {x y : Ct} {u v : V}, rep lv s x u → rep lv s y v →
    ∃ z, ev.add x y = .ok z ∧ rep lv s z (u + v)
  addPlain : ∀ {lv : ℕ} {x : Ct} {v : V} {p : Pt} {w : K}, rep lv scaleParam x v →
    repPlain lv p w → ∃ y, ev.addPlain x p = .ok y ∧ rep lv scaleParam y (v + algebraMap K V w)
  square : ∀ {lv : ℕ} {s : K} {x : Ct} {v : V}, rep lv s x v →
    ∃ y, ev.square x = .ok y ∧ rep lv (s * s) y (v * v)
  relinearize : ∀ {lv : ℕ} {s : K} {x : Ct} {v : V}, rep lv s x v →
    ∃ y, ev.relinearize x = .ok y ∧ rep lv s y v
  rescale : ∀ {lv : ℕ} {s : K} {x : Ct} {v : V}, rep lv s x v → canDrop lv →
    ∃ y, ev.rescale x = .ok y ∧ rep (lv + 1) (rescaled lv s) y v
  setScale : ∀ {lv : ℕ} {s : K} {x : Ct} {v : V}, rep lv s x v →
    rep lv scaleParam (ev.setScale x) v

/-- In exact arithmetic a ciphertext is the value it holds. -/
def exactInterp (K V : Type) [Field K] [CommRing V] [Algebra K V] :
    Interp (Evaluator.exact (K := K) V) V where
  float := rfl
  canDrop _ := True
  scaleParam := 1
  rescaled _ s := s
  rep _ _ x v := x = v
  repPlain _ p w := p = w
  encode h := by cases h; rfl
  modSwitchPlain h h' := by cases h'; exact h
  modSwitch h _ := ⟨_, rfl, h⟩
  multiplyPlain h hp := by subst h hp; exact ⟨_, rfl, rfl⟩
  add h h' := by subst h h'; exact ⟨_, rfl, rfl⟩
  addPlain h hp := by subst h hp; exact ⟨_, rfl, rfl⟩
  square h := by subst h; exact ⟨_, rfl, rfl⟩
  relinearize h := ⟨_, rfl, h⟩
  rescale h _ := ⟨_, rfl, h⟩
  setScale h := h

/-- With levels, a ciphertext holds its value on its own level and scale. -/
def leveledInterp {K : Type} (V : Type) [Field K] [DecidableEq K] [CommRing V] [Algebra K V]
    (ch : Chain K) : Interp (Evaluator.leveled V ch) V where
  float := rfl
  canDrop lv := lv < ch.length
  scaleParam := ch.scaleParam
  rescaled lv s := s / ch.prime lv
  rep lv s x v := x = ⟨lv, s, v⟩
  repPlain lv p w := p = ⟨lv, ch.scaleParam, w⟩
  encode h := by cases h; rfl
  modSwitchPlain h h' := by
    subst h
    simp only [Evaluator.leveled] at h'
    split at h'
    · cases h'; rfl
    · cases h'
  modSwitch h hd := by subst h; exact ⟨_, if_pos hd, rfl⟩
  multiplyPlain h hp := by subst h hp; exact ⟨_, if_pos rfl, rfl⟩
  add h h' := by subst h h'; exact ⟨_, by simp [Evaluator.leveled], rfl⟩
  addPlain h hp := by subst h hp; exact ⟨_, by simp [Evaluator.leveled], rfl⟩
  square h := by subst h; exact ⟨_, rfl, rfl⟩
  relinearize h := ⟨_, rfl, h⟩
  rescale h hd := by subst h; exact ⟨_, if_pos hd, rfl⟩
  setScale h := by subst h; rfl

namespace Interp

variable {K Pt Ct V : Type} {ev : Evaluator K Pt Ct} [Field K] [CommRing V] [Algebra K V]
  (I : Interp ev V)

/-! ## Plaintexts -/

theorem modSwitchPlainTimes {n lv : ℕ} {p p' : Pt} {w : K} (h : I.repPlain lv p w)
    (hs : ev.modSwitchPlainTimes n p = .ok p') : I.repPlain (lv + n) p' w := by
  induction n generalizing lv p with
  | zero => cases hs; exact h
  | succ n ih =>
    obtain ⟨q, hq, hs⟩ := bind_eq_ok.1 hs
    rw [show lv + (n + 1) = lv + 1 + n by omega]
    exact ih (I.modSwitchPlain h hq) hs

theorem encodeAt {lv : ℕ} {w : K} {p : Pt} (h : ev.encodeAt lv w = .ok p) :
    I.repPlain lv p w := by
  obtain ⟨q, hq, hs⟩ := bind_eq_ok.1 h
  simpa using I.modSwitchPlainTimes (I.encode hq) hs

/-! ## Accumulation -/

/-- `out` holds the value `v` accumulated so far; unassigned, it holds the empty sum. -/
def Acc (lv : ℕ) (s : K) (out : Option Ct) (v : V) : Prop :=
  match out with
  | none => v = 0
  | some y => I.rep lv s y v

variable {I} {lv : ℕ} {s : K}

theorem Acc.of_isSome {out : Option Ct} {v : V} (h : I.Acc lv s out v) (ho : out.isSome) :
    ∃ y, out = some y ∧ I.rep lv s y v := by
  cases out with
  | none => cases ho
  | some y => exact ⟨y, rfl, h⟩

/-- The first term is assigned, a later one is added. -/
theorem Acc.assignOrAdd {out : Option Ct} {v u : V} {x : Ct} (h : I.Acc lv s out v)
    (hx : I.rep lv s x u) :
    ∃ y, ev.assignOrAdd out.isNone out x = .ok (some y) ∧ I.rep lv s y (v + u) := by
  cases out with
  | none =>
    obtain rfl : v = 0 := h
    exact ⟨x, rfl, by simpa using hx⟩
  | some y =>
    obtain ⟨z, hz, hr⟩ := I.add h hx
    exact ⟨z, by simp [Evaluator.assignOrAdd, Evaluator.addInplace, hz], hr⟩

/-- A loop that assigns its first term and adds the others accumulates their sum. `b` is the test
of the source, which must single out the first term if nothing is accumulated yet. -/
theorem foldlM_assignOrAdd {ι : Type} {l : List ι} {f : Option Ct → ι → Except Error (Option Ct)}
    {g : ι → V} {b : ι → Bool} {out : Option Ct} {v : V} (h : I.Acc lv s out v)
    (hstep : ∀ i ∈ l, ∃ x, I.rep lv s x (g i) ∧ ∀ out, f out i = ev.assignOrAdd (b i) out x)
    (hfirst : ∀ pre i post, l = pre ++ i :: post → b i = (out.isNone && pre.isEmpty)) :
    ∃ out', l.foldlM f out = .ok out' ∧ I.Acc lv s out' (v + (l.map g).sum) ∧
      out'.isNone = (out.isNone && l.isEmpty) := by
  refine foldlM_invariant (I := fun pre out' => I.Acc lv s out' (v + (pre.map g).sum) ∧
    out'.isNone = (out.isNone && pre.isEmpty)) ⟨by simpa using h, by simp⟩ ?_
  rintro pre i post out' hl ⟨hacc, hnone⟩
  obtain ⟨x, hx, hs⟩ := hstep i (by simp [hl])
  obtain ⟨y, hy, hrep⟩ := hacc.assignOrAdd hx
  refine ⟨some y, ?_, ?_, by simp⟩
  · rw [hs, hfirst pre i post hl, ← hnone, hy]
  · simpa [Acc, add_assoc] using hrep

end Interp

end Cnn.Proof
