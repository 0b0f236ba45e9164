import PPCNN.Keras.Model
import Mathlib.Algebra.Module.BigOperators

/-!
# Stacks of dense layers

Dense layers after each other are one dense layer, whose kernel is the product of theirs
(`run_denses`). Two inputs give the same output if that product does not tell them apart
(`dense_eq_iff`).
-/

set_option autoImplicit false

namespace Keras

open Cnn
open Finset (range)

variable {K V : Type} [Field K] [CommRing V] [Algebra K V]

/-- What output `o` adds up from the inputs. -/
def linear (kernel : ℕ → ℕ → K) (v : List V) (o : ℕ) : V :=
  ∑ i ∈ range v.length, kernel i o • v.getD i 0

theorem linear_smul (kernel : ℕ → ℕ → K) (f : K) (v : List V) (o : ℕ) :
    linear kernel (scaleUnits f v) o = f • linear kernel v o := by
  simp only [linear, length_scaleUnits, getD_scaleUnits, Finset.smul_sum, smul_comm f]

theorem dense_eq_iff {units : ℕ} {kernel : ℕ → ℕ → K} {bias : ℕ → K} {u v : List V} :
    dense units kernel bias u = dense units kernel bias v ↔
      ∀ o < units, linear kernel u o = linear kernel v o := by
  simp only [dense, List.ofFn_inj, funext_iff, add_left_inj]
  exact ⟨fun h o ho => h ⟨o, ho⟩, fun h o => h o o.isLt⟩

theorem dense_dense (units units' : ℕ) (kernel kernel' : ℕ → ℕ → K) (bias bias' : ℕ → K)
    (v : List V) :
    dense units' kernel' bias' (dense units kernel bias v) =
      dense units' (fun i o => ∑ j ∈ range units, kernel i j * kernel' j o)
        (fun o => (∑ j ∈ range units, kernel' j o * bias j) + bias' o) v := by
  have hgetD : ∀ j < units, (dense units kernel bias v).getD j 0 =
      linear kernel v j + algebraMap K V (bias j) := by
    intro j hj
    simp [dense, linear, List.getD_eq_getElem?_getD, hj]
  have hsum : ∀ o, ∑ j ∈ range units, kernel' j o • (dense units kernel bias v).getD j 0 =
      linear (fun i o => ∑ j ∈ range units, kernel i j * kernel' j o) v o +
        algebraMap K V (∑ j ∈ range units, kernel' j o * bias j) := by
    intro o
    calc ∑ j ∈ range units, kernel' j o • (dense units kernel bias v).getD j 0
        = ∑ j ∈ range units, (kernel' j o • linear kernel v j +
            algebraMap K V (kernel' j o * bias j)) := by
          refine Finset.sum_congr rfl fun j hj => ?_
          rw [hgetD j (Finset.mem_range.1 hj), smul_add, map_mul,
            Algebra.smul_def _ (algebraMap K V (bias j))]
      _ = _ := by
          simp only [Finset.sum_add_distrib, map_sum, linear, Finset.smul_sum, Finset.sum_smul,
            smul_smul]
          rw [Finset.sum_comm]
          simp only [mul_comm]
  simp only [dense, List.length_ofFn] at hsum ⊢
  congr 1
  funext o
  rw [hsum, map_add, add_assoc]
  rfl

/-- The kernel of dense layers after one with `units` outputs and the given kernel. -/
def stackKernel (file : H5File K) : List DenseInfo → ℕ → (ℕ → ℕ → K) → ℕ → ℕ → K
  | [], _, kernel => kernel
  | info :: denses, units, kernel =>
    stackKernel file denses info.units fun i o =>
      ∑ j ∈ range units, kernel i j * denseKernel file (groupPath info.name info.name) info j o

/-- The number of outputs of dense layers after one with `units` outputs. -/
def stackUnits (denses : List DenseInfo) (units : ℕ) : ℕ :=
  denses.foldl (fun _ info => info.units) units

theorem run_denses (c : Define K) (file : H5File K) (denses : List DenseInfo) (units : ℕ)
    (kernel : ℕ → ℕ → K) (bias : ℕ → K) :
    ∃ bias', ∀ (sem : Semantics K V) (v : List V),
      run c sem file (denses.map .dense) (.units (dense units kernel bias v)) =
        .units (dense (stackUnits denses units) (stackKernel file denses units kernel) bias' v) := by
  induction denses generalizing units kernel bias with
  | nil => exact ⟨bias, fun _ _ => rfl⟩
  | cons info denses ih =>
    let path := groupPath info.name info.name
    obtain ⟨bias', h⟩ := ih info.units
      (fun i o => ∑ j ∈ range units, kernel i j * denseKernel file path info j o)
      (fun o => (∑ j ∈ range units, denseKernel file path info j o * bias j) + data file path biasKey o)
    refine ⟨bias', fun sem v => ?_⟩
    have hstep : run c sem file ((info :: denses).map .dense) (.units (dense units kernel bias v)) =
        run c sem file (denses.map .dense) (.units (dense info.units (denseKernel file path info)
          (data file path biasKey) (dense units kernel bias v))) := rfl
    rw [hstep, dense_dense, h]
    rfl

/-- The product of the kernels of the dense layers of a model. -/
def denseProduct (file : H5File K) : List DenseInfo → ℕ → ℕ → K
  | [] => fun i o => if i = o then 1 else 0
  | info :: denses =>
    stackKernel file denses info.units (denseKernel file (groupPath info.name info.name) info)

theorem outShapes_denses {denses : List DenseInfo} {n units : ℕ}
    (h : outShapes (denses.map .dense) (.units n) = some (.units units)) :
    stackUnits denses n = units := by
  induction denses generalizing n with
  | nil => exact Shape.units.inj (Option.some.inj h)
  | cons info denses ih =>
    obtain ⟨s, hs, h⟩ := outShapes_cons.1 h
    simp only [outShape] at hs
    split at hs
    · cases hs
      exact ih h
    · cases hs

/-- Dense layers give two vectors the same output if the product of their kernels does. -/
theorem run_denses_eq_iff (c : Define K) (sem sem' : Semantics K V) (file : H5File K)
    {denses : List DenseInfo} (hdense : denses ≠ []) {n units : ℕ}
    (hs : outShapes (denses.map .dense) (.units n) = some (.units units)) (u v : List V) :
    run c sem file (denses.map .dense) (.units u) = run c sem' file (denses.map .dense) (.units v) ↔
      ∀ o < units, linear (denseProduct file denses) u o = linear (denseProduct file denses) v o := by
  cases denses with
  | nil => exact absurd rfl hdense
  | cons info denses =>
    let path := groupPath info.name info.name
    obtain ⟨bias', h⟩ := run_denses (V := V) c file denses info.units (denseKernel file path info)
      (data file path biasKey)
    have hrun : ∀ (sem : Semantics K V) (v : List V),
        run c sem file ((info :: denses).map .dense) (.units v) =
          .units (dense (stackUnits (info :: denses) n) (denseProduct file (info :: denses)) bias' v) :=
      fun sem v => h sem v
    rw [hrun, hrun, Value.units.injEq, dense_eq_iff, outShapes_denses hs]

end Keras
