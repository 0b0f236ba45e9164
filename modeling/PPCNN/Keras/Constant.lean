import PPCNN.Keras.Model

/-!
# Constant values

A value all of whose cells are equal. With a kernel that is one at a single tap and zero elsewhere,
a convolution and a dense layer are affine functions of the cell (`Windows.conv2D_const`,
`dense_const`), and a sum over a `valid` window is a multiple of it (`Windows.windowSum_const`): on
such values a network is a function of one variable.
-/

set_option autoImplicit false

namespace Keras

open Cnn
open Finset (range)

variable {K V : Type} [Field K] [CommRing V] [Algebra K V]

/-- The value of a shape with `x` in every cell. -/
def Shape.const : Shape → V → Value V
  | .image h w n, x => .image ⟨h, w, n, fun _ _ _ => x⟩
  | .units n, x => .units (List.replicate n x)

omit [CommRing V] in
@[simp] theorem Shape.shape_const (s : Shape) (x : V) : (s.const x).shape = s := by
  cases s <;> simp [Shape.const, Value.shape]

omit [CommRing V] in
theorem Shape.map_const (s : Shape) (f : V → V) (x : V) : (s.const x).map f = s.const (f x) := by
  cases s <;> simp [Shape.const, Value.map, Tensor3.map]

/-- The cells of a value satisfy `p`. -/
def Value.Cells (p : V → Prop) : Value V → Prop
  | .image t => ∀ h w c, p (t.cell h w c)
  | .units u => ∀ x ∈ u, p x

omit [CommRing V] in
theorem Shape.cells_const (s : Shape) (x : V) : (s.const x).Cells fun y => y = x := by
  cases s with
  | image h w n => exact fun _ _ _ => rfl
  | units n => exact fun _ hy => List.eq_of_mem_replicate hy

omit [CommRing V] in
theorem Value.cells_true (v : Value V) : v.Cells fun _ => True := by
  cases v with
  | image t => exact fun _ _ _ => trivial
  | units u => exact fun _ _ => trivial

omit [CommRing V] in
/-- Functions for the channels that have one value on the cells of `v`. -/
theorem Value.mapIdx_eq_const {p : V → Prop} {v : Value V} (hv : v.Cells p) {f : ℕ → V → V} {y : V}
    (h : ∀ i < v.shape.lastDim, ∀ x, p x → f i x = y) : v.mapIdx f = v.shape.const y := by
  cases v with
  | image t =>
    simp only [Shape.const, Value.mapIdx, Tensor3.mapChannels, Value.shape, Value.image.injEq]
    congr 1
    funext i j c
    exact h c c.isLt _ (hv i j c)
  | units u =>
    simp only [Shape.const, Value.mapIdx, Value.shape, Value.units.injEq]
    refine List.eq_replicate_iff.2 ⟨by simp, fun z hz => ?_⟩
    obtain ⟨i, hi, rfl⟩ := List.mem_mapIdx.1 hz
    exact h i hi _ (hv _ (List.getElem_mem hi))

omit [CommRing V] in
theorem toUnits_const (h w n : ℕ) (x : V) :
    (⟨h, w, n, fun _ _ _ => x⟩ : Tensor3 V).toUnits = List.replicate (h * w * n) x := by
  refine List.eq_replicate_iff.2 ⟨Tensor3.length_toUnits _, fun y hy => ?_⟩
  simp only [Tensor3.toUnits, List.mem_flatMap, List.mem_map] at hy
  obtain ⟨-, -, -, -, -, -, rfl⟩ := hy
  rfl

/-- A tap that lies in the image reads the constant. -/
theorem Windows.read_const {win : Windows} {h w n oh ow i j c : ℕ} {x : V}
    (hv : win.vertical.inside h win.stride.1 oh i) (hz : win.horizontal.inside w win.stride.2 ow j)
    (hc : c < n) : win.read ⟨h, w, n, fun _ _ _ => x⟩ oh ow i j c = x := by
  rw [Windows.read, Tensor3.padded, dif_pos ⟨hv, hz, hc⟩]

/-- A kernel with one tap `(i, j)` on the first channel. -/
theorem Windows.conv2D_const {win : Windows} {h w n filters i j : ℕ}
    {kernel : ℕ → ℕ → ℕ → ℕ → K} {bias : ℕ → K} {f b : K} (x : V) (hn : 0 < n)
    (hi : i < win.size.1) (hj : j < win.size.2)
    (hv : ∀ o < win.vertical.out, win.vertical.inside h win.stride.1 o i)
    (hz : ∀ o < win.horizontal.out, win.horizontal.inside w win.stride.2 o j)
    (hkernel : ∀ i' < win.size.1, ∀ j' < win.size.2, ∀ c < n, ∀ o < filters,
      kernel i' j' c o = if i' = i ∧ j' = j ∧ c = 0 then f else 0)
    (hbias : ∀ o < filters, bias o = b) :
    win.conv2D filters kernel bias ⟨h, w, n, fun _ _ _ => x⟩ =
      ⟨win.vertical.out, win.horizontal.out, filters, fun _ _ _ => f • x + algebraMap K V b⟩ := by
  have hcell : (win.conv2D filters kernel bias ⟨h, w, n, fun _ _ _ => x⟩).cell =
      fun _ _ _ => f • x + algebraMap K V b := by
    funext oh ow oc
    simp only [Windows.conv2D, hbias oc oc.isLt]
    congr 1
    rw [Finset.sum_eq_single_of_mem i (Finset.mem_range.2 hi),
      Finset.sum_eq_single_of_mem j (Finset.mem_range.2 hj),
      Finset.sum_eq_single_of_mem 0 (Finset.mem_range.2 hn)]
    · rw [hkernel i hi j hj 0 hn oc oc.isLt, if_pos ⟨rfl, rfl, rfl⟩,
        Windows.read_const (hv oh oh.isLt) (hz ow ow.isLt) hn]
    · intro c hc hne
      rw [hkernel i hi j hj c (Finset.mem_range.1 hc) oc oc.isLt, if_neg (by simp [hne]), zero_smul]
    · intro j' hj' hne
      refine Finset.sum_eq_zero fun c hc => ?_
      rw [hkernel i hi j' (Finset.mem_range.1 hj') c (Finset.mem_range.1 hc) oc oc.isLt,
        if_neg (by simp [hne]), zero_smul]
    · intro i' hi' hne
      refine Finset.sum_eq_zero fun j' hj' => Finset.sum_eq_zero fun c hc => ?_
      rw [hkernel i' (Finset.mem_range.1 hi') j' (Finset.mem_range.1 hj') c (Finset.mem_range.1 hc)
        oc oc.isLt, if_neg (by simp [hne]), zero_smul]
  exact congrArg (Tensor3.mk _ _ _) hcell

/-- Under `valid` padding a window sum counts every cell of the window. -/
theorem Windows.windowSum_const {pad : SamePad} {h w n : ℕ} {size stride : ℕ × ℕ} {win : Windows}
    (hw : windows pad "valid" h w size stride = some win) (x : V) :
    win.windowSum ⟨h, w, n, fun _ _ _ => x⟩ =
      ⟨win.vertical.out, win.horizontal.out, n,
        fun _ _ _ => ((size.1 * size.2 : ℕ) : K) • x⟩ := by
  obtain ⟨hv, hz, rfl, rfl⟩ := windows_eq_some.1 hw
  have hcell : (win.windowSum ⟨h, w, n, fun _ _ _ => x⟩).cell =
      fun _ _ _ => ((win.size.1 * win.size.2 : ℕ) : K) • x := by
    funext oh ow oc
    have hread : ∀ i ∈ range win.size.1, ∀ j ∈ range win.size.2,
        win.read ⟨h, w, n, fun _ _ _ => x⟩ oh ow i j oc = x := fun i hi j hj =>
      Windows.read_const (window_valid hv oh.isLt (Finset.mem_range.1 hi))
        (window_valid hz ow.isLt (Finset.mem_range.1 hj)) oc.isLt
    simp only [Windows.windowSum]
    rw [Finset.sum_congr rfl fun i hi => Finset.sum_congr rfl (hread i hi)]
    simp only [Finset.sum_const, Finset.card_range, smul_smul, Nat.cast_smul_eq_nsmul]
  exact congrArg (Tensor3.mk _ _ _) hcell

/-- A kernel whose first row is constant and whose other rows are zero. -/
theorem dense_const {n units : ℕ} {kernel : ℕ → ℕ → K} {bias : ℕ → K} {f b : K} (x : V)
    (hn : 0 < n) (hkernel : ∀ i < n, ∀ o < units, kernel i o = if i = 0 then f else 0)
    (hbias : ∀ o < units, bias o = b) :
    dense units kernel bias (List.replicate n x) =
      List.replicate units (f • x + algebraMap K V b) := by
  refine Eq.trans (congrArg List.ofFn (funext fun o => ?_)) (List.ofFn_const units _)
  rw [hbias o o.isLt, List.length_replicate,
    Finset.sum_eq_single_of_mem 0 (Finset.mem_range.2 hn)]
  · rw [hkernel 0 hn o o.isLt, if_pos rfl, List.getD_eq_getElem?_getD,
      List.getElem?_replicate, if_pos hn, Option.getD_some]
  · intro i hi hne
    rw [hkernel i (Finset.mem_range.1 hi) o o.isLt, if_neg hne, zero_smul]

end Keras
