import PPCNN.Cnn.Tensor
import Mathlib.Algebra.Algebra.Basic
import Mathlib.Algebra.BigOperators.Fin
import Mathlib.Algebra.BigOperators.GroupWithZero.Action
import Mathlib.Algebra.Field.Basic

/-!
# Operations of the reference model

What Keras computes for a layer, over slot vectors `V`: shapes, windows, convolution, pooling,
affine maps. Tensors are read with zeros around them (`Tensor3.padded`), which is how `same`
padding is defined. All of it is linear in the tensor except the bias (`conv2D_smul`,
`windowSum_smul`, `dense_smul`).
-/

set_option autoImplicit false

namespace Keras

open Cnn
open Finset (range)

variable {K V : Type} [Field K] [CommRing V] [Algebra K V]

/-! ## Windows -/

/-- Keras' output size along one axis: `none` if Keras rejects the layer. -/
def outSize (padding : String) (inSize size stride : ℕ) : Option ℕ :=
  if 0 < inSize ∧ 0 < size ∧ 0 < stride then
    if padding = "valid" then
      if size ≤ inSize then some ((inSize - size) / stride + 1) else none
    else if padding = "same" then some ((inSize + stride - 1) / stride)
    else none
  else none

/-- How much is padded before an axis under `same` padding, from the extent, the window and the
stride. -/
abbrev SamePad := ℕ → ℕ → ℕ → ℤ

/-- Keras pads what the last window needs, half of it before. -/
def samePad : SamePad := fun inSize size stride =>
  ((((inSize + stride - 1) / stride - 1) * stride + size - inSize) / 2 : ℕ)

/-- One axis of a window operation. -/
structure Window where
  out : ℕ
  padBefore : ℤ
  deriving DecidableEq

def window (pad : SamePad) (padding : String) (inSize size stride : ℕ) : Option Window :=
  (outSize padding inSize size stride).map fun out =>
    ⟨out, if padding = "same" then pad inSize size stride else 0⟩

/-- The coordinate a tap of a window reads. -/
def Window.coord (w : Window) (stride o tap : ℕ) : ℤ := (o : ℤ) * stride - w.padBefore + tap

def Window.inside (w : Window) (inSize stride o tap : ℕ) : Prop :=
  0 ≤ w.coord stride o tap ∧ (w.coord stride o tap).toNat < inSize

instance (w : Window) (inSize stride o tap : ℕ) : Decidable (w.inside inSize stride o tap) :=
  inferInstanceAs (Decidable (_ ∧ _))

/-- The windows of a two-dimensional operation. -/
structure Windows where
  vertical : Window
  horizontal : Window
  size : ℕ × ℕ
  stride : ℕ × ℕ

/-- The windows of an operation on an image, if Keras accepts it. -/
def windows (pad : SamePad) (padding : String) (inHeight inWidth : ℕ) (size stride : ℕ × ℕ) :
    Option Windows := do
  let vertical ← window pad padding inHeight size.1 stride.1
  let horizontal ← window pad padding inWidth size.2 stride.2
  return { vertical, horizontal, size, stride }

namespace Windows

variable (w : Windows)

/-- The cell that tap `(i, j)` of window `(oh, ow)` reads, zero outside the image. -/
def read (t : Tensor3 V) (oh ow i j c : ℕ) : V :=
  t.padded (w.vertical.coord w.stride.1 oh i) (w.horizontal.coord w.stride.2 ow j) c

/-- The convolution with a kernel and a bias. -/
def conv2D (filters : ℕ) (kernel : ℕ → ℕ → ℕ → ℕ → K) (bias : ℕ → K) (t : Tensor3 V) :
    Tensor3 V where
  height := w.vertical.out
  width := w.horizontal.out
  channels := filters
  cell oh ow oc :=
    (∑ i ∈ range w.size.1, ∑ j ∈ range w.size.2, ∑ c ∈ range t.channels,
      kernel i j c oc • w.read t oh ow i j c) + algebraMap K V (bias oc)

/-- The sum over each window. -/
def windowSum (t : Tensor3 V) : Tensor3 V where
  height := w.vertical.out
  width := w.horizontal.out
  channels := t.channels
  cell oh ow oc := ∑ i ∈ range w.size.1, ∑ j ∈ range w.size.2, w.read t oh ow i j oc

/-- How many taps of a window lie in the image. -/
def count (inHeight inWidth oh ow : ℕ) : ℕ :=
  ∑ i ∈ range w.size.1, ∑ j ∈ range w.size.2,
    if w.vertical.inside inHeight w.stride.1 oh i ∧ w.horizontal.inside inWidth w.stride.2 ow j
    then 1 else 0

/-- The mean of each window over its cells in the image. -/
def averagePool (t : Tensor3 V) : Tensor3 V where
  height := w.vertical.out
  width := w.horizontal.out
  channels := t.channels
  cell oh ow oc := (1 / (w.count t.height t.width oh ow : K)) •
    ∑ i ∈ range w.size.1, ∑ j ∈ range w.size.2, w.read t oh ow i j oc

end Windows

/-! ## Affine operations -/

def affine (weight bias : ℕ → K) (i : ℕ) (x : V) : V := weight i • x + algebraMap K V (bias i)

/-- A dense layer. -/
def dense (units : ℕ) (kernel : ℕ → ℕ → K) (bias : ℕ → K) (v : List V) : List V :=
  List.ofFn fun o : Fin units =>
    (∑ i ∈ range v.length, kernel i o • v.getD i 0) + algebraMap K V (bias o)

/-- The sum over all positions of each channel. -/
def channelSum (t : Tensor3 V) : List V :=
  List.ofFn fun c : Fin t.channels =>
    ∑ h ∈ range t.height, ∑ w ∈ range t.width, t.padded h w c

/-! ## Shapes of windows -/

theorem outSize_pos {padding : String} {inSize size stride out : ℕ}
    (h : outSize padding inSize size stride = some out) :
    0 < inSize ∧ 0 < size ∧ 0 < stride ∧ 0 < out := by
  unfold outSize at h
  split at h
  · rename_i hpos
    obtain ⟨hi, hz, hs⟩ := hpos
    refine ⟨hi, hz, hs, ?_⟩
    split at h
    · split at h
      · cases h
        exact Nat.succ_pos _
      · cases h
    · split at h
      · cases h
        exact Nat.div_pos (by omega) hs
      · cases h
  · cases h

/-- An accepted window has one of the two paddings. -/
theorem outSize_cases {padding : String} {inSize size stride out : ℕ}
    (h : outSize padding inSize size stride = some out) :
    (padding = "valid" ∧ size ≤ inSize ∧ out = (inSize - size) / stride + 1) ∨
    (padding = "same" ∧ out = (inSize + stride - 1) / stride) := by
  unfold outSize at h
  split at h
  · split at h
    · split at h
      · exact .inl ⟨by assumption, by assumption, (Option.some.inj h).symm⟩
      · cases h
    · split at h
      · exact .inr ⟨by assumption, (Option.some.inj h).symm⟩
      · cases h
  · cases h

theorem window_eq_some {pad : SamePad} {padding : String} {inSize size stride : ℕ} {w : Window} :
    window pad padding inSize size stride = some w ↔
      outSize padding inSize size stride = some w.out ∧
      w.padBefore = if padding = "same" then pad inSize size stride else 0 := by
  cases w
  simp only [window, Option.map_eq_some_iff, Window.mk.injEq]
  constructor
  · rintro ⟨_, h, rfl, rfl⟩
    exact ⟨h, rfl⟩
  · rintro ⟨h, rfl⟩
    exact ⟨_, h, rfl, rfl⟩

/-- A window of `valid` padding lies in the image. -/
theorem window_valid {pad : SamePad} {inSize size stride : ℕ} {w : Window}
    (h : window pad "valid" inSize size stride = some w) {o tap : ℕ} (ho : o < w.out)
    (ht : tap < size) : w.inside inSize stride o tap := by
  obtain ⟨hout, hpad⟩ := window_eq_some.1 h
  obtain ⟨-, hle, hout⟩ | ⟨hc, -⟩ := outSize_cases hout
  · rw [if_neg (by decide)] at hpad
    rw [hout, Nat.lt_succ_iff] at ho
    have hmul : o * stride ≤ inSize - size :=
      (Nat.mul_le_mul_right stride ho).trans (Nat.div_mul_le_self _ _)
    simp only [Window.inside, Window.coord, hpad]
    constructor <;> omega
  · exact absurd hc (by decide)

theorem windows_eq_some {pad : SamePad} {padding : String} {h w : ℕ} {size stride : ℕ × ℕ}
    {win : Windows} :
    windows pad padding h w size stride = some win ↔
      window pad padding h size.1 stride.1 = some win.vertical ∧
      window pad padding w size.2 stride.2 = some win.horizontal ∧
      win.size = size ∧ win.stride = stride := by
  cases win
  simp only [windows, Option.bind_eq_bind, Option.bind_eq_some_iff, Option.pure_def,
    Option.some.injEq, Windows.mk.injEq]
  aesop

theorem windows_of_outSize {padding : String} {h w oh ow : ℕ} {size stride : ℕ × ℕ}
    (hh : outSize padding h size.1 stride.1 = some oh)
    (hw : outSize padding w size.2 stride.2 = some ow) (pad : SamePad) :
    ∃ win, windows pad padding h w size stride = some win ∧ win.vertical.out = oh ∧
      win.horizontal.out = ow := by
  have hv : window pad padding h size.1 stride.1 = some ⟨oh, _⟩ := window_eq_some.2 ⟨hh, rfl⟩
  have hz : window pad padding w size.2 stride.2 = some ⟨ow, _⟩ := window_eq_some.2 ⟨hw, rfl⟩
  exact ⟨⟨_, _, size, stride⟩, windows_eq_some.2 ⟨hv, hz, rfl, rfl⟩, rfl, rfl⟩

/-- All taps of a window are counted exactly if all lie in the image. -/
theorem Windows.count_eq_iff {win : Windows} {h w oh ow : ℕ} :
    win.count h w oh ow = win.size.1 * win.size.2 ↔ ∀ i < win.size.1, ∀ j < win.size.2,
      win.vertical.inside h win.stride.1 oh i ∧ win.horizontal.inside w win.stride.2 ow j := by
  have hle : ∀ i j, (if win.vertical.inside h win.stride.1 oh i ∧ win.horizontal.inside w win.stride.2 ow j
      then 1 else 0) ≤ 1 := fun i j => by split <;> omega
  have harea : ∑ _i ∈ range win.size.1, ∑ _j ∈ range win.size.2, 1 = win.size.1 * win.size.2 := by simp
  rw [Windows.count, ← harea, Finset.sum_eq_sum_iff_of_le fun i _ => Finset.sum_le_sum fun j _ => hle i j]
  refine forall_congr' fun i => ?_
  rw [Finset.mem_range, Finset.sum_eq_sum_iff_of_le fun j _ => hle i j]
  refine imp_congr_right fun _ => forall_congr' fun j => ?_
  rw [Finset.mem_range]
  refine imp_congr_right fun _ => ?_
  split <;> simp_all

theorem Windows.count_valid {pad : SamePad} {h w : ℕ} {size stride : ℕ × ℕ} {win : Windows}
    (hw : windows pad "valid" h w size stride = some win) (oh : Fin win.vertical.out)
    (ow : Fin win.horizontal.out) : win.count h w oh ow = size.1 * size.2 := by
  obtain ⟨hv, hh, rfl, rfl⟩ := windows_eq_some.1 hw
  exact Windows.count_eq_iff.2 fun i hi j hj =>
    ⟨window_valid hv oh.isLt hi, window_valid hh ow.isLt hj⟩

/-! ## Linearity -/

/-- A factor on every cell. -/
def scale (f : K) (t : Tensor3 V) : Tensor3 V := t.map fun x => f • x

def scaleUnits (f : K) (v : List V) : List V := v.map fun x => f • x

@[simp] theorem scale_one (t : Tensor3 V) : scale (1 : K) t = t := by
  simp [scale]

@[simp] theorem scaleUnits_one (v : List V) : scaleUnits (1 : K) v = v := by
  simp [scaleUnits]

theorem scale_scale (f g : K) (t : Tensor3 V) : scale f (scale g t) = scale (f * g) t := by
  simp only [scale, Tensor3.map_map, smul_smul]

theorem scaleUnits_scaleUnits (f g : K) (v : List V) :
    scaleUnits f (scaleUnits g v) = scaleUnits (f * g) v := by
  simp only [scaleUnits, List.map_map]
  exact List.map_congr_left fun x _ => smul_smul f g x

@[simp] theorem scale_height (f : K) (t : Tensor3 V) : (scale f t).height = t.height := rfl
@[simp] theorem scale_width (f : K) (t : Tensor3 V) : (scale f t).width = t.width := rfl
@[simp] theorem scale_channels (f : K) (t : Tensor3 V) : (scale f t).channels = t.channels := rfl
@[simp] theorem length_scaleUnits (f : K) (v : List V) : (scaleUnits f v).length = v.length := by
  simp [scaleUnits]

theorem getD_scaleUnits (f : K) (v : List V) (i : ℕ) :
    (scaleUnits f v).getD i 0 = f • v.getD i 0 := by
  simp only [scaleUnits, List.getD_eq_getElem?_getD, List.getElem?_map]
  cases v[i]? <;> simp

theorem toUnits_scale (f : K) (t : Tensor3 V) : (scale f t).toUnits = scaleUnits f t.toUnits :=
  t.toUnits_map _

theorem Windows.read_scale (w : Windows) (f : K) (t : Tensor3 V) (oh ow i j c : ℕ) :
    w.read (scale f t) oh ow i j c = f • w.read t oh ow i j c :=
  Tensor3.padded_map (smul_zero f) t _ _ c

/-- A factor on the image may move into the kernel. -/
theorem Windows.conv2D_smul (w : Windows) (filters : ℕ) (kernel : ℕ → ℕ → ℕ → ℕ → K) (bias : ℕ → K)
    (f : K) (t : Tensor3 V) : w.conv2D filters kernel bias (scale f t) =
      w.conv2D filters (fun i j c o => f * kernel i j c o) bias t := by
  simp only [Windows.conv2D, Windows.read_scale, smul_smul, mul_comm]
  rfl

/-- Only the weights of the window's taps, channels and filters matter. -/
theorem Windows.conv2D_congr {w : Windows} {filters : ℕ} {kernel kernel' : ℕ → ℕ → ℕ → ℕ → K}
    {bias : ℕ → K} {t : Tensor3 V}
    (h : ∀ i < w.size.1, ∀ j < w.size.2, ∀ c < t.channels, ∀ o < filters,
      kernel i j c o = kernel' i j c o) :
    w.conv2D filters kernel bias t = w.conv2D filters kernel' bias t := by
  have hcell : (w.conv2D filters kernel bias t).cell = (w.conv2D filters kernel' bias t).cell := by
    funext oh ow oc
    simp only [Windows.conv2D]
    congr 1
    refine Finset.sum_congr rfl fun i hi => Finset.sum_congr rfl fun j hj =>
      Finset.sum_congr rfl fun c hc => ?_
    rw [h i (Finset.mem_range.1 hi) j (Finset.mem_range.1 hj) c (Finset.mem_range.1 hc) oc oc.isLt]
  exact congrArg (Tensor3.mk _ _ _) hcell

/-- An affine map after a convolution may move into the kernel and the bias. -/
theorem Windows.conv2D_affine (w : Windows) (filters : ℕ) (kernel : ℕ → ℕ → ℕ → ℕ → K)
    (bias weight shift : ℕ → K) (t : Tensor3 V) :
    (w.conv2D filters kernel bias t).mapChannels (affine weight shift) =
      w.conv2D filters (fun i j c o => kernel i j c o * weight o)
        (fun o => bias o * weight o + shift o) t := by
  simp only [Windows.conv2D, Tensor3.mapChannels, affine, smul_add, Finset.smul_sum, smul_smul,
    map_add, map_mul, Algebra.smul_def (weight _) (algebraMap K V _), mul_comm, add_assoc]

theorem Windows.windowSum_smul (w : Windows) (f : K) (t : Tensor3 V) :
    w.windowSum (scale f t) = scale f (w.windowSum t) := by
  simp only [Windows.windowSum, Windows.read_scale, ← Finset.smul_sum]
  rfl

/-- Where every window has all its cells, the mean is one factor on the sum. -/
theorem Windows.averagePool_of_count {win : Windows} {t : Tensor3 V}
    (h : ∀ (oh : Fin win.vertical.out) (ow : Fin win.horizontal.out),
      win.count t.height t.width oh ow = win.size.1 * win.size.2) :
    win.averagePool (K := K) t = scale (1 / ((win.size.1 * win.size.2 : ℕ) : K)) (win.windowSum t) := by
  simp only [Windows.averagePool, h]
  rfl

/-- So it is under `valid` padding. -/
theorem Windows.averagePool_valid {pad : SamePad} {size stride : ℕ × ℕ} {win : Windows}
    {t : Tensor3 V} (hw : windows pad "valid" t.height t.width size stride = some win) :
    win.averagePool (K := K) t = scale (1 / ((size.1 * size.2 : ℕ) : K)) (win.windowSum t) := by
  obtain ⟨-, -, rfl, -⟩ := windows_eq_some.1 hw
  exact Windows.averagePool_of_count (Windows.count_valid hw)

theorem Windows.averagePool_smul (w : Windows) (f : K) (t : Tensor3 V) :
    w.averagePool (K := K) (scale f t) = scale f (w.averagePool (K := K) t) := by
  simp only [Windows.averagePool, Windows.read_scale, ← Finset.smul_sum, smul_comm _ f]
  rfl

theorem dense_smul (units : ℕ) (kernel : ℕ → ℕ → K) (bias : ℕ → K) (f : K) (v : List V) :
    dense units kernel bias (scaleUnits f v) =
      dense units (fun i o => f * kernel i o) bias v := by
  simp only [dense, length_scaleUnits, getD_scaleUnits, smul_smul, mul_comm]

theorem channelSum_smul (f : K) (t : Tensor3 V) :
    channelSum (scale f t) = scaleUnits f (channelSum t) := by
  simp only [channelSum, scale, Tensor3.padded_map (smul_zero f), ← Finset.smul_sum, scaleUnits,
    List.map_ofFn, Function.comp_def]
  rfl

theorem dense_congr {units : ℕ} {kernel kernel' : ℕ → ℕ → K} {bias : ℕ → K} {v : List V}
    (h : ∀ i < v.length, ∀ o < units, kernel i o = kernel' i o) :
    dense units kernel bias v = dense units kernel' bias v := by
  simp only [dense]
  congr 1
  funext o
  congr 1
  refine Finset.sum_congr rfl fun i hi => ?_
  rw [h i (Finset.mem_range.1 hi) o o.isLt]

end Keras
