import PPCNN.Cnn.Proof.Pending
import PPCNN.Cnn.Proof.Complete
import PPCNN.Keras.Constant
import Mathlib.Algebra.Algebra.Hom

/-!
# Neutral weights

Weights under which every layer of a model passes on the first cell of its input (`Neutral`): a
network with them, on an image whose cells are all equal, computes one function of the cell
(`scalarRun`), in which only activations and factors are left. Every model has a weights file that
is neutral in all layers but one batch normalisation (`exists_file`).
-/

set_option autoImplicit false

namespace Cnn.Proof

open Lib Keras

variable {K V : Type} [Field K]

/-! ## Neutral layers -/

/-- The tap of an axis that every window has in the image. -/
def tap (padding : String) (inSize size stride : ℕ) : ℕ :=
  if padding = "same" then (samePadAxis inSize size stride).toNat else 0

theorem tap_eq {padding : String} {inSize size stride : ℕ} {w : Window}
    (h : window samePadAxis padding inSize size stride = some w) :
    tap padding inSize size stride = w.padBefore.toNat := by
  rw [tap, (window_eq_some.1 h).2]
  split
  · rfl
  · rw [Int.toNat_zero]

/-- The weight and the bias of a batch normalisation. -/
def BnIs (c : Define K) (file : H5File K) (name : String) (s : Shape) (weight bias : K) : Prop :=
  ∀ i < s.lastDim, (bnData file (groupPath name name)).weight id c i = weight ∧
    (bnData file (groupPath name name)).bias id c i = bias

/-- The weights of a layer let the first cell of its input through. -/
def Neutral (c : Define K) (file : H5File K) : LayerInfo → Shape → Prop
  | .conv2D info, .image h w n =>
    (∀ i < info.kernelSize.1, ∀ j < info.kernelSize.2, ∀ ic < n, ∀ oc < info.filters,
      convKernel file (groupPath info.name info.name) info n i j ic oc =
        if i = tap info.padding h info.kernelSize.1 info.strides.1 ∧
          j = tap info.padding w info.kernelSize.2 info.strides.2 ∧ ic = 0 then 1 else 0) ∧
    ∀ oc < info.filters, data file (groupPath info.name info.name) biasKey oc = 0
  | .dense info, .units n =>
    (∀ i < n, ∀ ou < info.units, denseKernel file (groupPath info.name info.name) info i ou =
      if i = 0 then 1 else 0) ∧
    ∀ ou < info.units, data file (groupPath info.name info.name) biasKey ou = 0
  | .batchNormalization name, s => BnIs c file name s 1 0
  | _, _ => True

/-- The layer has a value on one cell: it is no sum over an image. -/
def Cellwise : LayerInfo → Prop
  | .globalAveragePooling2D _ | .other _ => False
  | _ => True

section Scalar

variable [CommRing V] [Algebra K V] (c : Define K)

/-- What a built layer with neutral weights makes of a cell. -/
def scalarLayer (o : OptOption K) : LayerInfo → V → V
  | .conv2D _, x | .dense _, x => pending o • x
  | .averagePooling2D info, x =>
    (if o.enableOptimizePooling then 1 else poolFactor id o info) •
      (((info.poolSize.1 * info.poolSize.2 : ℕ) : K) • x)
  | .activation _ activation, x => storedActivation c o activation x
  | _, x => x

/-- The cells of a network with neutral weights. -/
def scalarRun (layers : List LayerInfo) (o : OptOption K) (x : V) : OptOption K × V :=
  layers.foldl (fun p l => (optionAfter id p.1 (.units 0) (.single l), scalarLayer c p.1 l p.2)) (o, x)

theorem scalarRun_cons (l : LayerInfo) (layers : List LayerInfo) (o : OptOption K) (x : V) :
    scalarRun c (l :: layers) o x =
      scalarRun c layers (optionAfter id o (.units 0) (.single l)) (scalarLayer c o l x) := rfl

theorem map_scalarLayer {W : Type} [CommRing W] [Algebra K W] (g : V →ₐ[K] W) (o : OptOption K)
    (l : LayerInfo) (x : V) : scalarLayer c o l (g x) = g (scalarLayer c o l x) := by
  cases l with
  | activation name activation =>
    simp only [scalarLayer, storedActivation, swish]
    split
    · exact (map_mul g x x).symm
    · split <;> simp
  | conv2D info => exact (map_smul g _ _).symm
  | dense info => exact (map_smul g _ _).symm
  | averagePooling2D info => rw [scalarLayer, scalarLayer, map_smul, map_smul]
  | _ => rfl

theorem map_scalarRun {W : Type} [CommRing W] [Algebra K W] (g : V →ₐ[K] W)
    (layers : List LayerInfo) (o : OptOption K) (x : V) :
    scalarRun c layers o (g x) = ((scalarRun c layers o x).1, g (scalarRun c layers o x).2) := by
  induction layers generalizing o x with
  | nil => rfl
  | cons l layers ih => rw [scalarRun_cons, scalarRun_cons, map_scalarLayer, ih]

end Scalar

theorem optionAfter_cellwise {l : LayerInfo} (h : Cellwise l) (o : OptOption K) (s s' : Shape) :
    optionAfter id o s (.single l) = optionAfter id o s' (.single l) := by
  cases l with
  | globalAveragePooling2D name => exact absurd h id
  | _ => rfl

variable [LinearOrder K] [IsStrictOrderedRing K] [CommRing V] [Algebra K V] {c : Define K}
  {file : H5File K}

theorem stored_const (hε : c.epsilon = 0) {l : LayerInfo} {s s' : Shape} (hpos : s.Positive)
    (hs : outShape l s = some s') (hvalid : ValidPool l) (hl : Cellwise l)
    (hn : Neutral c file l s) (o : OptOption K) (x : V) :
    stored c file o (.single l) (s.const x) = s'.const (scalarLayer c o l x) := by
  cases l with
  | conv2D info =>
    cases s with
    | units n => cases hs
    | image h w n =>
      obtain ⟨oh, ow, hoh, how, rfl, -, -⟩ := outShape_conv2D hs
      obtain ⟨win, hwin, hv, hz⟩ := windows_of_outSize hoh how samePadAxis
      obtain ⟨hwv, hwz, hsize, hstride⟩ := windows_eq_some.1 hwin
      obtain ⟨hvlt, hvin⟩ := window_fixed_tap hwv
      obtain ⟨hzlt, hzin⟩ := window_fixed_tap hwz
      have hkernel : ∀ i < win.size.1, ∀ j < win.size.2, ∀ ic < n, ∀ oc < info.filters,
          clampWeight c (foldedConv c file id o info none n i j ic oc) =
            if i = win.vertical.padBefore.toNat ∧ j = win.horizontal.padBefore.toNat ∧ ic = 0
            then pending o else 0 := by
        intro i hi j hj ic hic oc hoc
        rw [hsize] at hi hj
        rw [clampWeight_zero hε, foldedConv_single, takeFolding_fst, hn.1 i hi j hj ic hic oc hoc,
          tap_eq hwv, tap_eq hwz, mul_ite, mul_one, mul_zero]
      have hbias : ∀ oc < info.filters, storedConvBias c file id info none oc = 0 := hn.2
      have hconv := Windows.conv2D_const x hpos.2.2 (hsize ▸ hvlt) (hsize ▸ hzlt) (hstride ▸ hvin)
        (hstride ▸ hzin) hkernel hbias
      simp only [stored, Shape.const, convImage, onWindows, hwin]
      rw [hconv, map_zero, add_zero, hv, hz, scalarLayer]
  | averagePooling2D info =>
    cases s with
    | units n => cases hs
    | image h w n =>
      obtain ⟨oh, ow, hoh, how, rfl⟩ := outShape_averagePooling2D hs
      obtain ⟨win, hwin, rfl, rfl⟩ := windows_of_outSize hoh how samePadAxis
      have hpad : info.padding = "valid" := hvalid
      have hsum := Windows.windowSum_const (K := K) (n := n) (hpad ▸ hwin) x
      simp only [stored, Shape.const, poolImage, onWindows, hwin, hsum, scalarLayer]
      cases o.enableOptimizePooling <;> simp [scale, Tensor3.map]
  | batchNormalization name =>
    cases hs
    have hid : ∀ i < (s.const x).shape.lastDim, ∀ y, y = x →
        affine ((bnData file (groupPath name name)).weight id c)
          ((bnData file (groupPath name name)).bias id c) i y = x := by
      rintro i hi _ rfl
      rw [s.shape_const] at hi
      rw [affine, (hn i hi).1, (hn i hi).2, one_smul, map_zero, add_zero]
    exact (Value.mapIdx_eq_const (s.cells_const x) hid).trans (by rw [s.shape_const]; rfl)
  | flatten name =>
    cases s with
    | units n => cases hs
    | image h w n =>
      cases hs
      exact congrArg Value.units (toUnits_const h w n x)
  | dense info =>
    cases s with
    | image h w n => cases hs
    | units n =>
      simp only [outShape] at hs
      split at hs
      · cases hs
        refine congrArg Value.units ((dense_const x hpos (f := pending o) ?_ hn.2).trans ?_)
        · intro i hi ou hou
          rw [clampWeight_zero hε, foldedDense_single, takeFolding_fst, hn.1 i hi ou hou, mul_ite, mul_one,
            mul_zero]
        · rw [map_zero, add_zero, scalarLayer]
      · cases hs
  | activation name activation =>
    cases hs
    exact s.map_const _ _
  | globalAveragePooling2D name => exact absurd hl id
  | other className => exact absurd hl id

/-! ## Runs -/

/-- A property of every layer, with the shape the layer finds. -/
def EveryLayer (R : LayerInfo → Shape → Prop) : List LayerInfo → Shape → Prop
  | [], _ => True
  | l :: layers, s => R l s ∧ ∀ s', outShape l s = some s' → EveryLayer R layers s'

theorem EveryLayer.imp {R R' : LayerInfo → Shape → Prop} {layers : List LayerInfo}
    (h : ∀ l ∈ layers, ∀ s, R l s → R' l s) {s : Shape} (hR : EveryLayer R layers s) :
    EveryLayer R' layers s := by
  induction layers generalizing s with
  | nil => trivial
  | cons l layers ih =>
    exact ⟨h l List.mem_cons_self s hR.1, fun s' hs' =>
      ih (fun l' hl' => h l' (List.mem_cons_of_mem _ hl')) (hR.2 s' hs')⟩

theorem EveryLayer.append {R : LayerInfo → Shape → Prop} {pre post : List LayerInfo} {s s' : Shape}
    (hs : outShapes pre s = some s') (h : EveryLayer R (pre ++ post) s) : EveryLayer R post s' := by
  induction pre generalizing s with
  | nil => exact Option.some.inj hs ▸ h
  | cons l pre ih =>
    obtain ⟨s1, hs1, hs⟩ := outShapes_cons.1 hs
    exact ih hs (h.2 s1 hs1)

omit [Field K] [LinearOrder K] [IsStrictOrderedRing K] in
theorem modelData_of {layers : List LayerInfo} {s : Shape}
    (h : EveryLayer (LayerData file) layers s) : ModelData file layers s := by
  induction layers generalizing s with
  | nil => trivial
  | cons l layers ih => exact ⟨h.1, fun s' hs' => ih (h.2 s' hs')⟩

theorem storedRun_const (hε : c.epsilon = 0) {layers : List LayerInfo}
    (hvalid : ∀ l ∈ layers, ValidPool l) (hcell : ∀ l ∈ layers, Cellwise l) {s s' : Shape}
    (hpos : s.Positive) (hs : outShapes layers s = some s')
    (hn : EveryLayer (Neutral c file) layers s) (o : OptOption K) (x : V) :
    storedRun c file (layers.map .single) o (s.const x) =
      ((scalarRun c layers o x).1, s'.const (scalarRun c layers o x).2) := by
  induction layers generalizing s o x with
  | nil =>
    obtain rfl := Option.some.inj hs
    rfl
  | cons l layers ih =>
    obtain ⟨s1, hs1, hs⟩ := outShapes_cons.1 hs
    have hl := hcell l List.mem_cons_self
    rw [List.map_cons, storedRun_cons, stored_const hε hpos hs1 (hvalid l List.mem_cons_self) hl hn.1,
      optionAfter_cellwise hl o _ (.units 0), scalarRun_cons]
    exact ih (fun l' h => hvalid l' (List.mem_cons_of_mem _ h))
      (fun l' h => hcell l' (List.mem_cons_of_mem _ h)) (outShape_positive hpos hs1) hs (hn.2 s1 hs1)
      _ _

end Cnn.Proof
