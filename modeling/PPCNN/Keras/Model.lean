import PPCNN.Keras.Ops
import PPCNN.Cnn.LoadModel

/-!
# The reference model

What Keras assigns to a layer list and a weights file: the shape of each layer's output
(`outShape`, `none` where Keras rejects the layer) and its value (`layer`, `run`). The softmax of a
last layer is dropped, as the program does. Activations, the divisor of a global average and the
offset of `same` padding are parameters (`Semantics`), so that one theorem covers the reference and
what a network computes instead; `Semantics.keras` is the reference.
-/

set_option autoImplicit false

namespace Keras

open Cnn

variable {K V : Type} [Field K] [CommRing V] [Algebra K V]

/-! ## Values and shapes -/

inductive Value (V : Type) where
  | image (t : Tensor3 V)
  | units (v : List V)

inductive Shape where
  | image (height width channels : ℕ)
  | units (n : ℕ)
  deriving DecidableEq, Repr

def Value.shape : Value V → Shape
  | .image t => .image t.height t.width t.channels
  | .units v => .units v.length

/-- The shape of a layer's output, `none` if Keras rejects the layer. -/
def outShape : LayerInfo → Shape → Option Shape
  | .conv2D info, .image h w c =>
    if info.batchInputShape.getD (h, w, c) = (h, w, c) ∧ 0 < info.filters then do
      let outHeight ← outSize info.padding h info.kernelSize.1 info.strides.1
      let outWidth ← outSize info.padding w info.kernelSize.2 info.strides.2
      return .image outHeight outWidth info.filters
    else none
  | .averagePooling2D info, .image h w c => do
    let outHeight ← outSize info.padding h info.poolSize.1 info.strides.1
    let outWidth ← outSize info.padding w info.poolSize.2 info.strides.2
    return .image outHeight outWidth c
  | .batchNormalization _, s => some s
  | .activation _ _, s => some s
  | .flatten _, .image h w c => some (.units (h * w * c))
  | .globalAveragePooling2D _, .image _ _ c => some (.units c)
  | .dense info, .units _ => if 0 < info.units then some (.units info.units) else none
  | _, _ => none

/-- The shape after a list of layers. -/
def outShapes (layers : List LayerInfo) (s : Shape) : Option Shape :=
  layers.foldlM (fun s layer => outShape layer s) s

theorem outShapes_cons {l : LayerInfo} {layers : List LayerInfo} {s s' : Shape} :
    outShapes (l :: layers) s = some s' ↔
      ∃ s1, outShape l s = some s1 ∧ outShapes layers s1 = some s' :=
  Option.bind_eq_some_iff

theorem outShapes_append (layers layers' : List LayerInfo) (s : Shape) :
    outShapes (layers ++ layers') s = (outShapes layers s).bind (outShapes layers') :=
  List.foldlM_append

/-- Poolings have `valid` windows. -/
def ValidPool : LayerInfo → Prop
  | .averagePooling2D info => info.padding = "valid"
  | _ => True

/-- No dimension is zero. -/
def Shape.Positive : Shape → Prop
  | .image h w c => 0 < h ∧ 0 < w ∧ 0 < c
  | .units n => 0 < n

/-- A model that Keras accepts for images of the given extents: it starts with a convolution that
declares them and ends with a vector. A second `Flatten`, a `Dense` before it or a `Conv2D` after it
has no shape. -/
structure IsModel (layers : List LayerInfo) (height width channels units : ℕ) : Prop where
  first : ∃ info rest, layers = .conv2D info :: rest ∧
    info.batchInputShape = some (height, width, channels)
  shapes : outShapes layers (.image height width channels) = some (.units units)
  channels : 0 < channels
  validPool : ∀ l ∈ layers, ValidPool l

/-! ## Weights -/

/-- Element `i` of a data set of the weights file. -/
def data (file : H5File K) (path key : String) (i : ℕ) : K :=
  match (file path).bind fun group => group key with
  | some ds => ds.getD i 0
  | none => 0

/-- The data sets of a batch normalisation. -/
def bnData (file : H5File K) (path : String) : BnData K where
  beta := data file path betaKey
  gamma := data file path gammaKey
  movingMean := data file path movingMeanKey
  movingVariance := data file path movingVarianceKey

/-- The kernel of a convolution, stored row-major. -/
def convKernel (file : H5File K) (path : String) (info : Conv2DInfo) (inChannels : ℕ)
    (fh fw ic oc : ℕ) : K :=
  data file path kernelKey (kernelIndex info.kernelSize.2 inChannels info.filters fh fw ic oc)

/-- The kernel of a dense layer, stored row-major. -/
def denseKernel (file : H5File K) (path : String) (info : DenseInfo) (i o : ℕ) : K :=
  data file path kernelKey (i * info.units + o)

/-- A data set of `n` elements is in the file. -/
def HasData (file : H5File K) (path key : String) (n : ℕ) : Prop :=
  ∃ group ds, file path = some group ∧ group key = some ds ∧ ds.length = n

/-- The dimension of the weights of a batch normalisation. -/
def Shape.lastDim : Shape → ℕ
  | .image _ _ c => c
  | .units n => n

/-- The data sets of a batch normalisation are in the file. -/
def HasBnData (file : H5File K) (name : String) (n : ℕ) : Prop :=
  ∀ key ∈ [betaKey, gammaKey, movingMeanKey, movingVarianceKey],
    HasData file (groupPath name name) key n

/-- The data sets of a layer are in the file. -/
def LayerData (file : H5File K) : LayerInfo → Shape → Prop
  | .conv2D info, .image _ _ n =>
    HasData file (groupPath info.name info.name) kernelKey
      (info.kernelSize.1 * info.kernelSize.2 * n * info.filters) ∧
    HasData file (groupPath info.name info.name) biasKey info.filters
  | .batchNormalization name, s => HasBnData file name s.lastDim
  | .dense info, .units n =>
    HasData file (groupPath info.name info.name) kernelKey (n * info.units) ∧
    HasData file (groupPath info.name info.name) biasKey info.units
  | _, _ => True

/-- The weights file belongs to the model. -/
def ModelData (file : H5File K) : List LayerInfo → Shape → Prop
  | [], _ => True
  | l :: layers, s => LayerData file l s ∧ ∀ s', outShape l s = some s' → ModelData file layers s'

/-! ## Layers -/

/-- What the value of a layer is taken with. -/
structure Semantics (K V : Type) where
  samePad : SamePad
  activation : String → V → V
  /-- the factor on the sum over an image of the given number of positions -/
  average : ℕ → K

/-- `gamma (x - mean) / sqrt(variance + ε) + beta`. -/
def batchNorm (c : Define K) (bn : BnData K) (i : ℕ) (x : V) : V :=
  (bn.gamma i / c.sqrt (bn.movingVariance i + c.bnEpsilon)) •
    (x - algebraMap K V (bn.movingMean i)) + algebraMap K V (bn.beta i)

/-- An operation on the windows of an image; outside `outShape` the image is left as it is. -/
def onWindows (pad : SamePad) (padding : String) (size stride : ℕ × ℕ)
    (op : Windows → Tensor3 V → Tensor3 V) (t : Tensor3 V) : Tensor3 V :=
  match windows pad padding t.height t.width size stride with
  | some win => op win t
  | none => t

/-- A convolution with a kernel that may depend on the number of input channels. -/
def convImage (pad : SamePad) (info : Conv2DInfo) (kernel : ℕ → ℕ → ℕ → ℕ → ℕ → K) (bias : ℕ → K) :
    Tensor3 V → Tensor3 V :=
  onWindows pad info.padding info.kernelSize info.strides fun win t =>
    win.conv2D info.filters (kernel t.channels) bias t

def poolImage (pad : SamePad) (info : AveragePooling2DInfo)
    (op : Windows → Tensor3 V → Tensor3 V) : Tensor3 V → Tensor3 V :=
  onWindows pad info.padding info.poolSize info.strides op

/-- A function on every cell or unit. -/
def Value.map (f : V → V) : Value V → Value V
  | .image t => .image (t.map f)
  | .units u => .units (u.map f)

/-- A factor on every cell or unit. -/
def Value.scale (f : K) (v : Value V) : Value V := v.map fun x => f • x

@[simp] theorem Value.scale_one (v : Value V) : v.scale (1 : K) = v := by
  cases v with
  | image t => exact congrArg Value.image (Keras.scale_one t)
  | units u => exact congrArg Value.units (scaleUnits_one u)

/-- A function for each channel or unit. -/
def Value.mapIdx (f : ℕ → V → V) : Value V → Value V
  | .image t => .image (t.mapChannels f)
  | .units u => .units (u.mapIdx f)

/-- The value of a layer; outside `outShape` the input is left as it is. -/
def layer (c : Define K) (sem : Semantics K V) (file : H5File K) :
    LayerInfo → Value V → Value V
  | .conv2D info, .image t =>
    let path := groupPath info.name info.name
    .image (convImage sem.samePad info (convKernel file path info) (data file path biasKey) t)
  | .averagePooling2D info, .image t =>
    .image (poolImage sem.samePad info (Windows.averagePool (K := K)) t)
  | .batchNormalization name, v => v.mapIdx (batchNorm c (bnData file (groupPath name name)))
  | .activation _ activation, v => v.map (sem.activation activation)
  | .flatten _, .image t => .units t.toUnits
  | .globalAveragePooling2D _, .image t =>
    .units (scaleUnits (sem.average (t.height * t.width)) (channelSum t))
  | .dense info, .units u =>
    let path := groupPath info.name info.name
    .units (dense info.units (denseKernel file path info) (data file path biasKey) u)
  | _, v => v

/-- A batch normalisation is affine, with the weight and bias the builders compute. -/
theorem batchNorm_eq (c : Define K) (bn : BnData K) :
    batchNorm c bn (V := V) = affine (bn.weight id c) (bn.bias id c) := by
  funext i x
  simp only [batchNorm, affine, BnData.weight, BnData.bias, bnWeight, bnBias, id_eq, map_sub, map_mul,
    Algebra.smul_def]
  ring

def run (c : Define K) (sem : Semantics K V) (file : H5File K) (layers : List LayerInfo)
    (v : Value V) : Value V :=
  layers.foldl (fun v l => layer c sem file l v) v

/-- The output vector of the model on an image. -/
def predict (c : Define K) (sem : Semantics K V) (file : H5File K) (layers : List LayerInfo)
    (t : Tensor3 V) : List V :=
  match run c sem file layers (.image t) with
  | .units u => u
  | .image _ => []

/-- Two semantics give a layer the same value. -/
def Semantics.AgreeOn (sem sem' : Semantics K V) : LayerInfo → Prop
  | .conv2D info => ∀ h w, windows sem.samePad info.padding h w info.kernelSize info.strides =
      windows sem'.samePad info.padding h w info.kernelSize info.strides
  | .averagePooling2D info => ∀ h w, windows sem.samePad info.padding h w info.poolSize info.strides =
      windows sem'.samePad info.padding h w info.poolSize info.strides
  | .activation _ activation => sem.activation activation = sem'.activation activation
  | .globalAveragePooling2D _ => sem.average = sem'.average
  | _ => True

theorem layer_congr {c : Define K} {sem sem' : Semantics K V} {file : H5File K} {l : LayerInfo}
    (h : sem.AgreeOn sem' l) (v : Value V) : layer c sem file l v = layer c sem' file l v := by
  cases l with
  | conv2D info =>
    cases v with
    | image t => simp only [layer, convImage, onWindows, h t.height t.width]
    | units u => rfl
  | averagePooling2D info =>
    cases v with
    | image t => simp only [layer, poolImage, onWindows, h t.height t.width]
    | units u => rfl
  | activation name activation => rw [layer, layer, h]
  | globalAveragePooling2D name =>
    cases v with
    | image t => rw [layer, layer, h]
    | units u => rfl
  | _ => cases v <;> rfl

theorem run_congr {c : Define K} {sem sem' : Semantics K V} {file : H5File K}
    {layers : List LayerInfo} (h : ∀ l ∈ layers, sem.AgreeOn sem' l) (v : Value V) :
    run c sem file layers v = run c sem' file layers v := by
  induction layers generalizing v with
  | nil => rfl
  | cons l layers ih =>
    simp only [run, List.foldl_cons, layer_congr (h l List.mem_cons_self)]
    exact ih (fun l' hl' => h l' (List.mem_cons_of_mem _ hl')) _

theorem predict_congr {c : Define K} {sem sem' : Semantics K V} {file : H5File K}
    {layers : List LayerInfo} (h : ∀ l ∈ layers, sem.AgreeOn sem' l) (t : Tensor3 V) :
    predict c sem file layers t = predict c sem' file layers t := by
  rw [predict, predict, run_congr h]

/-! ## Activations -/

/-- The polynomial of a swish table. -/
def swish (s : SwishCoeffs K) (x : V) : V :=
  s.a • x ^ 4 + s.b • x ^ 2 + s.c • x + algebraMap K V s.d

/-- Exact optimised coefficients give the polynomial without its leading coefficient. -/
theorem swish_exact {t : SwishCoeffs K} (ht : t.Exact) (x : V) :
    t.a • (x ^ 4 + t.b' • x ^ 2 + t.c' • x + algebraMap K V t.d') = swish t x := by
  have hb : t.a * t.b' = t.b := by rw [ht.b', mul_div_cancel₀ _ ht.ne_zero]
  have hc : t.a * t.c' = t.c := by rw [ht.c', mul_div_cancel₀ _ ht.ne_zero]
  have hd : t.a * t.d' = t.d := by rw [ht.d', mul_div_cancel₀ _ ht.ne_zero]
  rw [swish, smul_add, smul_add, smul_add, smul_smul, smul_smul, hb, hc, ← hd, map_mul,
    ← Algebra.smul_def]

/-- The functions the activation names stand for. -/
def activation (c : Define K) (name : String) (x : V) : V :=
  if name = squareName then x ^ 2
  else if name = swishRg4Deg4Name then swish c.swishRg4Deg4 x
  else if name = swishRg6Deg4Name then swish c.swishRg6Deg4 x
  else x

/-- The reference: the named polynomials, and means over all positions. -/
def Semantics.keras (V : Type) [CommRing V] [Algebra K V] (c : Define K) : Semantics K V where
  samePad := Keras.samePad
  activation := Keras.activation c
  average n := 1 / (n : K)

/-! ## Shapes of values -/

omit [CommRing V] in
theorem onWindows_eq {padding : String} {size stride : ℕ × ℕ} {t : Tensor3 V} {oh ow : ℕ}
    (hh : outSize padding t.height size.1 stride.1 = some oh)
    (hw : outSize padding t.width size.2 stride.2 = some ow) (pad : SamePad)
    (op : Windows → Tensor3 V → Tensor3 V) :
    ∃ win, windows pad padding t.height t.width size stride = some win ∧
      onWindows pad padding size stride op t = op win t ∧ win.vertical.out = oh ∧
      win.horizontal.out = ow := by
  obtain ⟨win, hwin, hv, hz⟩ := windows_of_outSize hh hw pad
  exact ⟨win, hwin, by rw [onWindows, hwin], hv, hz⟩

theorem outShape_conv2D {info : Conv2DInfo} {h w c : ℕ} {s : Shape}
    (hs : outShape (.conv2D info) (.image h w c) = some s) :
    ∃ oh ow, outSize info.padding h info.kernelSize.1 info.strides.1 = some oh ∧
      outSize info.padding w info.kernelSize.2 info.strides.2 = some ow ∧
      s = .image oh ow info.filters ∧ info.batchInputShape.getD (h, w, c) = (h, w, c) ∧
      0 < info.filters := by
  simp only [outShape] at hs
  split at hs
  · rename_i hcond
    simp only [Option.bind_eq_bind, Option.bind_eq_some_iff, Option.pure_def,
      Option.some.injEq] at hs
    obtain ⟨oh, hoh, ow, how, rfl⟩ := hs
    exact ⟨oh, ow, hoh, how, rfl, hcond.1, hcond.2⟩
  · cases hs

theorem outShape_averagePooling2D {info : AveragePooling2DInfo} {h w c : ℕ} {s : Shape}
    (hs : outShape (.averagePooling2D info) (.image h w c) = some s) :
    ∃ oh ow, outSize info.padding h info.poolSize.1 info.strides.1 = some oh ∧
      outSize info.padding w info.poolSize.2 info.strides.2 = some ow ∧ s = .image oh ow c := by
  simp only [outShape, Option.bind_eq_bind, Option.bind_eq_some_iff, Option.pure_def,
    Option.some.injEq] at hs
  obtain ⟨oh, hoh, ow, how, rfl⟩ := hs
  exact ⟨oh, ow, hoh, how, rfl⟩

theorem convImage_shape {info : Conv2DInfo} {t : Tensor3 V} {s : Shape}
    (hs : outShape (.conv2D info) (Value.image t).shape = some s) (pad : SamePad)
    (kernel : ℕ → ℕ → ℕ → ℕ → ℕ → K) (bias : ℕ → K) :
    (Value.image (convImage pad info kernel bias t)).shape = s := by
  obtain ⟨oh, ow, hoh, how, rfl, -, -⟩ := outShape_conv2D hs
  obtain ⟨win, -, heq, hv, hz⟩ := onWindows_eq hoh how pad
    fun win t => win.conv2D info.filters (kernel t.channels) bias t
  rw [convImage, heq, Value.shape, ← hv, ← hz]
  rfl

omit [CommRing V] in
theorem poolImage_shape {info : AveragePooling2DInfo} {t : Tensor3 V} {s : Shape}
    (hs : outShape (.averagePooling2D info) (Value.image t).shape = some s) (pad : SamePad)
    {op : Windows → Tensor3 V → Tensor3 V}
    (hop : ∀ win, (Value.image (op win t)).shape =
      .image win.vertical.out win.horizontal.out t.channels) :
    (Value.image (poolImage pad info op t)).shape = s := by
  obtain ⟨oh, ow, hoh, how, rfl⟩ := outShape_averagePooling2D hs
  obtain ⟨win, -, heq, hv, hz⟩ := onWindows_eq hoh how pad op
  rw [poolImage, heq, hop, hv, hz]

omit [CommRing V] in
@[simp] theorem shape_map (f : V → V) (v : Value V) : (v.map f).shape = v.shape := by
  cases v <;> simp [Value.map, Value.shape]

omit [CommRing V] in
@[simp] theorem shape_mapIdx (f : ℕ → V → V) (v : Value V) : (v.mapIdx f).shape = v.shape := by
  cases v <;> simp [Value.mapIdx, Value.shape, Tensor3.mapChannels]

@[simp] theorem length_dense (n : ℕ) (kernel : ℕ → ℕ → K) (bias : ℕ → K) (v : List V) :
    (dense n kernel bias v).length = n := by
  simp [dense]

@[simp] theorem length_channelSum (t : Tensor3 V) : (channelSum t).length = t.channels := by
  simp [channelSum]

theorem layer_shape {c : Define K} {sem : Semantics K V} {file : H5File K} {l : LayerInfo}
    {v : Value V} {s : Shape} (hs : outShape l v.shape = some s) :
    (layer c sem file l v).shape = s := by
  cases v with
  | image t =>
    cases l with
    | conv2D info => exact convImage_shape hs _ _ _
    | averagePooling2D info =>
      rw [layer]
      exact poolImage_shape hs sem.samePad fun _ => rfl
    | batchNormalization name => exact (shape_mapIdx _ _).trans (Option.some.inj hs)
    | flatten name => rw [← Option.some.inj hs, layer, Value.shape, Tensor3.length_toUnits]
    | dense info => cases hs
    | activation name activation => exact (shape_map _ _).trans (Option.some.inj hs)
    | globalAveragePooling2D name =>
      rw [← Option.some.inj hs, layer, Value.shape, length_scaleUnits, length_channelSum]
    | other className => cases hs
  | units u =>
    cases l with
    | batchNormalization name => exact (shape_mapIdx _ _).trans (Option.some.inj hs)
    | activation name activation => exact (shape_map _ _).trans (Option.some.inj hs)
    | dense info =>
      simp only [outShape, Value.shape] at hs
      split at hs
      · rw [← Option.some.inj hs, layer, Value.shape, length_dense]
      · cases hs
    | _ => cases hs

theorem run_shape {c : Define K} {sem : Semantics K V} {file : H5File K} {layers : List LayerInfo}
    {v : Value V} {s : Shape} (hs : outShapes layers v.shape = some s) :
    (run c sem file layers v).shape = s := by
  induction layers generalizing v with
  | nil => exact Option.some.inj hs
  | cons l layers ih =>
    obtain ⟨s1, hs1, hs⟩ := outShapes_cons.1 hs
    exact ih (show outShapes layers (layer c sem file l v).shape = some s by rw [layer_shape hs1, hs])

theorem run_append (c : Define K) (sem : Semantics K V) (file : H5File K)
    (layers layers' : List LayerInfo) (v : Value V) :
    run c sem file (layers ++ layers') v = run c sem file layers' (run c sem file layers v) :=
  List.foldl_append

/-- A model that ends with a vector has one as its value. -/
theorem run_image {c : Define K} {sem : Semantics K V} {file : H5File K} {layers : List LayerInfo}
    {t : Tensor3 V} {n : ℕ} (hs : outShapes layers (Value.image t).shape = some (.units n)) :
    run c sem file layers (.image t) = .units (predict c sem file layers t) := by
  have hshape : (run c sem file layers (.image t)).shape = .units n := run_shape hs
  rw [predict]
  cases hv : run c sem file layers (.image t) with
  | image t' =>
    rw [hv] at hshape
    cases hshape
  | units u => rfl

/-! ## Positive shapes -/

theorem outShape_conv2D_pos {info : Conv2DInfo} {h w c : ℕ} {s : Shape}
    (hs : outShape (.conv2D info) (.image h w c) = some s) : 0 < h ∧ 0 < w := by
  obtain ⟨oh, ow, hoh, how, -⟩ := outShape_conv2D hs
  exact ⟨(outSize_pos hoh).1, (outSize_pos how).1⟩

/-- A pooling has a window. -/
theorem poolCells_pos {info : AveragePooling2DInfo} {s s' : Shape}
    (hs : outShape (.averagePooling2D info) s = some s') : 0 < info.poolSize.1 * info.poolSize.2 := by
  cases s with
  | units n => cases hs
  | image h w c =>
    obtain ⟨oh, ow, hoh, how, -⟩ := outShape_averagePooling2D hs
    exact Nat.mul_pos (outSize_pos hoh).2.1 (outSize_pos how).2.1

theorem outShape_positive {l : LayerInfo} {s s' : Shape} (hpos : s.Positive)
    (hs : outShape l s = some s') : s'.Positive := by
  cases s with
  | image h w c =>
    cases l with
    | conv2D info =>
      obtain ⟨oh, ow, hoh, how, rfl, -, hf⟩ := outShape_conv2D hs
      exact ⟨(outSize_pos hoh).2.2.2, (outSize_pos how).2.2.2, hf⟩
    | averagePooling2D info =>
      obtain ⟨oh, ow, hoh, how, rfl⟩ := outShape_averagePooling2D hs
      exact ⟨(outSize_pos hoh).2.2.2, (outSize_pos how).2.2.2, hpos.2.2⟩
    | batchNormalization name => cases hs; exact hpos
    | flatten name =>
      cases hs
      exact Nat.mul_pos (Nat.mul_pos hpos.1 hpos.2.1) hpos.2.2
    | dense info => cases hs
    | activation name activation => cases hs; exact hpos
    | globalAveragePooling2D name => cases hs; exact hpos.2.2
    | other className => cases hs
  | units n =>
    cases l with
    | batchNormalization name => cases hs; exact hpos
    | activation name activation => cases hs; exact hpos
    | dense info =>
      simp only [outShape] at hs
      split at hs
      · cases hs; assumption
      · cases hs
    | _ => cases hs

theorem outShapes_positive {layers : List LayerInfo} {s s' : Shape} (hpos : s.Positive)
    (hs : outShapes layers s = some s') : s'.Positive := by
  induction layers generalizing s with
  | nil => exact Option.some.inj hs ▸ hpos
  | cons l layers ih =>
    obtain ⟨s1, hs1, hs⟩ := outShapes_cons.1 hs
    exact ih (outShape_positive hpos hs1) hs

theorem IsModel.positive {layers : List LayerInfo} {h w n units : ℕ}
    (hm : IsModel layers h w n units) : (Shape.image h w n).Positive := by
  obtain ⟨info, rest, rfl, -⟩ := hm.first
  obtain ⟨s, hs, -⟩ := Option.bind_eq_some_iff.1 hm.shapes
  obtain ⟨hh, hw⟩ := outShape_conv2D_pos hs
  exact ⟨hh, hw, hm.channels⟩

end Keras
