import PPCNN.Keras.Model
import PPCNN.Cnn.Structure
import Mathlib.Data.Rat.Cast.Defs

/-!
# Sequential models with all their options

The layers of a model with every option of their configuration that the function of the model
depends on, where `LayerInfo` holds the ones the loader reads: what Keras computes for them
(`LayerConfig.value`), the structure file it writes (`Describes`) and the weights file
(`Matching`).
-/

set_option autoImplicit false

namespace Keras

open Cnn

variable {K V : Type}

/-! ## Configurations -/

inductive DataFormat where
  | channelsLast | channelsFirst
  deriving DecidableEq

structure Conv2DConfig where
  name : String
  filters : ℕ
  kernelSize : ℕ × ℕ
  strides : ℕ × ℕ
  padding : String
  dataFormat : DataFormat
  dilationRate : ℕ × ℕ
  activation : String
  useBias : Bool

structure AveragePooling2DConfig where
  name : String
  poolSize : ℕ × ℕ
  strides : ℕ × ℕ
  padding : String
  dataFormat : DataFormat

structure BatchNormalizationConfig where
  name : String
  axis : ℤ
  epsilon : ℚ
  center : Bool
  scale : Bool

structure DenseConfig where
  name : String
  units : ℕ
  activation : String
  useBias : Bool

inductive LayerConfig where
  | conv2D (config : Conv2DConfig)
  | averagePooling2D (config : AveragePooling2DConfig)
  | batchNormalization (config : BatchNormalizationConfig)
  | flatten (name : String)
  | dense (config : DenseConfig)
  | activation (name f : String)
  | globalAveragePooling2D (name : String) (dataFormat : DataFormat)

/-- A `Sequential` model. Keras writes the shape of the input into the first layer. -/
structure Sequential where
  batchInputShape : ℕ × ℕ × ℕ
  layers : List LayerConfig

/-! ## What the loader reads -/

def Conv2DConfig.info (config : Conv2DConfig) (batchInputShape : Option (ℕ × ℕ × ℕ)) : Conv2DInfo where
  name := config.name
  batchInputShape := batchInputShape
  filters := config.filters
  kernelSize := config.kernelSize
  strides := config.strides
  padding := config.padding
  activation := config.activation

def AveragePooling2DConfig.info (config : AveragePooling2DConfig) : AveragePooling2DInfo :=
  ⟨config.name, config.poolSize, config.strides, config.padding⟩

def DenseConfig.info (config : DenseConfig) : DenseInfo :=
  ⟨config.name, config.units, config.activation⟩

def LayerConfig.info (batchInputShape : Option (ℕ × ℕ × ℕ)) : LayerConfig → LayerInfo
  | .conv2D config => .conv2D (config.info batchInputShape)
  | .averagePooling2D config => .averagePooling2D config.info
  | .batchNormalization config => .batchNormalization config.name
  | .flatten name => .flatten name
  | .dense config => .dense config.info
  | .activation name f => .activation name f
  | .globalAveragePooling2D name _ => .globalAveragePooling2D name

/-- The layers the loader reads, the first one with the shape of the input. -/
def layerInfos (batchInputShape : Option (ℕ × ℕ × ℕ)) : List LayerConfig → List LayerInfo
  | [] => []
  | l :: layers => l.info batchInputShape :: layers.map (LayerConfig.info none)

/-- The numbers that the loader reads of a layer. -/
def LayerConfig.sizes : LayerConfig → List ℕ
  | .conv2D config => [config.filters, config.kernelSize.1, config.kernelSize.2, config.strides.1,
    config.strides.2]
  | .averagePooling2D config => [config.poolSize.1, config.poolSize.2, config.strides.1,
    config.strides.2]
  | .dense config => [config.units]
  | _ => []

/-- The numbers that the loader reads of a model are values of `size_t`. -/
structure Sequential.SizesFit (m : Sequential) : Prop where
  height : m.batchInputShape.1 < 2 ^ 64
  width : m.batchInputShape.2.1 < 2 ^ 64
  channels : m.batchInputShape.2.2 < 2 ^ 64
  layers : ∀ l ∈ m.layers, ∀ k ∈ l.sizes, k < 2 ^ 64

/-! ## Shapes -/

/-- The axes of an image, in the order height, width, channels. -/
def DataFormat.toLast : DataFormat → Shape → Shape
  | .channelsFirst, .image c h w => .image h w c
  | _, s => s

def DataFormat.ofLast : DataFormat → Shape → Shape
  | .channelsFirst, .image h w c => .image c h w
  | _, s => s

/-- The extent of a window whose taps are `rate` apart. -/
def dilated (size rate : ℕ) : ℕ := size + (size - 1) * (rate - 1)

/-- The convolution with the window its taps spread over. -/
def Conv2DConfig.dilatedInfo (config : Conv2DConfig) : Conv2DInfo :=
  { config.info none with
    kernelSize := (dilated config.kernelSize.1 config.dilationRate.1,
      dilated config.kernelSize.2 config.dilationRate.2) }

/-- The extent of an axis, counted from the batch or from the end. -/
def Shape.axisDim : Shape → ℤ → Option ℕ
  | .image h w c, axis =>
    if axis = 1 ∨ axis = -3 then some h
    else if axis = 2 ∨ axis = -2 then some w
    else if axis = 3 ∨ axis = -1 then some c
    else none
  | .units n, axis => if axis = 1 ∨ axis = -1 then some n else none

/-- The shape of a layer's output, `none` if the layer is rejected. -/
def LayerConfig.outShape : LayerConfig → Shape → Option Shape
  | .conv2D config, s =>
    (Keras.outShape (.conv2D config.dilatedInfo) (config.dataFormat.toLast s)).map
      config.dataFormat.ofLast
  | .averagePooling2D config, s =>
    (Keras.outShape (.averagePooling2D config.info) (config.dataFormat.toLast s)).map
      config.dataFormat.ofLast
  | .batchNormalization config, s => (s.axisDim config.axis).map fun _ => s
  | .globalAveragePooling2D name dataFormat, s =>
    Keras.outShape (.globalAveragePooling2D name) (dataFormat.toLast s)
  | l, s => Keras.outShape (l.info none) s

def configShapes (layers : List LayerConfig) (s : Shape) : Option Shape :=
  layers.foldlM (fun s l => l.outShape s) s

/-! ## Values -/

def DataFormat.imageToLast : DataFormat → Tensor3 V → Tensor3 V
  | .channelsLast, t => t
  | .channelsFirst, t => ⟨t.width, t.channels, t.height, fun h w c => t.cell c h w⟩

def DataFormat.imageOfLast : DataFormat → Tensor3 V → Tensor3 V
  | .channelsLast, t => t
  | .channelsFirst, t => ⟨t.channels, t.height, t.width, fun c h w => t.cell h w c⟩

variable [Field K] [CommRing V] [Algebra K V]

/-- A function of the vector along the last axis. -/
def mapLast (f : List V → List V) : Value V → Value V
  | .image t => .image ⟨t.height, t.width, t.channels, fun i j k =>
      (f (List.ofFn fun k => t.cell i j k)).getD k 0⟩
  | .units u => .units (f u)

def linearName : String := "linear"

/-- The function of an activation name: the identity, the polynomials, and `other` ones. -/
def activationFn (c : Define K) (other : String → List V → List V) (name : String) : List V → List V :=
  if name = linearName then id
  else if name = squareName ∨ name = swishRg4Deg4Name ∨ name = swishRg6Deg4Name then
    List.map (activation c name)
  else other name

/-- A kernel with its taps `rate` apart and zeros between them. -/
def dilateKernel (rate : ℕ × ℕ) (kernel : ℕ → ℕ → ℕ → ℕ → ℕ → K) : ℕ → ℕ → ℕ → ℕ → ℕ → K :=
  fun n i j ic oc =>
    if rate.1 ∣ i ∧ rate.2 ∣ j then kernel n (i / rate.1) (j / rate.2) ic oc else 0

/-- The bias of a layer, if it has one. -/
def biasOf (file : H5File K) (name : String) (useBias : Bool) : ℕ → K :=
  if useBias then data file (groupPath name name) biasKey else 0

/-- A function for each index of an axis. -/
def Value.mapAxis (axis : ℤ) (f : ℕ → V → V) : Value V → Value V
  | .image t =>
    if axis = 1 ∨ axis = -3 then
      .image ⟨t.height, t.width, t.channels, fun i j k => f i (t.cell i j k)⟩
    else if axis = 2 ∨ axis = -2 then
      .image ⟨t.height, t.width, t.channels, fun i j k => f j (t.cell i j k)⟩
    else .image (t.mapChannels f)
  | .units u => .units (u.mapIdx f)

/-- The data of a batch normalisation, without the parts that are switched off. -/
def BatchNormalizationConfig.data (config : BatchNormalizationConfig) (file : H5File K) : BnData K :=
  let bn := bnData file (groupPath config.name config.name)
  { bn with
    beta := if config.center then bn.beta else 0
    gamma := if config.scale then bn.gamma else 1 }

variable (c : Define K) (other : String → List V → List V) (file : H5File K)

/-- The value of a layer; outside `outShape` the input is left as it is. -/
def LayerConfig.value : LayerConfig → Value V → Value V
  | .conv2D config, .image t =>
    mapLast (activationFn c other config.activation) (.image (config.dataFormat.imageOfLast
      (convImage samePad config.dilatedInfo
        (dilateKernel config.dilationRate
          (convKernel file (groupPath config.name config.name) (config.info none)))
        (biasOf file config.name config.useBias) (config.dataFormat.imageToLast t))))
  | .averagePooling2D config, .image t =>
    .image (config.dataFormat.imageOfLast
      (poolImage samePad config.info (Windows.averagePool (K := K)) (config.dataFormat.imageToLast t)))
  | .batchNormalization config, v =>
    v.mapAxis config.axis
      (batchNorm { c with bnEpsilon := (config.epsilon : K) } (config.data file))
  | .flatten _, .image t => .units t.toUnits
  | .dense config, .units u =>
    mapLast (activationFn c other config.activation) (.units (Keras.dense config.units
      (denseKernel file (groupPath config.name config.name) config.info)
      (biasOf file config.name config.useBias) u))
  | .activation _ f, v => mapLast (activationFn c other f) v
  | .globalAveragePooling2D _ dataFormat, .image t =>
    let t := dataFormat.imageToLast t
    .units (scaleUnits (1 / ((t.height * t.width : ℕ) : K)) (channelSum t))
  | _, v => v

omit [Field K] [Algebra K V] in
theorem mapLast_map (f : V → V) (v : Value V) : mapLast (List.map f) v = v.map f := by
  cases v with
  | image t =>
    refine congrArg Value.image (congrArg (Tensor3.mk _ _ _) ?_)
    funext i j k
    simp
  | units u => rfl

theorem mapLast_linear (v : Value V) : mapLast (activationFn c other linearName) v = v := by
  have hid : activationFn c other linearName = List.map fun x => x :=
    (if_pos rfl).trans (funext fun u => (List.map_id u).symm)
  rw [hid, mapLast_map]
  cases v with
  | image t => rfl
  | units u => exact congrArg Value.units (List.map_id u)

omit [CommRing V] [Algebra K V] in
theorem dilateKernel_one (kernel : ℕ → ℕ → ℕ → ℕ → ℕ → K) : dilateKernel (1, 1) kernel = kernel := by
  funext n i j ic oc
  simp [dilateKernel]

/-- The output vector of the layers on an image. -/
def predictConfig (layers : List LayerConfig) (t : Tensor3 V) : List V :=
  match layers.foldl (fun v l => l.value c other file v) (.image t) with
  | .units u => u
  | .image _ => []

/-- A softmax on the last dense layer is left out. -/
def dropSoftmax : List LayerConfig → List LayerConfig
  | [] => []
  | .dense config :: layers =>
    if layers.all fun l => match l with
      | .dense _ => false
      | _ => true then
      .dense { config with activation :=
        if config.activation = "softmax" then linearName else config.activation } :: layers
    else .dense config :: dropSoftmax layers
  | l :: layers => l :: dropSoftmax layers

/-! ## The weights file -/

/-- Keras stores a data set, or does not have it. -/
def Stores (path key : String) (n : ℕ) (present : Bool) : Prop :=
  if present then HasData file path key n else ∀ group, file path = some group → group key = none

def LayerConfig.Weights : LayerConfig → Shape → Prop
  | .conv2D config, s => ∀ h w n, config.dataFormat.toLast s = .image h w n →
    Stores file (groupPath config.name config.name) kernelKey
      (config.kernelSize.1 * config.kernelSize.2 * n * config.filters) true ∧
    Stores file (groupPath config.name config.name) biasKey config.filters config.useBias
  | .batchNormalization config, s => ∀ n, s.axisDim config.axis = some n →
    Stores file (groupPath config.name config.name) betaKey n config.center ∧
    Stores file (groupPath config.name config.name) gammaKey n config.scale ∧
    Stores file (groupPath config.name config.name) movingMeanKey n true ∧
    Stores file (groupPath config.name config.name) movingVarianceKey n true
  | .dense config, s => ∀ n, s = .units n →
    Stores file (groupPath config.name config.name) kernelKey (n * config.units) true ∧
    Stores file (groupPath config.name config.name) biasKey config.units config.useBias
  | _, _ => True

/-- The weights file belongs to the layers. -/
def Matching : List LayerConfig → Shape → Prop
  | [], _ => True
  | l :: layers, s => l.Weights file s ∧ ∀ s', l.outShape s = some s' → Matching layers s'

variable {file}

omit [Field K] in
theorem Matching.cons {l : LayerConfig} {layers : List LayerConfig} {s : Shape} (s' : Shape)
    (hs : l.outShape s = some s') (hw : l.Weights file s) (h : Matching file layers s') :
    Matching file (l :: layers) s := by
  refine ⟨hw, fun s'' hs'' => ?_⟩
  obtain rfl := Option.some.inj (hs.symm.trans hs'')
  exact h

/-! ## The structure file -/

def DataFormat.text : DataFormat → String
  | .channelsLast => "channels_last"
  | .channelsFirst => "channels_first"

def jsonSize (n : ℕ) : JsonValue := .number n

def jsonPair (p : ℕ × ℕ) : JsonValue := .array [jsonSize p.1, jsonSize p.2]

def LayerConfig.className : LayerConfig → String
  | .conv2D _ => conv2DClassName
  | .averagePooling2D _ => averagePooling2DClassName
  | .batchNormalization _ => batchNormalizationClassName
  | .flatten _ => flattenClassName
  | .dense _ => denseClassName
  | .activation _ _ => activationClassName
  | .globalAveragePooling2D _ _ => globalAveragePooling2DClassName

/-- The entries of the `config` object of a layer, those without influence on the function aside. -/
def LayerConfig.entries : LayerConfig → JsonObject
  | .conv2D config => [("name", .string config.name), ("filters", jsonSize config.filters),
    ("kernel_size", jsonPair config.kernelSize), ("strides", jsonPair config.strides),
    ("padding", .string config.padding), ("data_format", .string config.dataFormat.text),
    ("dilation_rate", jsonPair config.dilationRate), ("activation", .string config.activation),
    ("use_bias", .boolean config.useBias)]
  | .averagePooling2D config => [("name", .string config.name),
    ("pool_size", jsonPair config.poolSize), ("padding", .string config.padding),
    ("strides", jsonPair config.strides), ("data_format", .string config.dataFormat.text)]
  | .batchNormalization config => [("name", .string config.name), ("axis", .number config.axis),
    ("epsilon", .number config.epsilon), ("center", .boolean config.center),
    ("scale", .boolean config.scale)]
  | .flatten name => [("name", .string name)]
  | .dense config => [("name", .string config.name), ("units", jsonSize config.units),
    ("activation", .string config.activation), ("use_bias", .boolean config.useBias)]
  | .activation name f => [("name", .string name), ("activation", .string f)]
  | .globalAveragePooling2D name dataFormat => [("name", .string name),
    ("data_format", .string dataFormat.text)]

/-- `batch_input_shape`, with the size of the batch left open. -/
def jsonShape : Option (ℕ × ℕ × ℕ) → JsonValue
  | some (h, w, n) => .array [.null, jsonSize h, jsonSize w, jsonSize n]
  | none => .null

/-- The element is written for the layer; it may have other entries. -/
def Describes (batchInputShape : Option (ℕ × ℕ × ℕ)) (v : JsonValue) (l : LayerConfig) : Prop :=
  ∃ layer config : JsonObject, v = .object layer ∧
    layer.field "class_name" = .string l.className ∧ layer.field "config" = .object config ∧
    (∀ entry ∈ l.entries, config.field entry.1 = entry.2) ∧
    config.field "batch_input_shape" = jsonShape batchInputShape

def DescribesLayers (batchInputShape : Option (ℕ × ℕ × ℕ)) : List JsonValue → List LayerConfig → Prop
  | v :: values, l :: layers =>
    Describes batchInputShape v l ∧ List.Forall₂ (Describes none) values layers
  | [], [] => True
  | _, _ => False

/-- The structure file is written for the model. -/
def DescribesModel (json : JsonValue) (m : Sequential) : Prop :=
  ∃ (o : JsonObject) (values : List JsonValue), json = .object o ∧ o.field "config" = .array values ∧
    DescribesLayers (some m.batchInputShape) values m.layers

/-- The element Keras writes for a layer. -/
def LayerConfig.json (batchInputShape : Option (ℕ × ℕ × ℕ)) (l : LayerConfig) : JsonValue :=
  .object [("class_name", .string l.className),
    ("config", .object (l.entries ++ [("batch_input_shape", jsonShape batchInputShape)]))]

/-- The structure file Keras writes for a model. -/
def Sequential.json (m : Sequential) : JsonValue :=
  .object [("class_name", .string "Sequential"), ("config", .array (match m.layers with
    | [] => []
    | l :: layers => l.json (some m.batchInputShape) :: layers.map (LayerConfig.json none)))]

theorem describes_json (batchInputShape : Option (ℕ × ℕ × ℕ)) (l : LayerConfig) :
    Describes batchInputShape (l.json batchInputShape) l := by
  refine ⟨_, _, rfl, rfl, rfl, ?_, ?_⟩
  · cases l <;> simp [LayerConfig.entries, JsonObject.field, List.lookup_cons]
  · cases l <;> rfl

theorem describesModel_json (m : Sequential) : DescribesModel m.json m := by
  refine ⟨_, _, rfl, rfl, ?_⟩
  cases m.layers with
  | nil => trivial
  | cons l layers =>
    refine ⟨describes_json _ l, ?_⟩
    rw [List.forall₂_map_left_iff, List.forall₂_same]
    exact fun l _ => describes_json none l

end Keras
