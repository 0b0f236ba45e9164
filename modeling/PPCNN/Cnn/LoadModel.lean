import PPCNN.Cnn.Layers

/-!
# Loading a model (`load_model.cpp`)

The structure file is a list of layers; a `LayerInfo` holds the fields a builder reads from its
`config` object. The weights file maps group paths to data sets. The builders share the four
file-scope variables `next_layer_in_*` and the option object; both are threaded through as
`BuildState`, and a builder that throws leaves them as they were (no builder writes a file-scope
variable before its last operation that can throw).
-/

set_option autoImplicit false

namespace Cnn

open Lib

/-! ## The structure file -/

structure Conv2DInfo where
  name : String
  /-- `none`: absent or not numeric, so reading it throws and the builder falls back. -/
  batchInputShape : Option (ℕ × ℕ × ℕ)
  filters : ℕ
  kernelSize : ℕ × ℕ
  strides : ℕ × ℕ
  padding : String
  activation : String
  deriving DecidableEq

structure AveragePooling2DInfo where
  name : String
  poolSize : ℕ × ℕ
  strides : ℕ × ℕ
  padding : String
  deriving DecidableEq

structure DenseInfo where
  name : String
  units : ℕ
  activation : String
  deriving DecidableEq

/-- An element of the `config` array, by its `class_name`. -/
inductive LayerInfo where
  | conv2D (info : Conv2DInfo)
  | averagePooling2D (info : AveragePooling2DInfo)
  | batchNormalization (name : String)
  | flatten (name : String)
  | dense (info : DenseInfo)
  | activation (name activation : String)
  | globalAveragePooling2D (name : String)
  /-- a class that is not in `BUILD_LAYER_MAP` -/
  | other (className : String)
  deriving DecidableEq

/-! ## The weights file -/

/-- The data sets of a group, by key, each as its row-major contents. -/
abbrev DataSets (K : Type) := String → Option (List K)

/-- The groups of a file, by path. -/
abbrev H5File (K : Type) := String → Option (DataSets K)

def kernelKey : String := "kernel:0"
def biasKey : String := "bias:0"
def betaKey : String := "beta:0"
def gammaKey : String := "gamma:0"
def movingMeanKey : String := "moving_mean:0"
def movingVarianceKey : String := "moving_variance:0"

variable {K Pt Ct : Type}

def H5File.openGroup (file : H5File K) (path : String) : Except Error (DataSets K) :=
  match file path with
  | some group => .ok group
  | none => .error (.h5 path)

def DataSets.openDataSet (group : DataSets K) (key : String) : Except Error (List K) :=
  match group key with
  | some ds => .ok ds
  | none => .error (.h5 key)

theorem H5File.openGroup_eq_ok {file : H5File K} {path : String} {group : DataSets K} :
    file.openGroup path = .ok group ↔ file path = some group := by
  unfold openGroup
  cases file path <;> simp

theorem DataSets.openDataSet_eq_ok {group : DataSets K} {key : String} {ds : List K} :
    group.openDataSet key = .ok ds ↔ group key = some ds := by
  unfold openDataSet
  cases group key <;> simp

/-- `ds.read(buffer)` into a zero-initialised buffer of `n` elements. -/
def readBuffer [Zero K] (ds : List K) (n : ℕ) : Except Error (ℕ → K) :=
  if ds.length ≤ n then .ok fun i => ds.getD i 0 else .error .bufferOverflow

theorem readBuffer_eq_ok [Zero K] {ds : List K} {n : ℕ} {f : ℕ → K} :
    readBuffer ds n = .ok f ↔ ds.length ≤ n ∧ f = fun i => ds.getD i 0 := by
  unfold readBuffer
  by_cases h : ds.length ≤ n
  · rw [if_pos h]
    simp [h, eq_comm]
  · rw [if_neg h]
    simp [h]

/-- The path of the group of a layer. -/
def groupPath (outer inner : String) : String := "/" ++ outer ++ "/" ++ inner

/-! ## Builders -/

/-- The four file-scope variables `next_layer_in_*`. -/
structure NextLayer where
  inHeight : ℕ
  inWidth : ℕ
  inChannels : ℕ
  inUnits : ℕ
  deriving DecidableEq, Repr

/-- Their values when the process starts. -/
def NextLayer.fresh : NextLayer := ⟨0, 0, 0, 0⟩

structure BuildState (K : Type) where
  next : NextLayer
  option : OptOption K

inductive Layer (Pt : Type) where
  | conv2D (l : Conv2D Pt)
  | averagePooling2D (l : AveragePooling2D Pt)
  | batchNormalization (l : BatchNormalization Pt)
  | flatten (l : Flatten)
  | dense (l : Dense Pt)
  | activation (l : Activation Pt)
  | globalAveragePooling2D (l : GlobalAveragePooling2D)

/-- What the builders are compiled and run with. -/
structure Env (K Pt Ct : Type) where
  ev : Evaluator K Pt Ct
  arith : IntArith
  define : Define K

/-- `batch_input_shape`, or else the shape the previous builder left. -/
def Conv2DInfo.inShape (info : Conv2DInfo) (next : NextLayer) : ℕ × ℕ × ℕ :=
  info.batchInputShape.getD (next.inHeight, next.inWidth, next.inChannels)

/-- The offset of `filters[fh][fw][ic][fs]` in the buffer. -/
def kernelIndex (filterWidth inChannels filterSize fh fw ic fs : ℕ) : ℕ :=
  ((fh * filterWidth + fw) * inChannels + ic) * filterSize + fs

variable [Field K] [LinearOrder K] (E : Env K Pt Ct) (file : H5File K)

/-- `roundValue`. -/
def roundValue (c : Define K) (value : K) : K :=
  let sign := if value ≠ 0 then value / |value| else 1
  c.epsilon * sign

/-- The value that is encoded for a folded weight. -/
def clampWeight (c : Define K) (weight : K) : K :=
  if |weight| < c.epsilon then roundValue c weight else weight

/-- `weight = gamma / sqrt(moving_variance + BN_EPSILON)`. -/
def bnWeight (float : K → K) (c : Define K) (gamma movingVariance : K) : K :=
  float (gamma / c.sqrt (float (movingVariance + c.bnEpsilon)))

/-- `bias = beta - (weight * moving_mean)`. -/
def bnBias (float : K → K) (weight beta movingMean : K) : K := float (beta - float (weight * movingMean))

/-- The four data sets of a batch normalisation, as read into buffers of `dim` elements. -/
structure BnData (K : Type) where
  beta : ℕ → K
  gamma : ℕ → K
  movingMean : ℕ → K
  movingVariance : ℕ → K

/-- Opens the data sets, then reads them. -/
def BnData.read (group : DataSets K) (dim : ℕ) : Except Error (BnData K) := do
  let betaDs ← group.openDataSet betaKey
  let gammaDs ← group.openDataSet gammaKey
  let movingMeanDs ← group.openDataSet movingMeanKey
  let movingVarianceDs ← group.openDataSet movingVarianceKey
  return {
    beta := ← readBuffer betaDs dim
    gamma := ← readBuffer gammaDs dim
    movingMean := ← readBuffer movingMeanDs dim
    movingVariance := ← readBuffer movingVarianceDs dim }

def BnData.weight (float : K → K) (c : Define K) (bn : BnData K) (i : ℕ) : K :=
  bnWeight float c (bn.gamma i) (bn.movingVariance i)

def BnData.bias (float : K → K) (c : Define K) (bn : BnData K) (i : ℕ) : K :=
  bnBias float (bn.weight float c i) (bn.beta i) (bn.movingMean i)

def buildConv2D (info : Conv2DInfo) (st : BuildState K) :
    Except Error (Layer Pt × BuildState K) := do
  let (inHeight, inWidth, inChannels) := info.inShape st.next
  let filterSize := info.filters
  let (filterHeight, filterWidth) := info.kernelSize
  let (strideHeight, strideWidth) := info.strides
  let group ← file.openGroup (groupPath info.name info.name)
  let kernelDs ← group.openDataSet kernelKey
  let biasDs ← group.openDataSet biasKey
  let filters ← readBuffer kernelDs (filterHeight * filterWidth * inChannels * filterSize)
  let biases ← readBuffer biasDs filterSize
  let (factor, option) := st.option.takeFolding
  let foldingValue := E.ev.float factor
  let plainFilters ← seqFin fun fh : Fin filterHeight => seqFin fun fw : Fin filterWidth =>
    seqFin fun ic : Fin inChannels => seqFin fun fs : Fin filterSize =>
      let weight := E.ev.float
        (foldingValue * filters (kernelIndex filterWidth inChannels filterSize fh fw ic fs))
      E.ev.encodeAt option.consumedLevel (clampWeight E.define weight)
  let plainBiases ← seqFin fun fs : Fin filterSize =>
    E.ev.encodeAt (option.consumedLevel + 1) (biases fs)
  let (conv2d, option) ← Conv2D.new E.arith info.name inHeight inWidth inChannels filterSize
    filterHeight filterWidth strideHeight strideWidth info.padding info.activation
    plainFilters plainBiases option
  return (.conv2D conv2d,
    { next := { st.next with
        inHeight := conv2d.outHeight, inWidth := conv2d.outWidth
        inChannels := conv2d.outChannels }
      option })

def buildConv2DFusedBN (info : Conv2DInfo) (bnName : String) (st : BuildState K) :
    Except Error (Layer Pt × BuildState K) := do
  let (inHeight, inWidth, inChannels) := info.inShape st.next
  let filterSize := info.filters
  let (filterHeight, filterWidth) := info.kernelSize
  let (strideHeight, strideWidth) := info.strides
  let layerName := info.name ++ "-fused-with-" ++ bnName
  let conv2dGroup ← file.openGroup (groupPath info.name info.name)
  let bnGroup ← file.openGroup (groupPath bnName bnName)
  let kernelDs ← conv2dGroup.openDataSet kernelKey
  let biasDs ← conv2dGroup.openDataSet biasKey
  let filters ← readBuffer kernelDs (filterHeight * filterWidth * inChannels * filterSize)
  let biases ← readBuffer biasDs filterSize
  let bn ← BnData.read bnGroup filterSize
  let plainBiases ← seqFin fun fs : Fin filterSize =>
    E.ev.encodeAt (st.option.consumedLevel + 1)
      (E.ev.float (E.ev.float (biases fs * bn.weight E.ev.float E.define fs) +
        bn.bias E.ev.float E.define fs))
  let (factor, option) := st.option.takeFolding
  let foldingValue := E.ev.float factor
  let plainFilters ← seqFin fun fh : Fin filterHeight => seqFin fun fw : Fin filterWidth =>
    seqFin fun ic : Fin inChannels => seqFin fun fs : Fin filterSize =>
      let weight := E.ev.float (E.ev.float
        (foldingValue * filters (kernelIndex filterWidth inChannels filterSize fh fw ic fs)) *
          bn.weight E.ev.float E.define fs)
      E.ev.encodeAt option.consumedLevel (clampWeight E.define weight)
  let (conv2d, option) ← Conv2D.new E.arith layerName inHeight inWidth inChannels filterSize
    filterHeight filterWidth strideHeight strideWidth info.padding info.activation
    plainFilters plainBiases option
  return (.conv2D conv2d,
    { next := { st.next with
        inHeight := conv2d.outHeight, inWidth := conv2d.outWidth
        inChannels := conv2d.outChannels }
      option })

/-- The divisor of an average pooling: parked in the option, or encoded together with a pending
coefficient, or encoded alone. -/
def poolMulFactor (info : AveragePooling2DInfo) (option : OptOption K) :
    Except Error (Option Pt × OptOption K) :=
  let (poolHeight, poolWidth) := info.poolSize
  if option.enableOptimizePooling then
    .ok (none, { option with
      currentPoolingMulFactor := E.ev.float (1 / (poolHeight * poolWidth : ℕ))
      shouldMultiplyPool := true })
  else if option.enableOptimizeActivation && option.shouldMultiplyCoeff then do
    let p ← E.ev.encodeAt option.consumedLevel
      (E.ev.float (option.highestDegCoeff / E.ev.float (poolHeight * poolWidth : ℕ)))
    return (some p, { option with shouldMultiplyCoeff := false })
  else do
    let p ← E.ev.encodeAt option.consumedLevel (1 / (poolHeight * poolWidth : ℕ))
    return (some p, option)

def buildAveragePooling2D (info : AveragePooling2DInfo) (st : BuildState K) :
    Except Error (Layer Pt × BuildState K) := do
  let (poolHeight, poolWidth) := info.poolSize
  let (strideHeight, strideWidth) := info.strides
  let (plainMulFactor, option) ← poolMulFactor E info st.option
  let (pooling, option) ← AveragePooling2D.new E.arith info.name st.next.inHeight st.next.inWidth
    st.next.inChannels poolHeight poolWidth strideHeight strideWidth info.padding plainMulFactor
    option
  return (.averagePooling2D pooling,
    { next := { st.next with
        inHeight := pooling.outHeight, inWidth := pooling.outWidth
        inChannels := pooling.outChannels }
      option })

/-- The dimension `buildBatchNormalization` reads: units if there are any, else channels. -/
def NextLayer.bnDim (next : NextLayer) : ℕ :=
  if next.inUnits ≠ 0 then next.inUnits else next.inChannels

def buildBatchNormalization (name : String) (st : BuildState K) :
    Except Error (Layer Pt × BuildState K) := do
  let group ← file.openGroup (groupPath name name)
  let dim := st.next.bnDim
  let bn ← BnData.read group dim
  let lv := st.option.consumedLevel
  let plainWeights ← seqFin fun i : Fin dim => E.ev.encodeAt lv (bn.weight E.ev.float E.define i)
  let plainBiases ← seqFin fun i : Fin dim =>
    E.ev.encodeAt (lv + 1) (bn.bias E.ev.float E.define i)
  let (l, option) :=
    BatchNormalization.new name (List.ofFn plainWeights) (List.ofFn plainBiases) st.option
  return (.batchNormalization l, { st with option })

def buildFlatten (name : String) (st : BuildState K) :
    Except Error (Layer Pt × BuildState K) :=
  let next := { st.next with
    inUnits := st.next.inHeight * st.next.inWidth * st.next.inChannels }
  .ok (.flatten ⟨name, next.inHeight, next.inWidth, next.inChannels, next.inUnits⟩,
    { st with next })

def buildDense (info : DenseInfo) (st : BuildState K) :
    Except Error (Layer Pt × BuildState K) := do
  let inUnits := st.next.inUnits
  let outUnits := info.units
  let group ← file.openGroup (groupPath info.name info.name)
  let kernelDs ← group.openDataSet kernelKey
  let biasDs ← group.openDataSet biasKey
  let weights ← readBuffer kernelDs (inUnits * outUnits)
  let biases ← readBuffer biasDs outUnits
  let (factor, option) := st.option.takeFolding
  let foldingValue := E.ev.float factor
  let plainWeights ← seqFin fun iu : Fin inUnits => seqFin fun ou : Fin outUnits =>
    let weight := E.ev.float (foldingValue * weights (iu * outUnits + ou))
    E.ev.encodeAt option.consumedLevel (clampWeight E.define weight)
  let plainBiases ← seqFin fun ou : Fin outUnits =>
    E.ev.encodeAt (option.consumedLevel + 1) (biases ou)
  let (dense, option) :=
    Dense.new info.name inUnits outUnits info.activation plainWeights plainBiases option
  return (.dense dense, { next := { st.next with inUnits := outUnits }, option })

/-- The group of the dense layer is opened under the name of the fused layer. -/
def buildDenseFusedBN (info : DenseInfo) (bnName : String) (st : BuildState K) :
    Except Error (Layer Pt × BuildState K) := do
  let inUnits := st.next.inUnits
  let outUnits := info.units
  let layerName := info.name ++ "-fused-with-" ++ bnName
  let denseGroup ← file.openGroup (groupPath info.name layerName)
  let bnGroup ← file.openGroup (groupPath bnName bnName)
  let kernelDs ← denseGroup.openDataSet kernelKey
  let biasDs ← denseGroup.openDataSet biasKey
  let weights ← readBuffer kernelDs (inUnits * outUnits)
  let biases ← readBuffer biasDs outUnits
  let bn ← BnData.read bnGroup outUnits
  let plainBiases ← seqFin fun ou : Fin outUnits =>
    E.ev.encodeAt (st.option.consumedLevel + 1)
      (E.ev.float (E.ev.float (biases ou * bn.weight E.ev.float E.define ou) +
        bn.bias E.ev.float E.define ou))
  let (factor, option) := st.option.takeFolding
  let foldingValue := E.ev.float factor
  let plainWeights ← seqFin fun iu : Fin inUnits => seqFin fun ou : Fin outUnits =>
    let weight := E.ev.float
      (E.ev.float (foldingValue * weights (iu * outUnits + ou)) * bn.weight E.ev.float E.define ou)
    E.ev.encodeAt option.consumedLevel (clampWeight E.define weight)
  let (dense, option) :=
    Dense.new layerName inUnits outUnits info.activation plainWeights plainBiases option
  return (.dense dense, { next := { st.next with inUnits := outUnits }, option })

def buildActivation (name activation : String) (st : BuildState K) :
    Except Error (Layer Pt × BuildState K) := do
  let option :=
    if st.option.enableOptimizeActivation then { st.option with shouldMultiplyCoeff := true }
    else st.option
  let (l, option) ← Activation.new E.ev E.define name activation option
  return (.activation l, { st with option })

/-- The condition of the source is `true || option.enable_optimize_pooling`. -/
def buildGlobalAveragePooling2D (name : String) (st : BuildState K) :
    Except Error (Layer Pt × BuildState K) :=
  let next := { st.next with inUnits := st.next.inChannels }
  let area : K := (next.inHeight * next.inWidth : ℕ)
  let option := { st.option with
    currentPoolingMulFactor :=
      if st.option.shouldMultiplyPool then
        E.ev.float (st.option.currentPoolingMulFactor * (1 / area))
      else E.ev.float (1 / area)
    shouldMultiplyPool := true }
  .ok (.globalAveragePooling2D
      ⟨name, next.inHeight, next.inWidth, next.inChannels, next.inUnits⟩,
    { next, option })

/-! ## buildLayer -/

/-- One call of `buildLayer`: for a layer alone, or for a layer and the batch normalisation after
it. -/
inductive BuildCall where
  | single (layer : LayerInfo)
  | conv2DFusedBN (conv2d : Conv2DInfo) (bn : String)
  | denseFusedBN (dense : DenseInfo) (bn : String)
  deriving DecidableEq

/-- `buildLayer` without the next layer: the dispatch through `BUILD_LAYER_MAP`. -/
def buildSingle (layer : LayerInfo) (st : BuildState K) :
    Except Error (Layer Pt × BuildState K) :=
  match layer with
  | .conv2D info => buildConv2D E file info st
  | .averagePooling2D info => buildAveragePooling2D E info st
  | .batchNormalization name => buildBatchNormalization E file name st
  | .flatten name => buildFlatten name st
  | .dense info => buildDense E file info st
  | .activation name activation => buildActivation E name activation st
  | .globalAveragePooling2D name => buildGlobalAveragePooling2D E name st
  | .other className =>
    .error (.runtimeError ("\"" ++ className ++ "\" is not registered as layer class"))

def buildLayer (call : BuildCall) (st : BuildState K) : Except Error (Layer Pt × BuildState K) :=
  match call with
  | .single layer => buildSingle E file layer st
  | .conv2DFusedBN conv2d bn => buildConv2DFusedBN E file conv2d bn st
  | .denseFusedBN dense bn => buildDenseFusedBN E file dense bn st

end Cnn
