import PPCNN.Cnn.Network
import PPCNN.Cnn.Proof.Window
import PPCNN.Keras.Model

/-!
# What a built layer computes

A builder folds factors into the weights it stores, so a layer of the network computes something
else than the layer of the model. `stored` is that value, as a function of the option the builder
found; `optionAfter` is the option it leaves. Both follow the builders' branches on the flags, with
the encoding of plaintexts taken away. What depends on the rounding `fl` of `float` expressions takes it
as an argument; `stored` is without rounding.
-/

set_option autoImplicit false

namespace Cnn.Proof

open Lib Keras

variable {K V : Type} [Field K]

/-! ## The option after a call -/

/-- How many levels the constructor of `Activation` adds. -/
def activationDepth (o : OptOption K) (activation : String) : ℕ :=
  if activation = squareName ∨ o.activation = .square then 1
  else if o.enableOptimizeActivation then 2
  else 3

/-- The option `n` levels further down. -/
def descend (o : OptOption K) (n : ℕ) : OptOption K :=
  { o with consumedLevel := o.consumedLevel + n }

/-- The option `buildLayer` leaves, for a layer on an input of the given shape. -/
def optionAfter (fl : K → K) (o : OptOption K) (s : Shape) : BuildCall → OptOption K
  | .single (.conv2D _) | .conv2DFusedBN _ _ | .single (.dense _) | .denseFusedBN _ _ =>
    descend o.takeFolding.2 1
  | .single (.averagePooling2D info) =>
    if o.enableOptimizePooling then
      { o with
        currentPoolingMulFactor := fl (1 / (info.poolSize.1 * info.poolSize.2 : ℕ))
        shouldMultiplyPool := true }
    else if o.enableOptimizeActivation && o.shouldMultiplyCoeff then
      descend { o with shouldMultiplyCoeff := false } 1
    else descend o 1
  | .single (.batchNormalization _) => descend o 1
  | .single (.activation _ activation) =>
    descend (if o.enableOptimizeActivation then { o with shouldMultiplyCoeff := true } else o)
      (activationDepth o activation)
  | .single (.globalAveragePooling2D _) =>
    match s with
    | .image height width _ =>
      let area : K := (height * width : ℕ)
      { o with
        currentPoolingMulFactor :=
          if o.shouldMultiplyPool then fl (o.currentPoolingMulFactor * (1 / area)) else fl (1 / area)
        shouldMultiplyPool := true }
    | .units _ => o
  | .single (.flatten _) | .single (.other _) => o

/-! ## The value of a layer -/

variable [LinearOrder K] [CommRing V] [Algebra K V] (c : Define K) (file : H5File K)

/-- The table the constructor of `Activation` takes for a name other than "square". -/
def swishTable (o : OptOption K) (activation : String) : SwishCoeffs K :=
  if activation = swishRg4Deg4Name ∨ o.activation = .swishRg4Deg4 then c.swishRg4Deg4
  else c.swishRg6Deg4

/-- What `activate` computes where it does not fail. -/
def storedActivation (o : OptOption K) (activation : String) (x : V) : V :=
  if activation = squareName then x * x
  else
    let s := swishTable c o activation
    if o.enableOptimizeActivation then
      x ^ 4 + s.b' • x ^ 2 + s.c' • x + algebraMap K V s.d'
    else Keras.swish s x

/-- `activate` finds the coefficients it reads: it does not evaluate a swish polynomial with the
empty vector of a square. -/
def Dispatches (o : OptOption K) (activation : String) : Prop :=
  activation = squareName ∨ o.activation ≠ .square

/-- The factor a pooling without `enable_optimize_pooling` multiplies the sum by. -/
def poolFactor (fl : K → K) (o : OptOption K) (info : AveragePooling2DInfo) : K :=
  if o.enableOptimizeActivation && o.shouldMultiplyCoeff then
    fl (o.highestDegCoeff / fl (info.poolSize.1 * info.poolSize.2 : ℕ))
  else 1 / (info.poolSize.1 * info.poolSize.2 : ℕ)

/-- The weights of a convolution with the pending factors folded in, and those of a batch
normalisation if it is fused. -/
def foldedConv (fl : K → K) (o : OptOption K) (info : Conv2DInfo) (bn : Option String)
    (n i j ic oc : ℕ) : K :=
  let weight :=
    fl (fl o.takeFolding.1 * convKernel file (groupPath info.name info.name) info n i j ic oc)
  match bn with
  | none => weight
  | some bnName => fl (weight * (bnData file (groupPath bnName bnName)).weight fl c oc)

/-- The biases of a convolution, in which no factor is folded. -/
def storedConvBias (fl : K → K) (info : Conv2DInfo) (bn : Option String) (oc : ℕ) : K :=
  let bias := data file (groupPath info.name info.name) biasKey oc
  match bn with
  | none => bias
  | some bnName =>
    let bn := bnData file (groupPath bnName bnName)
    fl (fl (bias * bn.weight fl c oc) + bn.bias fl c oc)

/-- The group that holds the weights of a dense layer: the fused builder opens the one of the fused
name. -/
def denseGroup (info : DenseInfo) (bn : Option String) : String :=
  match bn with
  | none => groupPath info.name info.name
  | some bnName => groupPath info.name (info.name ++ "-fused-with-" ++ bnName)

/-- The weights of a dense layer, as those of a convolution. -/
def foldedDense (fl : K → K) (o : OptOption K) (info : DenseInfo) (bn : Option String) (i ou : ℕ) : K :=
  let weight := fl (fl o.takeFolding.1 * denseKernel file (denseGroup info bn) info i ou)
  match bn with
  | none => weight
  | some bnName => fl (weight * (bnData file (groupPath bnName bnName)).weight fl c ou)

def storedDenseBias (fl : K → K) (info : DenseInfo) (bn : Option String) (ou : ℕ) : K :=
  let bias := data file (denseGroup info bn) biasKey ou
  match bn with
  | none => bias
  | some bnName =>
    let bn := bnData file (groupPath bnName bnName)
    fl (fl (bias * bn.weight fl c ou) + bn.bias fl c ou)

/-! Without rounding, the folded weights are products. -/

section Products

omit [LinearOrder K]

variable {c file}

theorem foldedConv_single (o : OptOption K) (info : Conv2DInfo) (n i j ic oc : ℕ) :
    foldedConv c file id o info none n i j ic oc =
      o.takeFolding.1 * convKernel file (groupPath info.name info.name) info n i j ic oc := rfl

theorem foldedConv_fused (o : OptOption K) (info : Conv2DInfo) (bn : String) (n i j ic oc : ℕ) :
    foldedConv c file id o info (some bn) n i j ic oc =
      o.takeFolding.1 * convKernel file (groupPath info.name info.name) info n i j ic oc *
        (bnData file (groupPath bn bn)).weight id c oc := rfl

theorem foldedDense_single (o : OptOption K) (info : DenseInfo) (i ou : ℕ) :
    foldedDense c file id o info none i ou =
      o.takeFolding.1 * denseKernel file (groupPath info.name info.name) info i ou := rfl

end Products

/-- The value of the layer a call builds; outside `outShape` the input is left as it is. -/
def stored (o : OptOption K) : BuildCall → Value V → Value V
  | .single (.conv2D info), .image t =>
    .image (convImage samePadAxis info
      (fun n i j ic oc => clampWeight c (foldedConv c file id o info none n i j ic oc))
      (storedConvBias c file id info none) t)
  | .conv2DFusedBN info bn, .image t =>
    .image (convImage samePadAxis info
      (fun n i j ic oc => clampWeight c (foldedConv c file id o info (some bn) n i j ic oc))
      (storedConvBias c file id info (some bn)) t)
  | .single (.averagePooling2D info), .image t =>
    .image (poolImage samePadAxis info (fun win t =>
      if o.enableOptimizePooling then win.windowSum t
      else scale (poolFactor id o info) (win.windowSum t)) t)
  | .single (.batchNormalization name), v =>
    let bn := bnData file (groupPath name name)
    v.mapIdx (affine (bn.weight id c) (bn.bias id c))
  | .single (.activation _ activation), v => v.map (storedActivation c o activation)
  | .single (.flatten _), .image t => .units t.toUnits
  | .single (.globalAveragePooling2D _), .image t => .units (channelSum t)
  | .single (.dense info), .units u =>
    .units (dense info.units (fun i ou => clampWeight c (foldedDense c file id o info none i ou))
      (storedDenseBias c file id info none) u)
  | .denseFusedBN info bn, .units u =>
    .units (dense info.units (fun i ou => clampWeight c (foldedDense c file id o info (some bn) i ou))
      (storedDenseBias c file id info (some bn)) u)
  | _, v => v

/-! ## Shapes -/

/-- The shape after a call. -/
def callShape : BuildCall → Shape → Option Shape
  | .single layer, s => outShape layer s
  | .conv2DFusedBN info _, s => outShape (.conv2D info) s
  | .denseFusedBN info _, s => outShape (.dense info) s

def callShapes (calls : List BuildCall) (s : Shape) : Option Shape :=
  calls.foldlM (fun s call => callShape call s) s

/-- The layers of a call have `valid` pooling windows. -/
def CallValid : BuildCall → Prop
  | .single layer => ValidPool layer
  | _ => True

end Cnn.Proof
