import PPCNN.Cnn.LoadModel

/-!
# Building and running a network (`ppcnn_server_calcthread.cpp`, `network.cpp`)
-/

set_option autoImplicit false

namespace Cnn

variable {K Pt Ct : Type}

/-! ## BuildNetwork -/

/-- The calls of `buildLayer` when layers are fused. The iterator steps over a batch normalisation
that directly follows a `Conv2D` or a `Dense`: the callee advances it once more. -/
def fusedCalls : List LayerInfo → List BuildCall
  | [] => []
  | [layer] => [.single layer]
  | .conv2D conv2d :: .batchNormalization bn :: layers =>
    .conv2DFusedBN conv2d bn :: fusedCalls layers
  | .dense dense :: .batchNormalization bn :: layers => .denseFusedBN dense bn :: fusedCalls layers
  | layer :: next :: layers => .single layer :: fusedCalls (next :: layers)

/-- The calls of `buildLayer` in `BuildNetwork`. -/
def buildCalls (enableFuseLayers : Bool) (layers : List LayerInfo) : List BuildCall :=
  if enableFuseLayers then fusedCalls layers else layers.map .single

variable [Field K] [LinearOrder K] (E : Env K Pt Ct) (file : H5File K)

def buildLayers : List BuildCall → BuildState K → Except Error (List (Layer Pt) × BuildState K)
  | [], st => .ok ([], st)
  | call :: calls, st => do
    let (layer, st) ← buildLayer E file call st
    let (layers, st) ← buildLayers calls st
    return (layer :: layers, st)

/-- `BuildNetwork`, from the values `next` the file-scope variables happen to have. -/
def buildNetwork (layers : List LayerInfo) (next : NextLayer) (option : OptOption K) :
    Except Error (List (Layer Pt) × BuildState K) :=
  buildLayers E file (buildCalls option.enableFuseLayers layers) ⟨next, option⟩

/-! ## Network::predict -/

/-- The variables of `Network::predict`. `none`: the cells have been moved into `encrypted_units`. -/
structure PredictState (Ct : Type) where
  encrypted3d : Option (Tensor3 Ct)
  encryptedUnits : List Ct
  inputDim : ℕ

variable (ev : Evaluator K Pt Ct) (A : IntArith) (option : OptOption K)

/-- The body of the loop over the layers. -/
def predictLayer (layer : Layer Pt) (s : PredictState Ct) : Except Error (PredictState Ct) :=
  match layer with
  | .conv2D l => do
    let t ← l.forward ev A (← Evaluator.assigned s.encrypted3d)
    return { s with encrypted3d := some t }
  | .averagePooling2D l => do
    let t ← l.forward ev A option (← Evaluator.assigned s.encrypted3d)
    return { s with encrypted3d := some t }
  | .activation l =>
    if s.inputDim = 1 then do
      return { s with encryptedUnits := ← l.forwardUnits ev option s.encryptedUnits }
    else do
      let t ← l.forward3D ev option (← Evaluator.assigned s.encrypted3d)
      return { s with encrypted3d := some t }
  | .batchNormalization l =>
    if s.inputDim = 1 then do
      return { s with encryptedUnits := ← l.forwardUnits ev s.encryptedUnits }
    else do
      let t ← l.forward3D ev (← Evaluator.assigned s.encrypted3d)
      return { s with encrypted3d := some t }
  | .flatten l => do
    let units ← l.flatten (← Evaluator.assigned s.encrypted3d)
    return { encrypted3d := none, encryptedUnits := units, inputDim := 1 }
  | .globalAveragePooling2D l => do
    let units ← l.flatten ev (← Evaluator.assigned s.encrypted3d)
    return { encrypted3d := none, encryptedUnits := units, inputDim := 1 }
  | .dense l => do
    return { s with encryptedUnits := ← l.forward ev s.encryptedUnits }

def predictLayers : List (Layer Pt) → PredictState Ct → Except Error (PredictState Ct)
  | [], s => .ok s
  | layer :: layers, s => do predictLayers layers (← predictLayer ev A option layer s)

/-- `Network::predict`. -/
def predict (layers : List (Layer Pt)) (encrypted3d : Tensor3 Ct) : Except Error (List Ct) := do
  let s ← predictLayers ev A option layers ⟨some encrypted3d, [], 3⟩
  return s.encryptedUnits

/-! ## CalcThread::Impl::compute -/

/-- `name.find(part) != npos`. -/
def contains (name part : String) : Bool := decide (part.toList <:+: name.toList)

/-- The option object `compute` builds a network with. -/
def computeOption (c : Define K) (optLevel : EOptLevel) (activation : EActivation)
    (model : String) : OptOption K :=
  let option := OptOption.new optLevel activation
  if option.enableOptimizeActivation then
    if contains model "CKKS-swish_rg4_deg4" || activation == .swishRg4Deg4 then
      { option with highestDegCoeff := c.swishRg4Deg4.a }
    else if contains model "CKKS-swish_rg6_deg4" || activation == .swishRg6Deg4 then
      { option with highestDegCoeff := c.swishRg6Deg4.a }
    else option
  else option

/-- `BuildNetwork` and `predict`, as `compute` calls them in a process whose file-scope variables
have the values `next`. -/
def buildAndPredict (layers : List LayerInfo) (next : NextLayer) (option : OptOption K)
    (input : Tensor3 Ct) : Except Error (List Ct) := do
  let (network, st) ← buildNetwork E file layers next option
  predict E.ev E.arith st.option network input

end Cnn
