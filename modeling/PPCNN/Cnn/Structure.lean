import PPCNN.Cnn.Network
import Mathlib.Data.Rat.Defs

/-!
# The structure file (`picojson.h`, `load_model.cpp`, `BuildNetwork`)

A structure file as the value the JSON parser returns, the reads of the builders in their order, and
the two loops of `BuildNetwork`, which read an element when they reach it.
-/

set_option autoImplicit false

namespace Cnn

open Lib

/-! ## picojson -/

/-- `picojson::value`. The map of an object is an association list. -/
inductive JsonValue where
  | null
  | boolean (b : Bool)
  | number (x : ℚ)
  | string (s : String)
  | array (values : List JsonValue)
  | object (fields : List (String × JsonValue))

/-- `picojson::object` -/
abbrev JsonObject := List (String × JsonValue)

namespace JsonValue

/-- The text of the assertion in `get`. -/
def typeMismatch (ctype : String) : Error :=
  .runtimeError ("\"type mismatch! call is<type>() before get<type>()\" && is<" ++ ctype ++ ">()")

/-- `get<std::string>` -/
def getString : JsonValue → Except Error String
  | .string s => .ok s
  | _ => .error (typeMismatch "std::string")

/-- `get<double>` -/
def getDouble : JsonValue → Except Error ℚ
  | .number x => .ok x
  | _ => .error (typeMismatch "double")

/-- `get<picojson::array>` -/
def getArray : JsonValue → Except Error (List JsonValue)
  | .array values => .ok values
  | _ => .error (typeMismatch "array")

/-- `get<picojson::object>` -/
def getObject : JsonValue → Except Error JsonObject
  | .object fields => .ok fields
  | _ => .error (typeMismatch "object")

end JsonValue

/-- `object[key]`; a key that is not there gets a null. -/
def JsonObject.field (o : JsonObject) (key : String) : JsonValue := (o.lookup key).getD .null

/-- A `double` as a `size_t`. Of a negative number the conversion is undefined; it is taken to wrap. -/
def toSize (A : IntArith) (x : ℚ) : ℕ := (A.size (x.num.tdiv x.den)).toNat

/-! ## Reading a layer -/

section Read

variable (A : IntArith) (layerInfo : JsonObject)

def readSize (key : String) : Except Error ℕ := do
  return toSize A (← (layerInfo.field key).getDouble)

/-- A number of an array. The index is not checked. -/
def readElement (values : List JsonValue) (i : ℕ) : Except Error ℕ := do
  return toSize A (← (← readVector values i).getDouble)

def readPair (key : String) : Except Error (ℕ × ℕ) := do
  let hw ← (layerInfo.field key).getArray
  return (← readElement A hw 0, ← readElement A hw 1)

/-- The `try` block for `batch_input_shape`, which catches `runtime_error`. -/
def readBatchInputShape : Except Error (Option (ℕ × ℕ × ℕ)) :=
  let read : Except Error (ℕ × ℕ × ℕ) := do
    let batchInputShape ← (layerInfo.field "batch_input_shape").getArray
    return (← readElement A batchInputShape 1, ← readElement A batchInputShape 2,
      ← readElement A batchInputShape 3)
  match read with
  | .ok shape => .ok (some shape)
  | .error (.runtimeError _) => .ok none
  | .error e => .error e

def readConv2D : Except Error Conv2DInfo := do
  let name ← (layerInfo.field "name").getString
  let batchInputShape ← readBatchInputShape A layerInfo
  let filters ← readSize A layerInfo "filters"
  let kernelSize ← readPair A layerInfo "kernel_size"
  let strides ← readPair A layerInfo "strides"
  let padding ← (layerInfo.field "padding").getString
  let activation ← (layerInfo.field "activation").getString
  return { name, batchInputShape, filters, kernelSize, strides, padding, activation }

def readAveragePooling2D : Except Error AveragePooling2DInfo := do
  let name ← (layerInfo.field "name").getString
  let poolSize ← readPair A layerInfo "pool_size"
  let strides ← readPair A layerInfo "strides"
  let padding ← (layerInfo.field "padding").getString
  return { name, poolSize, strides, padding }

def readDense : Except Error DenseInfo := do
  let name ← (layerInfo.field "name").getString
  let units ← readSize A layerInfo "units"
  let activation ← (layerInfo.field "activation").getString
  return { name, units, activation }

/-- What `BatchNormalization`, `Flatten` and `GlobalAveragePooling2D` read. -/
def readName : Except Error String := (layerInfo.field "name").getString

end Read

def conv2DClassName : String := "Conv2D"
def averagePooling2DClassName : String := "AveragePooling2D"
def batchNormalizationClassName : String := "BatchNormalization"
def flattenClassName : String := "Flatten"
def denseClassName : String := "Dense"
def activationClassName : String := "Activation"
def globalAveragePooling2DClassName : String := "GlobalAveragePooling2D"

/-- The entries of `BUILD_LAYER_MAP`, as the reads of their builders. -/
def buildLayerMap (A : IntArith) : List (String × (JsonObject → Except Error LayerInfo)) :=
  [(conv2DClassName, fun o => LayerInfo.conv2D <$> readConv2D A o),
    (averagePooling2DClassName, fun o => LayerInfo.averagePooling2D <$> readAveragePooling2D A o),
    (batchNormalizationClassName, fun o => LayerInfo.batchNormalization <$> readName o),
    (flattenClassName, fun o => LayerInfo.flatten <$> readName o),
    (denseClassName, fun o => LayerInfo.dense <$> readDense A o),
    (activationClassName, fun o => do
      let name ← readName o
      return .activation name (← (o.field "activation").getString)),
    (globalAveragePooling2DClassName, fun o => LayerInfo.globalAveragePooling2D <$> readName o)]

/-- The reads of `buildLayer` without the next layer. -/
def readLayer (A : IntArith) (layer : JsonObject) (layerClassName : String) : Except Error LayerInfo :=
  match (buildLayerMap A).lookup layerClassName with
  | some read => do read (← (layer.field "config").getObject)
  | none => .ok (.other layerClassName)

/-- An element of the array: the object, and its class. -/
def readClass (v : JsonValue) : Except Error (JsonObject × String) := do
  let layer ← v.getObject
  return (layer, ← (layer.field "class_name").getString)

/-- The reads of `buildLayer` with the next layer, and whether the iterator steps over that one. -/
def readCall (A : IntArith) (layer next : JsonObject) (layerClassName nextClassName : String) :
    Except Error (BuildCall × Bool) :=
  if layerClassName = conv2DClassName ∧ nextClassName = batchNormalizationClassName then do
    let conv2d ← (layer.field "config").getObject
    let bn ← (next.field "config").getObject
    return (.conv2DFusedBN (← readConv2D A conv2d) (← readName bn), true)
  else if layerClassName = denseClassName ∧ nextClassName = batchNormalizationClassName then do
    let dense ← (layer.field "config").getObject
    let bn ← (next.field "config").getObject
    return (.denseFusedBN (← readDense A dense) (← readName bn), true)
  else do
    return (.single (← readLayer A layer layerClassName), false)

/-- `loadLayers` on the parsed file. -/
def loadLayers (json : JsonValue) : Except Error (List JsonValue) := do
  ((← json.getObject).field "config").getArray

/-! ## BuildNetwork -/

variable {K Pt Ct : Type} [Field K] [LinearOrder K] (E : Env K Pt Ct) (file : H5File K)

/-- The loop without fused layers. -/
def buildEach : List JsonValue → BuildState K → Except Error (List (Layer Pt) × BuildState K)
  | [], st => .ok ([], st)
  | v :: values, st => do
    let (layer, className) ← readClass v
    let (l, st) ← buildSingle E file (← readLayer E.arith layer className) st
    let (layers, st) ← buildEach values st
    return (l :: layers, st)

/-- The loop with fused layers. -/
def buildFused : List JsonValue → BuildState K → Except Error (List (Layer Pt) × BuildState K)
  | [], st => .ok ([], st)
  | [v], st => do
    let (layer, className) ← readClass v
    let (l, st) ← buildSingle E file (← readLayer E.arith layer className) st
    return ([l], st)
  | v :: v' :: values, st => do
    let (layer, className) ← readClass v
    let (next, nextClassName) ← readClass v'
    let (call, stepsOver) ← readCall E.arith layer next className nextClassName
    let (l, st) ← buildLayer E file call st
    let (layers, st) ← if stepsOver then buildFused values st else buildFused (v' :: values) st
    return (l :: layers, st)

/-- `BuildNetwork` on the parsed structure file. -/
def buildStructure (json : JsonValue) (next : NextLayer) (option : OptOption K) :
    Except Error (List (Layer Pt) × BuildState K) := do
  let values ← loadLayers json
  if option.enableFuseLayers then buildFused E file values ⟨next, option⟩
  else buildEach E file values ⟨next, option⟩

end Cnn
