import PPCNN.Cnn.Seal
import PPCNN.Cnn.Tensor

/-!
# Layers (`conv2d.cpp`, `average_pooling2d.cpp`, `batch_normalization.cpp`, `flatten.cpp`,
`dense.cpp`, `activation.cpp`, `global_average_pooling2d.cpp`)

Each layer is the record of its members, with its constructor and its `forward`. Members keep
their names without the trailing underscore. `option_` is a reference to the option object of the
computation: constructors take and return it, `forward` reads the flags that never change.
-/

set_option autoImplicit false

namespace Cnn

open Lib

variable {K Pt Ct : Type}

/-! ## Windows of convolutions and poolings -/

/-- Output size and padding along one axis. -/
structure Axis where
  out : ℕ
  padBefore : ℤ
  padAfter : ℤ
  deriving DecidableEq

/-- The constructors of `Conv2D` and `AveragePooling2D` compute both axes by this. A padding other
than "valid" and "same" leaves the members unset. -/
def Axis.new (A : IntArith) (padding : String) (inSize window stride : ℕ) : Except Error Axis :=
  if padding = "valid" then
    .ok ⟨A.ceilQuotient (A.size (inSize - window + 1)).toNat stride, 0, 0⟩
  else if padding = "same" then
    let rem := inSize % stride
    -- the source takes the maximum with an unsigned 0, which is the other argument
    let padAlong := if rem = 0 then A.size (window - stride) else A.size (window - rem)
    .ok ⟨A.ceilQuotient inSize stride, padAlong / 2, padAlong - padAlong / 2⟩
  else .error .uninitialized

/-- `isOutOfRangeInput`. -/
def isOutOfRangeInput (inHeight inWidth : ℕ) (targetX targetY : ℤ) : Bool :=
  targetX < 0 || targetY < 0 || targetX ≥ inWidth || targetY ≥ inHeight

/-- The index pairs of `for (i…) for (j…)`. -/
def windowTaps (height width : ℕ) : List (Fin height × Fin width) :=
  (List.finRange height).product (List.finRange width)

/-! ## Conv2D -/

/-- `Conv2D`, and `Conv2DFusedBN`, which only prints differently. -/
structure Conv2D (Pt : Type) where
  name : String
  inHeight : ℕ
  inWidth : ℕ
  inChannels : ℕ
  filterSize : ℕ
  filterHeight : ℕ
  filterWidth : ℕ
  strideHeight : ℕ
  strideWidth : ℕ
  padding : String
  activation : String
  vertical : Axis
  horizontal : Axis
  plainFilters : Fin filterHeight → Fin filterWidth → Fin inChannels → Fin filterSize → Pt
  plainBiases : Fin filterSize → Pt

namespace Conv2D

variable (l : Conv2D Pt)

def outHeight : ℕ := l.vertical.out
def outWidth : ℕ := l.horizontal.out
def outChannels : ℕ := l.filterSize
def padTop : ℤ := l.vertical.padBefore
def padLeft : ℤ := l.horizontal.padBefore

/-- The constructor. -/
def new (A : IntArith) (name : String)
    (inHeight inWidth inChannels filterSize filterHeight filterWidth : ℕ)
    (strideHeight strideWidth : ℕ) (padding activation : String)
    (plainFilters : Fin filterHeight → Fin filterWidth → Fin inChannels → Fin filterSize → Pt)
    (plainBiases : Fin filterSize → Pt) (option : OptOption K) :
    Except Error (Conv2D Pt × OptOption K) := do
  let vertical ← Axis.new A padding inHeight filterHeight strideHeight
  let horizontal ← Axis.new A padding inWidth filterWidth strideWidth
  return (
    { name, inHeight, inWidth, inChannels, filterSize, filterHeight, filterWidth, strideHeight
      strideWidth, padding, activation, vertical, horizontal, plainFilters, plainBiases },
    { option with consumedLevel := option.consumedLevel + 1 })

variable (ev : Evaluator K Pt Ct) (A : IntArith)

/-- The body of the loops over `fh` and `fw`. The accumulator holds `within_range_counter` and
`output[oh][ow][oc]`. -/
def tap (input : Tensor3 Ct) (targetTop targetLeft : ℤ) (oc : Fin l.filterSize)
    (acc : ℕ × Option Ct) (p : Fin l.filterHeight × Fin l.filterWidth) :
    Except Error (ℕ × Option Ct) :=
  let targetX := A.int (targetLeft + (p.2 : ℕ))
  let targetY := A.int (targetTop + (p.1 : ℕ))
  if isOutOfRangeInput l.inHeight l.inWidth targetX targetY then .ok acc
  else do
    let withinRangeCounter := acc.1 + 1
    let out ← (List.finRange l.inChannels).foldlM (fun out (ic : Fin l.inChannels) => do
      let weightedPixel ←
        ev.multiplyPlain (← input.read targetY targetX ic) (l.plainFilters p.1 p.2 ic oc)
      ev.assignOrAdd (withinRangeCounter == 1 && ic.val == 0) out weightedPixel) acc.2
    return (withinRangeCounter, out)

end Conv2D

/-- What `Conv2D` and `Dense` do with an accumulated sum. -/
def finishLinear (ev : Evaluator K Pt Ct) (out : Option Ct) (plainBias : Pt) :
    Except Error Ct := do
  let y ← ev.rescale (← Evaluator.assigned out)
  ev.addPlain (ev.setScale y) plainBias

/-- `Conv2D::forward`. -/
def Conv2D.forward (ev : Evaluator K Pt Ct) (A : IntArith) (l : Conv2D Pt) (input : Tensor3 Ct) :
    Except Error (Tensor3 Ct) :=
  Tensor3.build l.outHeight l.outWidth l.filterSize fun oh ow oc => do
    let targetTop := A.int ((oh : ℕ) * l.strideHeight - l.padTop)
    let targetLeft := A.int ((ow : ℕ) * l.strideWidth - l.padLeft)
    let acc ← (windowTaps l.filterHeight l.filterWidth).foldlM
      (l.tap ev A input targetTop targetLeft oc) (0, none)
    finishLinear ev acc.2 (l.plainBiases oc)

/-! ## AveragePooling2D -/

structure AveragePooling2D (Pt : Type) where
  name : String
  inHeight : ℕ
  inWidth : ℕ
  inChannels : ℕ
  poolHeight : ℕ
  poolWidth : ℕ
  strideHeight : ℕ
  strideWidth : ℕ
  padding : String
  vertical : Axis
  horizontal : Axis
  /-- `none`: the builder left the plaintext default-constructed. -/
  plainMulFactor : Option Pt

namespace AveragePooling2D

variable (l : AveragePooling2D Pt)

def outHeight : ℕ := l.vertical.out
def outWidth : ℕ := l.horizontal.out
def outChannels : ℕ := l.inChannels
def padTop : ℤ := l.vertical.padBefore
def padLeft : ℤ := l.horizontal.padBefore

/-- The constructor. -/
def new (A : IntArith) (name : String)
    (inHeight inWidth inChannels poolHeight poolWidth strideHeight strideWidth : ℕ)
    (padding : String) (plainMulFactor : Option Pt) (option : OptOption K) :
    Except Error (AveragePooling2D Pt × OptOption K) := do
  let vertical ← Axis.new A padding inHeight poolHeight strideHeight
  let horizontal ← Axis.new A padding inWidth poolWidth strideWidth
  let option :=
    if !option.enableOptimizePooling then
      { option with consumedLevel := option.consumedLevel + 1 }
    else option
  return (
    { name, inHeight, inWidth, inChannels, poolHeight, poolWidth, strideHeight, strideWidth
      padding, vertical, horizontal, plainMulFactor },
    option)

variable (ev : Evaluator K Pt Ct) (A : IntArith)

/-- The body of the loops over `ph` and `pw`, which stands twice in `forward`. -/
def tap (input : Tensor3 Ct) (targetTop targetLeft : ℤ) (oc : ℕ) (out : Option Ct)
    (p : Fin l.poolHeight × Fin l.poolWidth) : Except Error (Option Ct) :=
  let targetX := A.int (targetLeft + (p.2 : ℕ))
  let targetY := A.int (targetTop + (p.1 : ℕ))
  if isOutOfRangeInput l.inHeight l.inWidth targetX targetY then .ok out
  else do
    ev.assignOrAdd (p.1.val == 0 && p.2.val == 0) out (← input.read targetY targetX oc)

/-- `AveragePooling2D::forward`. -/
def forward (option : OptOption K) (input : Tensor3 Ct) : Except Error (Tensor3 Ct) :=
  Tensor3.build l.outHeight l.outWidth l.inChannels fun oh ow oc => do
    let targetTop := A.int ((oh : ℕ) * l.strideHeight - l.padTop)
    let targetLeft := A.int ((ow : ℕ) * l.strideWidth - l.padLeft)
    let out ← (windowTaps l.poolHeight l.poolWidth).foldlM
      (l.tap ev A input targetTop targetLeft oc) none
    if option.enableOptimizePooling then
      Evaluator.assigned out
    else
      ev.rescale
        (← ev.multiplyPlain (← Evaluator.assigned out) (← Evaluator.assigned l.plainMulFactor))

end AveragePooling2D

/-! ## BatchNormalization -/

structure BatchNormalization (Pt : Type) where
  name : String
  plainWeights : List Pt
  plainBiases : List Pt

/-- `v[i]` of a `std::vector`. -/
def readVector {α : Type} (v : List α) (i : ℕ) : Except Error α :=
  match v[i]? with
  | some x => .ok x
  | none => .error .outOfRange

namespace BatchNormalization

/-- The constructor. -/
def new (name : String) (plainWeights plainBiases : List Pt) (option : OptOption K) :
    BatchNormalization Pt × OptOption K :=
  ({ name, plainWeights, plainBiases }, { option with consumedLevel := option.consumedLevel + 1 })

variable (ev : Evaluator K Pt Ct) (l : BatchNormalization Pt)

/-- The loop body of both `forward`s for a cell of channel (or unit) `c`. -/
def apply (c : ℕ) (x : Ct) : Except Error Ct := do
  let y ← ev.rescale (← ev.multiplyPlain x (← readVector l.plainWeights c))
  ev.addPlain (ev.setScale y) (← readVector l.plainBiases c)

/-- `BatchNormalization::forward(Ciphertext3D&)`. -/
def forward3D (input : Tensor3 Ct) : Except Error (Tensor3 Ct) :=
  Tensor3.build input.height input.width input.channels fun h w c =>
    l.apply ev c (input.cell h w c)

/-- `BatchNormalization::forward(vector<Ciphertext>&)`. -/
def forwardUnits (input : List Ct) : Except Error (List Ct) := do
  return List.ofFn (← seqFin fun u : Fin input.length => l.apply ev u input[u])

end BatchNormalization

/-! ## Flatten -/

structure Flatten where
  name : String
  inHeight : ℕ
  inWidth : ℕ
  inChannels : ℕ
  outUnits : ℕ
  deriving DecidableEq

/-- `Flatten::flatten`. The position `pos` the loops write to runs through `0, 1, …` in loop
order, so the vector is the list of the cells they visit. -/
def Flatten.flatten (l : Flatten) (input : Tensor3 Ct) : Except Error (List Ct) := do
  let cells ← Tensor3.build l.inHeight l.inWidth l.inChannels fun ih iw ic =>
    input.read (ih : ℕ) (iw : ℕ) ic
  return cells.toUnits

/-! ## Dense -/

/-- `Dense`, and `DenseFusedBN`, which only prints differently. -/
structure Dense (Pt : Type) where
  name : String
  inUnits : ℕ
  outUnits : ℕ
  activation : String
  plainWeights : Fin inUnits → Fin outUnits → Pt
  plainBiases : Fin outUnits → Pt

namespace Dense

/-- The constructor. -/
def new (name : String) (inUnits outUnits : ℕ) (activation : String)
    (plainWeights : Fin inUnits → Fin outUnits → Pt) (plainBiases : Fin outUnits → Pt)
    (option : OptOption K) : Dense Pt × OptOption K :=
  ({ name, inUnits, outUnits, activation, plainWeights, plainBiases },
    { option with consumedLevel := option.consumedLevel + 1 })

/-- `Dense::forward`. -/
def forward (ev : Evaluator K Pt Ct) (l : Dense Pt) (input : List Ct) :
    Except Error (List Ct) := do
  return List.ofFn (← seqFin fun ou : Fin l.outUnits => do
    let out ← (List.finRange l.inUnits).foldlM (fun out (iu : Fin l.inUnits) => do
      let weightedUnit ← ev.multiplyPlain (← readVector input iu) (l.plainWeights iu ou)
      ev.assignOrAdd (iu.val == 0) out weightedUnit) none
    finishLinear ev out (l.plainBiases ou))

end Dense

/-! ## Activation -/

structure Activation (Pt : Type) where
  name : String
  activation : String
  plainPolyCoeffs : List Pt

def squareName : String := "square"
def swishRg4Deg4Name : String := "swish_rg4_deg4"
def swishRg6Deg4Name : String := "swish_rg6_deg4"

namespace Activation

/-- The two branches for a swish polynomial in the constructor: the coefficients are encoded for
the level of the product they enter (`+ 1` or `+ 2`), the last one a level further down. -/
def newSwish (ev : Evaluator K Pt Ct) (name activation : String) (s : SwishCoeffs K)
    (option : OptOption K) : Except Error (Activation Pt × OptOption K) := do
  let (coeffs, drop) :=
    if option.enableOptimizeActivation then (s.optCoeffs, 1) else (s.coeffs, 2)
  let plains ← coeffs.mapM fun coeff => ev.encodeAt (option.consumedLevel + drop) coeff
  let last ← ev.modSwitchPlain (← readVector plains (plains.length - 1))
  return (
    { name, activation, plainPolyCoeffs := plains.dropLast ++ [last] },
    { option with consumedLevel := option.consumedLevel + (drop + 1) })

/-- The constructor. -/
def new (ev : Evaluator K Pt Ct) (c : Define K) (name activation : String)
    (option : OptOption K) : Except Error (Activation Pt × OptOption K) :=
  if activation = squareName ∨ option.activation = .square then
    .ok ({ name, activation, plainPolyCoeffs := [] },
      { option with consumedLevel := option.consumedLevel + 1 })
  else if activation = swishRg4Deg4Name ∨ option.activation = .swishRg4Deg4 then
    newSwish ev name activation c.swishRg4Deg4 option
  else if activation = swishRg6Deg4Name ∨ option.activation = .swishRg6Deg4 then
    newSwish ev name activation c.swishRg6Deg4 option
  else
    .error (.runtimeError ("\"" ++ activation ++ "\" is not registered as activation function"))

variable (ev : Evaluator K Pt Ct) (l : Activation Pt)

/-- `evaluator.square` followed by `relinearize_inplace`. -/
def squareRelin (x : Ct) : Except Error Ct := do
  ev.relinearize (← ev.square x)

/-- `Activation::square`. -/
def square (x : Ct) : Except Error Ct := do
  ev.rescale (← squareRelin ev x)

/-- `Activation::swishDeg4`. -/
def swishDeg4 (x : Ct) : Except Error Ct := do
  let x2 ← ev.rescale (← squareRelin ev x)
  let x4 ← ev.rescale (← squareRelin ev x2)
  let x2 ← ev.modSwitch x2
  let x ← ev.modSwitch x
  let x ← ev.modSwitch x
  let ax4 ← ev.multiplyPlain x4 (← readVector l.plainPolyCoeffs 0)
  let bx2 ← ev.multiplyPlain x2 (← readVector l.plainPolyCoeffs 1)
  let cx ← ev.multiplyPlain x (← readVector l.plainPolyCoeffs 2)
  let y ← ev.add (ev.setScale ax4) (ev.setScale bx2)
  let y ← ev.add y (ev.setScale cx)
  let y ← ev.rescale y
  ev.addPlain (ev.setScale y) (← readVector l.plainPolyCoeffs 3)

/-- `Activation::swishDeg4Opt`. -/
def swishDeg4Opt (x : Ct) : Except Error Ct := do
  let x2 ← ev.rescale (← squareRelin ev x)
  let x4 ← squareRelin ev x2
  let x ← ev.modSwitch x
  let bx2 ← ev.multiplyPlain x2 (← readVector l.plainPolyCoeffs 0)
  let cx ← ev.multiplyPlain x (← readVector l.plainPolyCoeffs 1)
  let y ← ev.add (ev.setScale x4) (ev.setScale bx2)
  let y ← ev.add y (ev.setScale cx)
  let y ← ev.rescale y
  ev.addPlain (ev.setScale y) (← readVector l.plainPolyCoeffs 2)

/-- `Activation::activate`. -/
def activate (option : OptOption K) (x : Ct) : Except Error Ct :=
  if l.activation = squareName then square ev x
  else if option.enableOptimizeActivation then l.swishDeg4Opt ev x
  else l.swishDeg4 ev x

/-- `Activation::forward(Ciphertext3D&)`. -/
def forward3D (option : OptOption K) (input : Tensor3 Ct) : Except Error (Tensor3 Ct) :=
  input.mapM (l.activate ev option)

/-- `Activation::forward(vector<Ciphertext>&)`. -/
def forwardUnits (option : OptOption K) (input : List Ct) : Except Error (List Ct) := do
  return List.ofFn (← seqFin fun u : Fin input.length => l.activate ev option input[u])

end Activation

/-! ## GlobalAveragePooling2D -/

/-- `plain_mul_factor_` is never used. -/
structure GlobalAveragePooling2D where
  name : String
  inHeight : ℕ
  inWidth : ℕ
  inChannels : ℕ
  outUnits : ℕ
  deriving DecidableEq

/-- `GlobalAveragePooling2D::flatten`. Each unit is assigned from the first position, then the
other positions are added. The loop over channels is the one over units: the builder passes the
same number for both. -/
def GlobalAveragePooling2D.flatten (ev : Evaluator K Pt Ct) (l : GlobalAveragePooling2D)
    (input : Tensor3 Ct) : Except Error (List Ct) := do
  return List.ofFn (← seqFin fun ou : Fin l.outUnits => do
    let first ← input.read 0 0 ou
    (windowTaps l.inHeight l.inWidth).foldlM (fun out p =>
      if p.1.val ≠ 0 ∨ p.2.val ≠ 0 then do
        ev.add out (← input.read (p.1 : ℕ) (p.2 : ℕ) ou)
      else .ok out) first)

end Cnn
