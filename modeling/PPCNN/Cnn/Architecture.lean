import PPCNN.Cnn.Proof.Complete
import PPCNN.Cnn.Proof.Pending
import Mathlib.Data.Rat.Sqrt
import Mathlib.Algebra.Order.Ring.Rat

/-!
# Convolutional networks of blocks

The networks the server is used with: blocks of a convolution, a batch normalisation, an activation
and a pooling, then a flattening layer and dense layers. On them every call of `buildLayer` keeps
the invariant of pending factors, at every optimisation level (`safeCalls_blocks`), and nothing is
pending at the end (`pending_blocks`), so a network computes the model under `effective`
(`buildAndPredict_blocks`).
-/

set_option autoImplicit false

namespace Cnn

open Lib Keras Proof

/-! ## Layers and calls -/

/-- `Conv2D [BatchNormalization] Activation [AveragePooling2D]`. -/
structure Block where
  conv2d : Conv2DInfo
  bn : Option String
  name : String
  activation : String
  pool : Option AveragePooling2DInfo

def Block.layers (b : Block) : List LayerInfo :=
  .conv2D b.conv2d :: (b.bn.toList.map .batchNormalization ++
    .activation b.name b.activation :: b.pool.toList.map .averagePooling2D)

/-- The layers of a network of blocks. -/
def blockLayers (blocks : List Block) (head : LayerInfo) (denses : List DenseInfo) :
    List LayerInfo :=
  blocks.flatMap Block.layers ++ head :: denses.map .dense

/-- The layer between the blocks and the dense layers. -/
def IsHead (l : LayerInfo) : Prop :=
  (∃ name, l = .flatten name) ∨ ∃ name, l = .globalAveragePooling2D name

/-- No layer is a global average. -/
def NoGlobalAverage (layers : List LayerInfo) : Prop :=
  ∀ name, .globalAveragePooling2D name ∉ layers

/-- The calls of `buildLayer` for a block. -/
def Block.calls (fuse : Bool) (b : Block) : List BuildCall :=
  (match b.bn, fuse with
    | none, _ => [.single (.conv2D b.conv2d)]
    | some bn, true => [.conv2DFusedBN b.conv2d bn]
    | some bn, false => [.single (.conv2D b.conv2d), .single (.batchNormalization bn)]) ++
  .single (.activation b.name b.activation) ::
    b.pool.toList.map fun pool => .single (.averagePooling2D pool)

theorem fusedCalls_cons {l : LayerInfo} (h : ∀ info, l ≠ .conv2D info) (h' : ∀ info, l ≠ .dense info)
    (layers : List LayerInfo) : fusedCalls (l :: layers) = .single l :: fusedCalls layers := by
  cases layers with
  | nil => rfl
  | cons next layers =>
    rw [fusedCalls]
    · exact fun info _ hl => absurd hl (h info)
    · exact fun info _ hl => absurd hl (h' info)

theorem fusedCalls_block (b : Block) (layers : List LayerInfo) :
    fusedCalls (b.layers ++ layers) = b.calls true ++ fusedCalls layers := by
  obtain ⟨conv2d, bn, name, activation, pool⟩ := b
  have htail : fusedCalls (.activation name activation :: (pool.toList.map .averagePooling2D ++ layers)) =
      (.single (.activation name activation) ::
        pool.toList.map fun pool => .single (.averagePooling2D pool)) ++ fusedCalls layers := by
    rw [fusedCalls_cons (by simp) (by simp)]
    cases pool with
    | none => rfl
    | some pool =>
      exact congrArg (List.cons _) (fusedCalls_cons (l := .averagePooling2D pool) (by simp) (by simp) layers)
  cases bn with
  | none => exact congrArg (List.cons _) htail
  | some bn => exact congrArg (List.cons _) htail

theorem fusedCalls_denses (denses : List DenseInfo) :
    fusedCalls (denses.map .dense) = denses.map fun info => .single (.dense info) := by
  induction denses with
  | nil => rfl
  | cons d denses ih =>
    cases denses with
    | nil => rfl
    | cons d' denses => exact congrArg (List.cons _) ih

theorem buildCalls_blocks {head : LayerInfo} (hhead : IsHead head) (fuse : Bool)
    (blocks : List Block) (denses : List DenseInfo) :
    buildCalls fuse (blockLayers blocks head denses) =
      blocks.flatMap (Block.calls fuse) ++
        .single head :: denses.map fun info => .single (.dense info) := by
  cases fuse with
  | true =>
    show fusedCalls _ = _
    induction blocks with
    | nil =>
      show fusedCalls (head :: denses.map .dense) = _
      rw [fusedCalls_cons, fusedCalls_denses]
      · rfl
      · rcases hhead with ⟨name, rfl⟩ | ⟨name, rfl⟩ <;> simp
      · rcases hhead with ⟨name, rfl⟩ | ⟨name, rfl⟩ <;> simp
    | cons b blocks ih =>
      rw [blockLayers, List.flatMap_cons, List.append_assoc, fusedCalls_block, List.flatMap_cons,
        List.append_assoc, ← ih]
      rfl
  | false =>
    have hblock : ∀ b : Block, b.layers.map BuildCall.single = b.calls false := by
      rintro ⟨conv2d, bn, name, activation, pool⟩
      cases bn <;> cases pool <;> rfl
    simp [buildCalls, blockLayers, List.map_flatMap, hblock, Function.comp_def]

theorem fusesNoDense_blocks {head : LayerInfo} (hhead : IsHead head) (blocks : List Block)
    (denses : List DenseInfo) : FusesNoDense (blockLayers blocks head denses) := by
  intro info bn h
  have hcalls := buildCalls_blocks hhead true blocks denses
  rw [show fusedCalls (blockLayers blocks head denses) = _ from hcalls] at h
  rcases List.mem_append.1 h with h | h
  · obtain ⟨b, -, hb⟩ := List.mem_flatMap.1 h
    obtain ⟨conv2d, obn, name, activation, pool⟩ := b
    cases obn <;> cases pool <;> simp [Block.calls] at hb
  · simp at h

theorem activation_mem_blocks {head : LayerInfo} (hhead : IsHead head) {blocks : List Block}
    {denses : List DenseInfo} {name activation : String}
    (h : .activation name activation ∈ blockLayers blocks head denses) :
    ∃ b ∈ blocks, b.activation = activation := by
  rcases List.mem_append.1 h with h | h
  · obtain ⟨b, hb, hmem⟩ := List.mem_flatMap.1 h
    refine ⟨b, hb, ?_⟩
    obtain ⟨conv2d, bn, name', activation', pool⟩ := b
    cases bn <;> cases pool <;> simp [Block.layers] at hmem <;> exact hmem.2.symm
  · rcases hhead with ⟨name', rfl⟩ | ⟨name', rfl⟩ <;> simp at h

/-! ## The invariant along a network of blocks -/

variable {K V : Type} [Field K]

theorem along_flatMap {ι : Type} {P : OptOption K → BuildCall → Shape → Prop} {l : List ι}
    {f : ι → List BuildCall} (h : ∀ i ∈ l, ∀ o s, Along P o (f i) s) :
    ∀ o s, Along P o (l.flatMap f) s := by
  induction l with
  | nil => exact fun _ _ => trivial
  | cons i l ih =>
    intro o s
    exact along_append (h i List.mem_cons_self o s) fun o' s' _ =>
      ih (fun j hj => h j (List.mem_cons_of_mem _ hj)) o' s'

/-- Whatever is pending before a block, its convolution takes it. -/
theorem safeCalls_block (fuse : Bool) (b : Block) (o : OptOption K) (s : Shape) :
    SafeCalls o (b.calls fuse) s := by
  obtain ⟨conv2d, bn, name, activation, pool⟩ := b
  obtain ⟨hcoeff, hpool⟩ := parts_takeFolding o
  have hact : ∀ (o : OptOption K) (s : Shape), coeffPart o = 1 → poolPart o = 1 →
      SafeCalls o (.single (.activation name activation) ::
        pool.toList.map fun pool => .single (.averagePooling2D pool)) s := by
    intro o s hc hp
    refine ⟨⟨hc, hp⟩, fun s' _ => ?_⟩
    cases pool with
    | none => trivial
    | some pool =>
      refine ⟨fun _ => ?_, fun _ _ => trivial⟩
      simp only [optionAfter]
      split <;> exact hp
  cases bn with
  | none => exact ⟨trivial, fun s' _ => hact _ s' hcoeff hpool⟩
  | some bn =>
    cases fuse with
    | true => exact ⟨trivial, fun s' _ => hact _ s' hcoeff hpool⟩
    | false => exact ⟨trivial, fun s' _ => ⟨⟨hcoeff, hpool⟩, fun s'' _ => hact _ s'' hcoeff hpool⟩⟩

theorem safeCalls_blocks {head : LayerInfo} (hhead : IsHead head) (fuse : Bool)
    (blocks : List Block) (denses : List DenseInfo) (o : OptOption K) (s : Shape) :
    SafeCalls o (buildCalls fuse (blockLayers blocks head denses)) s := by
  rw [buildCalls_blocks hhead]
  refine along_append (along_flatMap (fun b _ o s => safeCalls_block fuse b o s) o s) fun o s _ => ?_
  have hdenses : ∀ o s, SafeCalls (K := K) o (denses.map fun info => .single (.dense info)) s := by
    induction denses with
    | nil => exact fun _ _ => trivial
    | cons d denses ih => exact fun o s => ⟨trivial, fun s' _ => ih _ s'⟩
  refine ⟨?_, fun s' _ => hdenses _ s'⟩
  rcases hhead with ⟨name, rfl⟩ | ⟨name, rfl⟩ <;> trivial

section Exact

variable [LinearOrder K] [CommRing V] [Algebra K V] {c : Define K} {file : H5File K}

/-- The last dense layer takes what is pending. -/
theorem pending_dense (calls : List BuildCall) (info : DenseInfo) (o : OptOption K) (v : Value V) :
    pending (storedRun c file (calls ++ [.single (.dense info)]) o v).1 = 1 := by
  simp only [storedRun, List.foldl_append, List.foldl_cons, List.foldl_nil, storedStep, optionAfter,
    pending_descend]
  exact pending_takeFolding _

theorem pending_blocks {head : LayerInfo} (hhead : IsHead head) (fuse : Bool) (blocks : List Block)
    {denses : List DenseInfo} (hdense : denses ≠ []) (o : OptOption K) (v : Value V) :
    pending (storedRun c file (buildCalls fuse (blockLayers blocks head denses)) o v).1 = 1 := by
  rw [buildCalls_blocks hhead, ← List.dropLast_append_getLast hdense, List.map_append, List.map_cons,
    List.map_nil, ← List.cons_append, ← List.append_assoc]
  exact pending_dense _ _ o v

omit [LinearOrder K] in
theorem pending_computeOption (level : EOptLevel) (act : EActivation) (model : String) :
    pending (computeOption c level act model) = 1 := by
  obtain ⟨coeff, h⟩ := computeOption_eq c level act model
  rw [h]
  cases level <;> simp [OptOption.new, pending, coeffPart, poolPart]

/-- A model with safe calls that leave nothing pending is built and computes the model under
`effective`, if its weights are in the file, its activations are registered and dispatch, and no
folded weight is below `EPSILON`. -/
theorem buildAndPredict_effective {layers : List LayerInfo} {h w n units : ℕ}
    (hm : IsModel layers h w n units) (hdata : ModelData file layers (.image h w n))
    {level : EOptLevel} {act : EActivation} {model : String}
    (hact : ∀ name activation, .activation name activation ∈ layers →
      Registered (computeOption c level act model) activation ∧
        Dispatches (computeOption c level act model) activation)
    (hfuse : (computeOption c level act model).enableFuseLayers = true → FusesNoDense layers)
    (hsafe : SafeCalls (computeOption c level act model)
      (buildCalls (computeOption c level act model).enableFuseLayers layers) (.image h w n))
    (hu : Along (Unclamped c file) (computeOption c level act model)
      (buildCalls (computeOption c level act model).enableFuseLayers layers) (.image h w n))
    {t : Tensor3 V} (ht : (t.height, t.width, t.channels) = (h, w, n))
    (hend : pending (storedRun c file
      (buildCalls (computeOption c level act model).enableFuseLayers layers)
      (computeOption c level act model) (.image t)).1 = 1) :
    buildAndPredict ⟨.exact V, .unbounded, c⟩ file layers .fresh
      (computeOption c level act model) t =
      .ok (Keras.predict c (effective c (computeOption c level act model)) file layers t) := by
  obtain ⟨⟨network, st⟩, hbuild⟩ := buildNetwork_succeeds (V := V) (c := c) hm hdata
    (fun name activation hmem => (hact name activation hmem).1) hfuse
  refine (bind_of_ok hbuild _).trans ?_
  have hdisp : AllDispatch (computeOption c level act model) layers :=
    fun name activation hmem => (hact name activation hmem).2
  obtain ⟨hoption, -⟩ := predict_stored (I := exactInterp K V) hm hbuild ht
    (repImage_exact t _ 1) hdisp fun _ _ => trivial
  refine predict_effective hm hbuild ht hdisp (pending_computeOption level act model) hsafe hu ?_
  rw [hoption]
  exact hend

omit [LinearOrder K] in
/-- The calls of unfused layers are safe under an invariant that makes the next call safe and that
the call keeps. -/
theorem safeCalls_of_step (inv : OptOption K → List LayerInfo → Prop)
    (hstep : ∀ {o l layers}, inv o (l :: layers) → ∀ s,
      SafeCall o (.single l) ∧ inv (optionAfter id o s (.single l)) layers)
    {o : OptOption K} {layers : List LayerInfo} (h : inv o layers) (s : Shape) :
    SafeCalls o (layers.map .single) s := by
  induction layers generalizing o s with
  | nil => trivial
  | cons l layers ih => exact ⟨(hstep h s).1, fun s' _ => ih (hstep h s).2 s'⟩

/-- What every call keeps holds of the option at the end. -/
theorem storedRun_of_step (inv : OptOption K → List LayerInfo → Prop)
    (hstep : ∀ {o l layers}, inv o (l :: layers) → ∀ s, inv (optionAfter id o s (.single l)) layers)
    {o : OptOption K} {layers : List LayerInfo} (h : inv o layers) (v : Value V) :
    inv (storedRun c file (layers.map .single) o v).1 [] := by
  induction layers generalizing o v with
  | nil => exact h
  | cons l layers ih =>
    rw [List.map_cons, storedRun_cons]
    exact ih (hstep h v.shape) _

/-- Without fused layers, a network that is built computes the model under `effective`, if its calls
are safe and leave nothing pending. -/
theorem predict_unfused [IsStrictOrderedRing K] (hε : c.epsilon = 0) {layers : List LayerInfo}
    {h w n units : ℕ} (hm : IsModel layers h w n units) {o : OptOption K}
    (hfuse : o.enableFuseLayers = false) (hstart : pending o = 1)
    (hsafe : SafeCalls o (layers.map .single) (.image h w n)) {network : List (Layer K)}
    {st : BuildState K}
    (hbuild : buildNetwork ⟨.exact V, .unbounded, c⟩ file layers .fresh o = .ok (network, st))
    (hdisp : AllDispatch o layers) {input : Tensor3 V}
    (hdims : (input.height, input.width, input.channels) = (h, w, n))
    (hend : pending (storedRun c file (layers.map .single) o (.image input)).1 = 1) :
    predict (.exact V) .unbounded st.option network input =
      .ok (Keras.predict c (effective c o) file layers input) := by
  have hcalls : buildCalls o.enableFuseLayers layers = layers.map .single := by
    rw [hfuse]
    rfl
  obtain ⟨hoption, -⟩ := predict_stored (I := exactInterp K V) hm hbuild hdims
    (repImage_exact input _ 1) hdisp fun _ _ => trivial
  refine predict_effective hm hbuild hdims hdisp hstart ?_ (unclamped_zero hε _ _ _) ?_
  · rw [hcalls]
    exact hsafe
  · rw [hoption, hcalls]
    exact hend

/-- In exact arithmetic, a network of blocks computes the model under `effective`. -/
theorem buildAndPredict_blocks {head : LayerInfo} (hhead : IsHead head) {blocks : List Block}
    {denses : List DenseInfo} (hdense : denses ≠ []) {h w n units : ℕ}
    (hm : IsModel (blockLayers blocks head denses) h w n units)
    (hdata : ModelData file (blockLayers blocks head denses) (.image h w n)) {level : EOptLevel}
    {act : EActivation} {model : String}
    (hact : ∀ b ∈ blocks, Registered (computeOption c level act model) b.activation ∧
      Dispatches (computeOption c level act model) b.activation)
    (hu : Along (Unclamped c file) (computeOption c level act model)
      (buildCalls (computeOption c level act model).enableFuseLayers
        (blockLayers blocks head denses)) (.image h w n))
    {t : Tensor3 V} (ht : (t.height, t.width, t.channels) = (h, w, n)) :
    buildAndPredict ⟨.exact V, .unbounded, c⟩ file (blockLayers blocks head denses) .fresh
      (computeOption c level act model) t =
      .ok (Keras.predict c (effective c (computeOption c level act model)) file
        (blockLayers blocks head denses) t) :=
  buildAndPredict_effective hm hdata
    (fun name activation hmem => by
      obtain ⟨b, hb, rfl⟩ := activation_mem_blocks hhead hmem
      exact hact b hb)
    (fun _ => fusesNoDense_blocks hhead blocks denses) (safeCalls_blocks hhead _ blocks denses _ _) hu
    ht (pending_blocks hhead _ blocks hdense _ _)

end Exact

/-! ## Rational networks -/

/-- The constants of the source, with no rounding of small weights. -/
def unroundedDefine : Define ℚ := { Define.source Rat.sqrt with epsilon := 0 }

/-- All weights are 1. -/
def oneFile : H5File ℚ := unitFile fun _ => 1

end Cnn
