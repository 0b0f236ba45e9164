import PPCNN.Cnn.Architecture
import PPCNN.Cnn.Proof.MachineNetwork
import PPCNN.Cnn.Rebuild

/-!
# All optimisations at once

At `ALL_OPT` batch normalisations are fused, leading coefficients and pooling divisors deferred, and
global averages divided later. `allOpt_computes_model`: a network of blocks with one swish
polynomial and extents below `2 ^ 24` computes the reference model, also in a process that has built
other models. One row more than a `float` counts, and it computes nothing
(`allOpt_computes_model_differs`).
-/

set_option autoImplicit false

namespace Cnn

open Lib Keras Proof

variable {K V : Type} [Field K] [LinearOrder K] [CommRing V] [Algebra K V]

/-- The activation name and the override of a computation choose the table `t`. -/
def ChoosesSwish (c : Define K) (act : EActivation) (activation : String) (t : SwishCoeffs K) : Prop :=
  (activation = swishRg4Deg4Name ∧ t = c.swishRg4Deg4 ∧ (act = .default ∨ act = .swishRg4Deg4)) ∨
  (activation = swishRg6Deg4Name ∧ t = c.swishRg6Deg4 ∧ (act = .default ∨ act = .swishRg6Deg4))

omit [Field K] [LinearOrder K] in
/-- The constructor of `Activation` takes the chosen table. -/
theorem ChoosesSwish.swishTable {c : Define K} {act : EActivation} {activation : String}
    {t : SwishCoeffs K} (h : ChoosesSwish c act activation t) {o : OptOption K}
    (hact : o.activation = act) : Proof.swishTable c o activation = t ∧ activation ≠ squareName := by
  rcases h with ⟨rfl, rfl, -⟩ | ⟨rfl, rfl, hoverride⟩
  · exact ⟨if_pos (.inl rfl), by decide⟩
  · refine ⟨if_neg ?_, by decide⟩
    rw [hact]
    rcases hoverride with rfl | rfl <;> decide

omit [LinearOrder K] in
theorem ChoosesSwish.keras {c : Define K} {act : EActivation} {activation : String}
    {t : SwishCoeffs K} (h : ChoosesSwish c act activation t) (x : V) :
    Keras.activation c activation x = swish t x := by
  rcases h with ⟨rfl, rfl, -⟩ | ⟨rfl, rfl, -⟩
  · rw [Keras.activation, if_neg (by decide), if_pos rfl]
  · rw [Keras.activation, if_neg (by decide), if_neg (by decide), if_pos rfl]

omit [LinearOrder K] in
theorem ChoosesSwish.storedActivation {c : Define K} {act : EActivation} {activation : String}
    {t : SwishCoeffs K} (h : ChoosesSwish c act activation t) (ht : t.Exact) {o : OptOption K}
    (hact : o.activation = act) (hopt : o.enableOptimizeActivation = true) (x : V) :
    t.a • Proof.storedActivation c o activation x = Keras.activation c activation x := by
  obtain ⟨htable, hsquare⟩ := h.swishTable hact
  rw [Proof.storedActivation, if_neg hsquare, htable, if_pos hopt, swish_exact ht, h.keras]

omit [Field K] [LinearOrder K] in
theorem ChoosesSwish.registered {c : Define K} {act : EActivation} {activation : String}
    {t : SwishCoeffs K} (h : ChoosesSwish c act activation t) {o : OptOption K}
    (hact : o.activation = act) : Registered o activation ∧ Dispatches o activation := by
  have hsquare : o.activation ≠ .square := by
    rw [hact]
    rcases h with ⟨-, -, rfl | rfl⟩ | ⟨-, -, rfl | rfl⟩ <;> decide
  rcases h with ⟨rfl, -⟩ | ⟨rfl, -⟩
  · exact ⟨.inr (.inl (.inl rfl)), .inr hsquare⟩
  · exact ⟨.inr (.inr (.inl rfl)), .inr hsquare⟩

omit [LinearOrder K] in
theorem computeOption_allOpt (c : Define K) (act : EActivation) (model : String) :
    (computeOption c .allOpt act model).enableFuseLayers = true ∧
      (computeOption c .allOpt act model).enableOptimizeActivation = true ∧
      (computeOption c .allOpt act model).enableOptimizePooling = true := by
  obtain ⟨coeff, h⟩ := computeOption_eq c .allOpt act model
  rw [h]
  exact ⟨rfl, rfl, rfl⟩

omit [LinearOrder K] in
/-- The semantics the flags of `ALL_OPT` give is the one of the reference. -/
theorem allOpt_agreeOn {c : Define K} {act : EActivation} {model activation : String}
    {t : SwishCoeffs K} {head : LayerInfo} {blocks : List Block} {denses : List DenseInfo}
    (hhead : IsHead head) (ht : t.Exact) (hchooses : ChoosesSwish c act activation t)
    (hsame : ∀ b ∈ blocks, b.activation = activation)
    (hcoeff : (computeOption c .allOpt act model).highestDegCoeff = t.a)
    (hstrides : ∀ b ∈ blocks, b.conv2d.strides.1 ≤ b.conv2d.kernelSize.1 ∧
      b.conv2d.strides.2 ≤ b.conv2d.kernelSize.2)
    (hvalid : ∀ l ∈ blockLayers blocks head denses, ValidPool l) :
    ∀ l ∈ blockLayers blocks head denses,
      (effective (V := V) c (computeOption c .allOpt act model)).AgreeOn (.keras V c) l := by
  obtain ⟨-, hopt, hpool⟩ := computeOption_allOpt c act model
  intro l hl
  cases l with
  | conv2D info =>
    rcases List.mem_append.1 hl with hl | hl
    · obtain ⟨b, hb, hmem⟩ := List.mem_flatMap.1 hl
      have hinfo : info = b.conv2d := by
        obtain ⟨conv2d, bn, name, activation, pool⟩ := b
        cases bn <;> cases pool <;> simpa [Block.layers] using hmem
      exact windows_samePadAxis (.inr (hinfo ▸ hstrides b hb))
    · rcases hhead with ⟨name, rfl⟩ | ⟨name, rfl⟩ <;> simp at hl
  | averagePooling2D info => exact windows_samePadAxis (.inl (hvalid _ hl))
  | activation name activation' =>
    obtain ⟨b, hb, rfl⟩ := activation_mem_blocks hhead hl
    funext x
    rw [hsame b hb]
    simp only [effective, Semantics.keras, if_pos hopt, hcoeff]
    exact hchooses.storedActivation ht (computeOption_activation c .allOpt act model) hopt x
  | globalAveragePooling2D name =>
    funext n
    exact if_pos hpool
  | _ => trivial

/-- At `ALL_OPT` the batch normalisations of the blocks are fused, and none reads the units of another
model. -/
theorem noStaleRead_blocks {head : LayerInfo} (hhead : IsHead head) (blocks : List Block)
    (denses : List DenseInfo) (u channels : ℕ) :
    NoStaleRead u (buildCalls true (blockLayers blocks head denses)) channels := by
  rw [buildCalls_blocks hhead]
  induction blocks generalizing channels with
  | nil => rcases hhead with ⟨name, rfl⟩ | ⟨name, rfl⟩ <;> trivial
  | cons b blocks ih =>
    obtain ⟨conv2d, bn, name, activation, pool⟩ := b
    rw [List.flatMap_cons, List.append_assoc]
    cases bn <;> cases pool <;> exact ih conv2d.filters

/-- The network of a computation at `ALL_OPT` returns the outputs of the trained model. -/
theorem allOpt_computes_model (c : Define K) (file : H5File K) (blocks : List Block)
    (head : LayerInfo) (denses : List DenseInfo) (hhead : IsHead head) (hdense : denses ≠ [])
    (h w n units : ℕ) (hm : IsModel (blockLayers blocks head denses) h w n units)
    (hbelow : ExtentsBelow (blockLayers blocks head denses) h w)
    (hdata : ModelData file (blockLayers blocks head denses) (.image h w n))
    (act : EActivation) (model activation : String) (t : SwishCoeffs K) (ht : t.Exact)
    (hchooses : ChoosesSwish c act activation t)
    (hsame : ∀ b ∈ blocks, b.activation = activation)
    (hcoeff : (computeOption c .allOpt act model).highestDegCoeff = t.a)
    (hstrides : ∀ b ∈ blocks, b.conv2d.strides.1 ≤ b.conv2d.kernelSize.1 ∧
      b.conv2d.strides.2 ≤ b.conv2d.kernelSize.2)
    (hu : Along (Unclamped c file) (computeOption c .allOpt act model)
      (buildCalls true (blockLayers blocks head denses)) (.image h w n))
    (next : NextLayer) (input : Tensor3 V)
    (hdims : (input.height, input.width, input.channels) = (h, w, n)) :
    buildAndPredict ⟨.exact V, .lp64, c⟩ file (blockLayers blocks head denses) next
      (computeOption c .allOpt act model) input =
      .ok (Keras.predict c (.keras V c) file (blockLayers blocks head denses) input) := by
  obtain ⟨hfuse, -⟩ := computeOption_allOpt c act model
  have hact : ∀ b ∈ blocks, Registered (computeOption c .allOpt act model) b.activation ∧
      Dispatches (computeOption c .allOpt act model) b.activation := fun b hb =>
    hsame b hb ▸ hchooses.registered (computeOption_activation c .allOpt act model)
  rw [buildAndPredict_fresh hm (.inr (by rw [hfuse]; exact noStaleRead_blocks hhead _ _ _ _)),
    buildAndPredict_lp64 hm hbelow,
    buildAndPredict_blocks hhead hdense hm hdata hact (by rw [hfuse]; exact hu) hdims,
    predict_congr (allOpt_agreeOn hhead ht hchooses hsame hcoeff hstrides hm.validPool)]

section Sample

def exactDefine : Define ℚ := (Define.source Rat.sqrt).exactTables

/-- Kernels are 2, variances 4 with `BN_EPSILON`, all other weights 1. -/
def allOptFile : H5File ℚ := unitFile fun key =>
  if key = kernelKey then 2 else if key = movingVarianceKey then 3999 / 1000 else 1

def sampleConv2D (name : String) (batchInputShape : Option (ℕ × ℕ × ℕ)) : Conv2DInfo where
  name := name
  batchInputShape := batchInputShape
  filters := 1
  kernelSize := (1, 1)
  strides := (1, 1)
  padding := "same"
  activation := "linear"

def sampleBlocks : List Block := [
  { conv2d := sampleConv2D "conv2d" (some (4, 4, 1)), bn := some "batch_normalization"
    name := "activation", activation := swishRg4Deg4Name
    pool := some {
      name := "average_pooling2d", poolSize := (2, 2), strides := (2, 2), padding := "valid" } },
  { conv2d := sampleConv2D "conv2d_1" none, bn := none
    name := "activation_1", activation := swishRg4Deg4Name, pool := none }]

def sampleDenses : List DenseInfo := [{ name := "dense", units := 1, activation := "linear" }]

def sampleHead : LayerInfo := .globalAveragePooling2D "global_average_pooling2d"

theorem sampleBlocks_isModel : IsModel (blockLayers sampleBlocks sampleHead sampleDenses) 4 4 1 1 where
  first := ⟨_, _, rfl, rfl⟩
  shapes := by decide
  channels := by decide
  validPool := by simp [sampleBlocks, sampleHead, sampleDenses, blockLayers, Block.layers, ValidPool]

theorem sampleBlocks_modelData :
    ModelData allOptFile (blockLayers sampleBlocks sampleHead sampleDenses) (.image 4 4 1) := by
  have hconv : ∀ (name : String) (shape : Option (ℕ × ℕ × ℕ)) (h w : ℕ),
      LayerData allOptFile (.conv2D (sampleConv2D name shape)) (.image h w 1) := fun _ _ _ _ =>
    ⟨hasData_unitFile _ _ _, hasData_unitFile _ _ _⟩
  refine ⟨hconv _ _ _ _, ?_⟩
  rintro _ ⟨⟩
  refine ⟨fun key _ => hasData_unitFile _ _ _, ?_⟩
  rintro _ ⟨⟩
  refine ⟨trivial, ?_⟩
  rintro _ ⟨⟩
  refine ⟨trivial, ?_⟩
  rintro _ ⟨⟩
  refine ⟨hconv _ _ _ _, ?_⟩
  rintro _ ⟨⟩
  refine ⟨trivial, ?_⟩
  rintro _ ⟨⟩
  refine ⟨trivial, ?_⟩
  rintro _ ⟨⟩
  exact ⟨⟨hasData_unitFile _ _ _, hasData_unitFile _ _ _⟩, fun _ _ => trivial⟩

theorem sampleBlocks_unclamped :
    Along (Unclamped exactDefine allOptFile)
      (computeOption exactDefine .allOpt .default "CKKS-swish_rg4_deg4")
      (buildCalls true (blockLayers sampleBlocks sampleHead sampleDenses)) (.image 4 4 1) := by
  refine ⟨by unfold Unclamped; decide +kernel, ?_⟩
  rintro _ ⟨⟩
  refine ⟨trivial, ?_⟩
  rintro _ ⟨⟩
  refine ⟨trivial, ?_⟩
  rintro _ ⟨⟩
  refine ⟨by unfold Unclamped; decide +kernel, ?_⟩
  rintro _ ⟨⟩
  refine ⟨trivial, ?_⟩
  rintro _ ⟨⟩
  refine ⟨trivial, ?_⟩
  rintro _ ⟨⟩
  exact ⟨by unfold Unclamped; decide +kernel, fun _ _ => trivial⟩

/-- In a process that has built a model with 7 units. -/
theorem allOpt_computes_model_sample :
    buildAndPredict ⟨.exact ℚ, .lp64, exactDefine⟩ allOptFile
      (blockLayers sampleBlocks sampleHead sampleDenses) ⟨1, 1, 1, 7⟩
      (computeOption exactDefine .allOpt .default "CKKS-swish_rg4_deg4")
      ⟨4, 4, 1, fun i j _ => (i : ℚ) + (j : ℚ)⟩ =
      .ok (Keras.predict exactDefine (.keras ℚ exactDefine) allOptFile
        (blockLayers sampleBlocks sampleHead sampleDenses) ⟨4, 4, 1, fun i j _ => i + j⟩) :=
  allOpt_computes_model exactDefine allOptFile sampleBlocks sampleHead sampleDenses
    (.inr ⟨_, rfl⟩) (by decide) 4 4 1 1 sampleBlocks_isModel
    ⟨by decide, by decide, by
      simp [sampleBlocks, sampleHead, sampleDenses, blockLayers, Block.layers, sampleConv2D, WindowBelow]⟩
    sampleBlocks_modelData .default "CKKS-swish_rg4_deg4" swishRg4Deg4Name exactDefine.swishRg4Deg4
    (SwishCoeffs.exact_exact (by decide +kernel)) (.inl ⟨rfl, rfl, .inl rfl⟩)
    (by decide) (by decide +kernel) (by decide) sampleBlocks_unclamped ⟨1, 1, 1, 7⟩ _ rfl

/-- A block on a column of `2 ^ 24 + 3` pixels. -/
def tallBlocks : List Block := [
  { conv2d := tallConv2D, bn := none, name := "activation", activation := swishRg4Deg4Name, pool := none }]

/-- Kernels are `2 ^ 20`, so that the divisor of the mean leaves no weight below `EPSILON`. -/
def tallFile : H5File ℚ := unitFile fun key => if key = kernelKey then 2 ^ 20 else 1

/-- All the conditions but the bound hold, and the computation does not return. -/
theorem allOpt_computes_model_differs :
    IsModel (blockLayers tallBlocks sampleHead sampleDenses) 16777219 1 1 1 ∧
    ModelData tallFile (blockLayers tallBlocks sampleHead sampleDenses) (.image 16777219 1 1) ∧
    exactDefine.swishRg4Deg4.Exact ∧
    ChoosesSwish exactDefine .default swishRg4Deg4Name exactDefine.swishRg4Deg4 ∧
    (computeOption exactDefine .allOpt .default "CKKS-swish_rg4_deg4").highestDegCoeff =
      exactDefine.swishRg4Deg4.a ∧
    Along (Unclamped exactDefine tallFile)
      (computeOption exactDefine .allOpt .default "CKKS-swish_rg4_deg4")
      (buildCalls true (blockLayers tallBlocks sampleHead sampleDenses)) (.image 16777219 1 1) ∧
    ∀ (input : Tensor3 ℚ) (output : List ℚ),
      buildAndPredict ⟨.exact ℚ, .lp64, exactDefine⟩ tallFile
        (blockLayers tallBlocks sampleHead sampleDenses) .fresh
        (computeOption exactDefine .allOpt .default "CKKS-swish_rg4_deg4") input ≠ .ok output := by
  refine ⟨⟨⟨_, _, rfl, rfl⟩, by decide +kernel, by decide, ?_⟩, ⟨⟨?_, ?_⟩, ?_⟩,
    SwishCoeffs.exact_exact (by decide +kernel), .inl ⟨rfl, rfl, .inl rfl⟩, by decide +kernel,
    ⟨?_, ?_⟩, ?_⟩
  · simp [tallBlocks, sampleHead, sampleDenses, blockLayers, Block.layers, ValidPool]
  · exact hasData_unitFile _ _ _
  · exact hasData_unitFile _ _ _
  · rintro _ ⟨⟩
    refine ⟨trivial, ?_⟩
    rintro _ ⟨⟩
    refine ⟨trivial, ?_⟩
    rintro _ ⟨⟩
    exact ⟨⟨hasData_unitFile _ _ _, hasData_unitFile _ _ _⟩, fun _ _ => trivial⟩
  · unfold Unclamped
    decide +kernel
  · rintro _ ⟨⟩
    refine ⟨trivial, ?_⟩
    rintro _ ⟨⟩
    refine ⟨trivial, ?_⟩
    rintro _ ⟨⟩
    exact ⟨by unfold Unclamped; decide +kernel, fun _ _ => trivial⟩
  · intro input output h
    obtain ⟨⟨network, st⟩, hbuild, hpredict⟩ := bind_eq_ok.1 h
    exact predict_tall hbuild _ _ _ hpredict

end Sample

end Cnn
