import PPCNN.Cnn.Architecture
import PPCNN.Cnn.Proof.MachineNetwork
import PPCNN.Keras.DenseStack

/-!
# Square activations

`compute` chooses the leading coefficient of a swish polynomial by the name of the model, and leaves
it zero for other models; `buildActivation` lets it wait after every activation. So in a network of
square activations, optimised activations multiply the features before the dense layers by zero:
`square_optActivation` says which networks do not notice.
-/

set_option autoImplicit false

namespace Cnn

open Lib Keras Proof

variable {K V : Type} [Field K] [CommRing V] [Algebra K V]

/-! ## Features -/

/-- The layers before the dense layers. -/
def featureLayers (blocks : List Block) (head : LayerInfo) : List LayerInfo :=
  blocks.flatMap Block.layers ++ [head]

theorem blockLayers_eq (blocks : List Block) (head : LayerInfo) (denses : List DenseInfo) :
    blockLayers blocks head denses = featureLayers blocks head ++ denses.map .dense := by
  simp [blockLayers, featureLayers]

/-- The features of a model are a vector, of a length its dense layers accept. -/
theorem featureLayers_units {blocks : List Block} {name : String} {denses : List DenseInfo} {s : Shape}
    {units : ℕ} (hs : outShapes (blockLayers blocks (.flatten name) denses) s = some (.units units)) :
    ∃ m, outShapes (featureLayers blocks (.flatten name)) s = some (.units m) ∧
      outShapes (denses.map .dense) (.units m) = some (.units units) := by
  rw [blockLayers_eq, outShapes_append] at hs
  obtain ⟨s1, hs1, hs⟩ := Option.bind_eq_some_iff.1 hs
  have hunits : ∃ m, s1 = .units m := by
    rw [featureLayers, outShapes_append] at hs1
    obtain ⟨s2, -, hs2⟩ := Option.bind_eq_some_iff.1 hs1
    obtain ⟨s3, hs3, hs2⟩ := outShapes_cons.1 hs2
    cases hs2
    cases s2 with
    | image h w n => exact ⟨_, (Option.some.inj hs3).symm⟩
    | units m => cases hs3
  obtain ⟨m, rfl⟩ := hunits
  exact ⟨m, hs1, hs⟩

/-- A model computes its features, then its dense layers. -/
theorem run_blockLayers (c : Define K) (sem : Semantics K V) (file : H5File K) {blocks : List Block}
    {name : String} {denses : List DenseInfo} {m : ℕ} {t : Tensor3 V}
    (hs : outShapes (featureLayers blocks (.flatten name)) (Value.image t).shape = some (.units m)) :
    run c sem file (blockLayers blocks (.flatten name) denses) (.image t) =
      run c sem file (denses.map .dense)
        (.units (Keras.predict c sem file (featureLayers blocks (.flatten name)) t)) := by
  rw [blockLayers_eq, run_append, run_image hs]

/-! ## Features of zero -/

theorem layer_pool_scale (c : Define K) (sem : Semantics K V) (file : H5File K)
    (info : AveragePooling2DInfo) (f : K) (v : Value V) :
    layer c sem file (.averagePooling2D info) (v.scale f) =
      (layer c sem file (.averagePooling2D info) v).scale f := by
  cases v with
  | image t =>
    refine congrArg Value.image ?_
    show poolImage _ info _ (scale f t) = scale f _
    simp only [poolImage, onWindows, scale_height, scale_width]
    split
    · exact Windows.averagePool_smul _ f t
    · rfl
  | units u => rfl

theorem layer_flatten_scale (c : Define K) (sem : Semantics K V) (file : H5File K) (name : String)
    (f : K) (v : Value V) :
    layer c sem file (.flatten name) (v.scale f) = (layer c sem file (.flatten name) v).scale f := by
  cases v with
  | image t => exact congrArg Value.units (toUnits_scale f t)
  | units u => rfl

/-- If activations multiply by zero, the features are zero. -/
theorem features_zero (c : Define K) (file : H5File K) {sem : Semantics K V} {g : String → V → V}
    (hzero : ∀ activation x, sem.activation activation x = (0 : K) • g activation x)
    {blocks : List Block} (hblocks : blocks ≠ []) (name : String) (v : Value V) :
    ∃ v' : Value V, run c sem file (featureLayers blocks (.flatten name)) v = v'.scale (0 : K) := by
  obtain ⟨init, b, rfl⟩ := blocks.eq_nil_or_concat.resolve_left hblocks
  obtain ⟨conv2d, bn, actName, activation, pool⟩ := b
  have hact : ∀ v : Value V, layer c sem file (.activation actName activation) v =
      (v.map (g activation)).scale (0 : K) := by
    intro v
    have hfun : sem.activation activation = fun x => (0 : K) • g activation x :=
      funext (hzero activation)
    rw [layer, hfun]
    cases v <;> simp [Value.map, Value.scale, Tensor3.map_map, Function.comp_def]
  have hsplit : featureLayers (init.concat ⟨conv2d, bn, actName, activation, pool⟩) (.flatten name) =
      (init.flatMap Block.layers ++ .conv2D conv2d :: bn.toList.map .batchNormalization) ++
        .activation actName activation :: (pool.toList.map .averagePooling2D ++ [.flatten name]) := by
    simp [featureLayers, Block.layers]
  rw [hsplit, run_append]
  generalize run c sem file (init.flatMap Block.layers ++ _) v = u
  cases pool with
  | none =>
    refine ⟨layer c sem file (.flatten name) (u.map (g activation)), ?_⟩
    simp only [run, Option.toList, List.map_nil, List.nil_append, List.foldl_cons, List.foldl_nil]
    rw [hact, layer_flatten_scale]
  | some pool =>
    refine ⟨layer c sem file (.flatten name)
      (layer c sem file (.averagePooling2D pool) (u.map (g activation))), ?_⟩
    simp only [run, Option.toList, List.map_cons, List.map_nil, List.cons_append, List.nil_append,
      List.foldl_cons, List.foldl_nil]
    rw [hact, layer_pool_scale, layer_flatten_scale]

/-- With such activations a model returns what it returns with others exactly where the dense layers
map the features to their biases. -/
theorem predict_zero_iff (c : Define K) (file : H5File K) (sem sem' : Semantics K V)
    {g : String → V → V} (hzero : ∀ activation x, sem.activation activation x = (0 : K) • g activation x)
    {blocks : List Block} (hblocks : blocks ≠ []) {name : String} {denses : List DenseInfo}
    (hdense : denses ≠ []) {units : ℕ} {t : Tensor3 V}
    (hs : outShapes (blockLayers blocks (.flatten name) denses) (Value.image t).shape =
      some (.units units)) :
    Keras.predict c sem file (blockLayers blocks (.flatten name) denses) t =
        Keras.predict c sem' file (blockLayers blocks (.flatten name) denses) t ↔
      ∀ o < units, linear (denseProduct file denses)
        (Keras.predict c sem' file (featureLayers blocks (.flatten name)) t) o = 0 := by
  obtain ⟨m, hfeatures, hunits⟩ := featureLayers_units hs
  obtain ⟨v, hv⟩ := features_zero c file hzero hblocks name (.image t)
  rw [run_image hfeatures] at hv
  have hlinear : ∀ o, linear (denseProduct file denses)
      (Keras.predict c sem file (featureLayers blocks (.flatten name)) t) o = 0 := by
    intro o
    cases v with
    | image t' => cases hv
    | units u => rw [Value.units.inj hv, ← scaleUnits, linear_smul, zero_smul]
  calc Keras.predict c sem file (blockLayers blocks (.flatten name) denses) t =
        Keras.predict c sem' file (blockLayers blocks (.flatten name) denses) t
      ↔ run c sem file (blockLayers blocks (.flatten name) denses) (.image t) =
          run c sem' file (blockLayers blocks (.flatten name) denses) (.image t) := by
        rw [run_image hs, run_image hs, Value.units.injEq]
    _ ↔ _ := by
        rw [run_blockLayers c sem file hfeatures, run_blockLayers c sem' file hfeatures,
          run_denses_eq_iff c sem sem' file hdense hunits]
        exact forall₂_congr fun o _ => by rw [hlinear, eq_comm]

/-! ## Options without a coefficient -/

theorem computeOption_no_coeff (c : Define K) (level : EOptLevel) {model : String}
    (h4 : contains model "CKKS-swish_rg4_deg4" = false)
    (h6 : contains model "CKKS-swish_rg6_deg4" = false) :
    computeOption c level .default model = OptOption.new level .default := by
  simp [computeOption, h4, h6]

theorem effective_square_noOpt (c : Define K) {blocks : List Block} {head : LayerInfo}
    {denses : List DenseInfo} (hhead : ∃ name, head = .flatten name)
    (hsquare : ∀ b ∈ blocks, b.activation = squareName) :
    ∀ l ∈ blockLayers blocks head denses,
      (effective (V := V) c (OptOption.new .noOpt .default)).AgreeOn (reference V c) l := by
  obtain ⟨name, rfl⟩ := hhead
  intro l hl
  cases l with
  | activation actName activation =>
    obtain ⟨b, hb, rfl⟩ := activation_mem_blocks (.inl ⟨name, rfl⟩) hl
    funext x
    rw [hsquare b hb]
    simp [effective, OptOption.new, storedActivation, reference, Semantics.keras, Keras.activation,
      sq]
  | globalAveragePooling2D gap =>
    rcases List.mem_append.1 hl with hl | hl
    · obtain ⟨b, -, hmem⟩ := List.mem_flatMap.1 hl
      obtain ⟨conv2d, bn, actName, activation, pool⟩ := b
      cases bn <;> cases pool <;> simp [Block.layers] at hmem
    · simp at hl
  | conv2D info => exact fun _ _ => rfl
  | averagePooling2D info => exact fun _ _ => rfl
  | _ => trivial

/-! ## The three networks -/

variable [LinearOrder K] [IsStrictOrderedRing K]

/-- A square network at any level in a fresh process. -/
theorem buildAndPredict_square {c : Define K} (hε : c.epsilon = 0) {file : H5File K}
    {blocks : List Block} {name : String} {denses : List DenseInfo} (hdense : denses ≠ [])
    {h w n units : ℕ} (hm : IsModel (blockLayers blocks (.flatten name) denses) h w n units)
    (hbelow : ExtentsBelow (blockLayers blocks (.flatten name) denses) h w)
    (hdata : ModelData file (blockLayers blocks (.flatten name) denses) (.image h w n))
    (hsquare : ∀ b ∈ blocks, b.activation = squareName) {model : String}
    (h4 : contains model "CKKS-swish_rg4_deg4" = false)
    (h6 : contains model "CKKS-swish_rg6_deg4" = false) (level : EOptLevel) {input : Tensor3 V}
    (hdims : (input.height, input.width, input.channels) = (h, w, n)) :
    buildAndPredict ⟨.exact V, .lp64, c⟩ file (blockLayers blocks (.flatten name) denses) .fresh
      (computeOption c level .default model) input =
      .ok (Keras.predict c (effective c (OptOption.new level .default)) file
        (blockLayers blocks (.flatten name) denses) input) := by
  rw [← computeOption_no_coeff c level h4 h6, buildAndPredict_lp64 hm hbelow]
  refine buildAndPredict_blocks (.inl ⟨name, rfl⟩) hdense hm hdata (fun b hb => ?_)
    (unclamped_zero hε _ _ _) hdims
  exact ⟨.inl (.inl (hsquare b hb)), .inl (hsquare b hb)⟩

/-- The optimised levels return what the unoptimised one returns exactly where the dense layers map
the features to their biases. -/
theorem square_optActivation (c : Define K) (hε : c.epsilon = 0) (file : H5File K)
    (blocks : List Block) (name : String) (denses : List DenseInfo) (hdense : denses ≠ [])
    (h w n units : ℕ) (hm : IsModel (blockLayers blocks (.flatten name) denses) h w n units)
    (hbelow : ExtentsBelow (blockLayers blocks (.flatten name) denses) h w)
    (hdata : ModelData file (blockLayers blocks (.flatten name) denses) (.image h w n))
    (hsquare : ∀ b ∈ blocks, b.activation = squareName) (model : String)
    (h4 : contains model "CKKS-swish_rg4_deg4" = false)
    (h6 : contains model "CKKS-swish_rg6_deg4" = false) (input : Tensor3 V)
    (hdims : (input.height, input.width, input.channels) = (h, w, n)) :
    ∃ output outputAct outputAll,
      buildAndPredict ⟨.exact V, .lp64, c⟩ file (blockLayers blocks (.flatten name) denses)
        .fresh (computeOption c .noOpt .default model) input = .ok output ∧
      buildAndPredict ⟨.exact V, .lp64, c⟩ file (blockLayers blocks (.flatten name) denses)
        .fresh (computeOption c .optActivation .default model) input = .ok outputAct ∧
      buildAndPredict ⟨.exact V, .lp64, c⟩ file (blockLayers blocks (.flatten name) denses)
        .fresh (computeOption c .allOpt .default model) input = .ok outputAll ∧
      (outputAct = output ∧ outputAll = output ↔
        ∀ o < units, linear (denseProduct file denses)
          (Keras.predict c (reference V c) file (featureLayers blocks (.flatten name)) input) o = 0) := by
  refine ⟨_, _, _, buildAndPredict_square hε hdense hm hbelow hdata hsquare h4 h6 .noOpt hdims,
    buildAndPredict_square hε hdense hm hbelow hdata hsquare h4 h6 .optActivation hdims,
    buildAndPredict_square hε hdense hm hbelow hdata hsquare h4 h6 .allOpt hdims, ?_⟩
  rw [predict_congr (effective_square_noOpt c ⟨name, rfl⟩ hsquare)]
  have hblocks : blocks ≠ [] := by
    rintro rfl
    obtain ⟨info, rest, hfirst, -⟩ := hm.first
    cases hfirst
  have hshape : (Value.image input).shape = .image h w n := by
    simp only [Prod.mk.injEq] at hdims
    simp [Value.shape, hdims]
  have hlevel : ∀ level, (OptOption.new (K := K) level .default).enableOptimizeActivation = true →
      (OptOption.new (K := K) level .default).highestDegCoeff = 0 → _ := fun level hopt hcoeff =>
    predict_zero_iff c file (effective c (OptOption.new level .default)) (reference V c)
      (g := storedActivation c (OptOption.new level .default))
      (fun activation x => by simp [effective, hopt, hcoeff]) hblocks hdense (hshape ▸ hm.shapes)
  rw [hlevel .optActivation rfl rfl, hlevel .allOpt rfl rfl, and_self]

section Sample

def squareBlocks : List Block := [
  { conv2d := {
      name := "conv2d", batchInputShape := some (1, 1, 1), filters := 1, kernelSize := (1, 1)
      strides := (1, 1), padding := "valid", activation := "linear" }
    bn := none, name := "activation", activation := squareName, pool := none }]

def squareDenses : List DenseInfo := [{ name := "dense", units := 1, activation := "linear" }]

theorem squareBlocks_isModel :
    IsModel (blockLayers squareBlocks (.flatten "flatten") squareDenses) 1 1 1 1 where
  first := ⟨_, _, rfl, rfl⟩
  shapes := by decide
  channels := by decide
  validPool := by simp [squareBlocks, squareDenses, blockLayers, Block.layers, ValidPool]

theorem squareBlocks_modelData :
    ModelData oneFile (blockLayers squareBlocks (.flatten "flatten") squareDenses) (.image 1 1 1) := by
  refine ⟨⟨hasData_unitFile _ _ _, hasData_unitFile _ _ _⟩, ?_⟩
  rintro _ ⟨⟩
  refine ⟨trivial, ?_⟩
  rintro _ ⟨⟩
  refine ⟨trivial, ?_⟩
  rintro _ ⟨⟩
  exact ⟨⟨hasData_unitFile _ _ _, hasData_unitFile _ _ _⟩, fun _ _ => trivial⟩

theorem square_optActivation_sample : ∃ output outputAct outputAll,
    buildAndPredict ⟨.exact ℚ, .lp64, unroundedDefine⟩ oneFile
      (blockLayers squareBlocks (.flatten "flatten") squareDenses) .fresh
      (computeOption unroundedDefine .noOpt .default "HCNN") ⟨1, 1, 1, fun _ _ _ => 1⟩ = .ok output ∧
    buildAndPredict ⟨.exact ℚ, .lp64, unroundedDefine⟩ oneFile
      (blockLayers squareBlocks (.flatten "flatten") squareDenses) .fresh
      (computeOption unroundedDefine .optActivation .default "HCNN") ⟨1, 1, 1, fun _ _ _ => 1⟩ =
      .ok outputAct ∧
    buildAndPredict ⟨.exact ℚ, .lp64, unroundedDefine⟩ oneFile
      (blockLayers squareBlocks (.flatten "flatten") squareDenses) .fresh
      (computeOption unroundedDefine .allOpt .default "HCNN") ⟨1, 1, 1, fun _ _ _ => 1⟩ =
      .ok outputAll ∧
    (outputAct = output ∧ outputAll = output ↔
      ∀ o < 1, linear (denseProduct oneFile squareDenses)
        (Keras.predict unroundedDefine (reference ℚ unroundedDefine) oneFile
          (featureLayers squareBlocks (.flatten "flatten")) ⟨1, 1, 1, fun _ _ _ => 1⟩) o = 0) :=
  square_optActivation unroundedDefine rfl oneFile squareBlocks "flatten" squareDenses (by decide)
    1 1 1 1 squareBlocks_isModel
    ⟨by decide, by decide, by simp [squareBlocks, squareDenses, blockLayers, Block.layers, WindowBelow]⟩
    squareBlocks_modelData (by decide) "HCNN" (by decide) (by decide)
    ⟨1, 1, 1, fun _ _ _ => 1⟩ rfl

/-- A network with `(x + 1) ^ 2 + 1` at `NO_OPT` has 1 at the optimised levels. -/
theorem square_optActivation_differs :
    buildAndPredict ⟨.exact ℚ, .lp64, unroundedDefine⟩ oneFile
      (blockLayers squareBlocks (.flatten "flatten") squareDenses) .fresh
      (computeOption unroundedDefine .noOpt .default "HCNN") ⟨1, 1, 1, fun _ _ _ => 1⟩ = .ok [5] ∧
    buildAndPredict ⟨.exact ℚ, .lp64, unroundedDefine⟩ oneFile
      (blockLayers squareBlocks (.flatten "flatten") squareDenses) .fresh
      (computeOption unroundedDefine .optActivation .default "HCNN") ⟨1, 1, 1, fun _ _ _ => 1⟩ =
      .ok [1] ∧
    buildAndPredict ⟨.exact ℚ, .lp64, unroundedDefine⟩ oneFile
      (blockLayers squareBlocks (.flatten "flatten") squareDenses) .fresh
      (computeOption unroundedDefine .allOpt .default "HCNN") ⟨1, 1, 1, fun _ _ _ => 1⟩ =
      .ok [1] := by
  refine ⟨?_, ?_, ?_⟩ <;> decide +kernel

end Sample

end Cnn
