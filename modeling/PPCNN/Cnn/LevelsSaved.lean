import PPCNN.Cnn.Levels

/-!
# What the optimisations save (`BuildNetwork`)

`consumed_level` is bumped in the constructors, through a reference to the one option object.
`consumedLevel_saved`: what it counts in the end, for a list of layers, is the number of levels at
`NO_OPT` less what the optimisations of the level save.
-/

set_option autoImplicit false

namespace Cnn

open Lib Keras Proof

/-! ## Counts -/

def LayerInfo.hasActivation (activation : String) : LayerInfo → Bool
  | .activation _ activation' => activation' == activation
  | _ => false

def LayerInfo.isSwish (l : LayerInfo) : Bool :=
  l.hasActivation swishRg4Deg4Name || l.hasActivation swishRg6Deg4Name

/-- The levels without optimisations. -/
def noOptLevels (layers : List LayerInfo) : ℕ :=
  layers.countP (· matches .conv2D _) + layers.countP (· matches .dense _) +
    layers.countP (· matches .batchNormalization _) + layers.countP (· matches .averagePooling2D _) +
    layers.countP (·.hasActivation squareName) + 3 * layers.countP (·.isSwish)

/-- A `Conv2D` or a `Dense`, and a `BatchNormalization` after it. -/
def fusable (layer next : LayerInfo) : Bool :=
  ((layer matches .conv2D _) || (layer matches .dense _)) && (next matches .batchNormalization _)

/-- The positions of the list at which a layer is fused with the next one. -/
def fusablePairs (layers : List LayerInfo) : ℕ :=
  (layers.zip layers.tail).countP fun p => fusable p.1 p.2

/-- What an optimisation level saves. -/
def savedLevels : EOptLevel → List LayerInfo → ℕ
  | .noOpt, _ => 0
  | .fuseLayers, layers => fusablePairs layers
  | .optActivation, layers => layers.countP (·.isSwish)
  | .optPooling, layers => layers.countP (· matches .averagePooling2D _)
  | .allOpt, layers =>
    fusablePairs layers + layers.countP (·.isSwish) + layers.countP (· matches .averagePooling2D _)

/-! ## Fusing -/

variable {K : Type}

theorem fusablePairs_cons (layer next : LayerInfo) (layers : List LayerInfo) :
    fusablePairs (layer :: next :: layers) =
      fusablePairs (next :: layers) + if fusable layer next then 1 else 0 := by
  simp [fusablePairs, List.countP_cons]

/-- A batch normalisation begins no pair. -/
theorem fusablePairs_batchNormalization (bn : String) (layers : List LayerInfo) :
    fusablePairs (.batchNormalization bn :: layers) = fusablePairs layers := by
  cases layers with
  | nil => rfl
  | cons next layers => simp [fusablePairs_cons, fusable]

/-- Each pair saves the level of the batch normalisation. -/
theorem fusedCalls_levels (o : OptOption K) (layers : List LayerInfo) :
    ((fusedCalls layers).map (callLevels o)).sum + fusablePairs layers =
      (layers.map (layerLevels o)).sum := by
  fun_induction fusedCalls layers with
  | case1 => rfl
  | case2 layer => simp [callLevels, fusablePairs]
  | case3 conv2d bn layers ih =>
    simp [callLevels, layerLevels, fusablePairs_cons, fusablePairs_batchNormalization, fusable, ← ih]
    omega
  | case4 dense bn layers ih =>
    simp [callLevels, layerLevels, fusablePairs_cons, fusablePairs_batchNormalization, fusable, ← ih]
    omega
  | case5 layer next layers hconv hdense ih =>
    have hpair : fusable layer next = false := by
      rw [← Bool.not_eq_true]
      intro h
      cases next with
      | batchNormalization bn =>
        cases layer with
        | conv2D info => exact hconv info bn rfl rfl
        | dense info => exact hdense info bn rfl rfl
        | _ => cases h
      | _ => simp [fusable] at h
    simp only [List.map_cons, List.sum_cons, fusablePairs_cons, hpair, Bool.false_eq_true, if_false] at ih ⊢
    rw [← ih, callLevels]
    omega

theorem buildCalls_levels (o : OptOption K) (fuse : Bool) (layers : List LayerInfo) :
    ((buildCalls fuse layers).map (callLevels o)).sum + (if fuse then fusablePairs layers else 0) =
      (layers.map (layerLevels o)).sum := by
  cases fuse with
  | true => exact fusedCalls_levels o layers
  | false =>
    have hsingle : callLevels o ∘ BuildCall.single = layerLevels o := rfl
    simp [buildCalls, hsingle]

/-! ## Layers -/

theorem noOptLevels_cons (l : LayerInfo) (layers : List LayerInfo) :
    noOptLevels (l :: layers) = noOptLevels [l] + noOptLevels layers := by
  simp only [noOptLevels, List.countP_cons, List.countP_nil]
  omega

/-- The levels of a registered layer under the flags. -/
theorem layerLevels_saved {o : OptOption K} (hdefault : o.activation = .default) {l : LayerInfo}
    (hreg : ∀ name activation, l = .activation name activation → Registered o activation) :
    layerLevels o l + (if o.enableOptimizeActivation then [l].countP (·.isSwish) else 0) +
        (if o.enableOptimizePooling then [l].countP (· matches .averagePooling2D _) else 0) =
      noOptLevels [l] := by
  cases l with
  | activation name activation =>
    have hname := hreg name activation rfl
    simp only [Registered, hdefault] at hname
    obtain rfl | rfl | rfl : activation = squareName ∨ activation = swishRg4Deg4Name ∨
        activation = swishRg6Deg4Name := by simpa using hname
    all_goals
      cases hact : o.enableOptimizeActivation <;>
        simp [layerLevels, activationDepth, noOptLevels, LayerInfo.isSwish, LayerInfo.hasActivation,
          squareName, swishRg4Deg4Name, swishRg6Deg4Name, hdefault, hact]
  | averagePooling2D info =>
    cases hpool : o.enableOptimizePooling <;>
      simp [layerLevels, noOptLevels, LayerInfo.isSwish, LayerInfo.hasActivation, hpool]
  | _ => simp [layerLevels, noOptLevels, LayerInfo.isSwish, LayerInfo.hasActivation]

/-- The levels of registered layers under the flags. -/
theorem sum_layerLevels {o : OptOption K} (hdefault : o.activation = .default) {layers : List LayerInfo}
    (hreg : ∀ name activation, .activation name activation ∈ layers → Registered o activation) :
    (layers.map (layerLevels o)).sum +
        (if o.enableOptimizeActivation then layers.countP (·.isSwish) else 0) +
        (if o.enableOptimizePooling then layers.countP (· matches .averagePooling2D _) else 0) =
      noOptLevels layers := by
  induction layers with
  | nil => simp [noOptLevels]
  | cons l layers ih =>
    have htail := ih fun name activation hmem => hreg name activation (List.mem_cons_of_mem _ hmem)
    have hhead := layerLevels_saved hdefault fun name activation (hl : l = .activation name activation) =>
      hreg name activation (hl ▸ List.mem_cons_self)
    rw [noOptLevels_cons, ← hhead, ← htail]
    simp only [List.map_cons, List.sum_cons, List.countP_cons, List.countP_nil]
    cases o.enableOptimizeActivation <;> cases o.enableOptimizePooling <;>
      simp only [Bool.false_eq_true, if_true, if_false] <;> omega

/-! ## Networks -/

variable {Pt Ct : Type} [Field K] [LinearOrder K]

/-- What `BuildNetwork` counts, with what the optimisation level saves, is what `NO_OPT` needs. -/
theorem consumedLevel_saved (c : Define K) (level : EOptLevel) (model : String) {E : Env K Pt Ct}
    {file : H5File K} {layers : List LayerInfo} {next : NextLayer} {network : List (Layer Pt)}
    {st : BuildState K} (hbuild : buildNetwork E file layers next (computeOption c level .default model) =
      .ok (network, st)) :
    st.option.consumedLevel + savedLevels level layers = noOptLevels layers := by
  have hdefault := computeOption_activation c level .default model
  have hreg : ∀ name activation, .activation name activation ∈ layers →
      Registered (computeOption c level .default model) activation := fun name activation hmem =>
    registered_of_buildLayers hbuild _ (activation_mem_buildCalls hmem)
  have hconsumed : st.option.consumedLevel = (computeOption c level .default model).consumedLevel +
      ((buildCalls (computeOption c level .default model).enableFuseLayers layers).map
        (callLevels (computeOption c level .default model))).sum := buildLayers_consumed hbuild
  have hcalls := buildCalls_levels (computeOption c level .default model)
    (computeOption c level .default model).enableFuseLayers layers
  have hlayers := sum_layerLevels hdefault hreg
  have hsaved : savedLevels level layers =
      (if (computeOption c level .default model).enableFuseLayers then fusablePairs layers else 0) +
      (if (computeOption c level .default model).enableOptimizeActivation then
        layers.countP (·.isSwish) else 0) +
      (if (computeOption c level .default model).enableOptimizePooling then
        layers.countP (· matches .averagePooling2D _) else 0) := by
    obtain ⟨coeff, ho⟩ := computeOption_eq c level .default model
    rw [ho]
    cases level <;> simp [savedLevels, OptOption.new]
  rw [computeOption_consumedLevel, Nat.zero_add] at hconsumed
  rw [hconsumed, hsaved, ← hlayers, ← hcalls]
  omega

def normalisedLayers : List LayerInfo :=
  [unitConv "conv2d" (some (2, 2, 1)), .batchNormalization "batch_normalization",
    .activation "activation" "swish_rg4_deg4", squarePool "average_pooling2d" 2, .flatten "flatten",
    unitDense "dense"]

theorem consumedLevel_saved_sample : ∃ network st,
    buildNetwork ⟨.exact ℚ, .lp64, Define.source fun _ => 1⟩ sampleFile normalisedLayers .fresh
      (computeOption (Define.source fun _ => 1) .allOpt .default "CKKS-swish_rg4_deg4") =
      .ok (network, st) ∧
    st.option.consumedLevel + 3 = 7 := by
  have hlength : (buildNetwork ⟨.exact ℚ, .lp64, Define.source fun _ => 1⟩ sampleFile
      normalisedLayers .fresh (computeOption (Define.source fun _ => 1) .allOpt .default
        "CKKS-swish_rg4_deg4")).map (fun p => p.1.length) = .ok 5 := by
    decide +kernel
  obtain ⟨⟨network, st⟩, hbuild, -⟩ := map_eq_ok.1 hlength
  exact ⟨network, st, hbuild, consumedLevel_saved _ .allOpt "CKKS-swish_rg4_deg4" hbuild⟩

end Cnn
