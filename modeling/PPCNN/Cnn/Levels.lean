import PPCNN.Cnn.Proof.Complete
import PPCNN.Cnn.Proof.MachineNetwork

/-!
# Levels and scales

`option.consumed_level` counts, in the builders, the levels the ciphertexts will have when the
network runs. `predict_levels`: with a chain of that length and extents below `2 ^ 24`, every operation
of `predict` finds its operands on the level and scale it needs, and the outputs are on the level
counted. On an extent that a `float` does not hold, an operation can find no operand at all
(`predict_levels_differs`).
-/

set_option autoImplicit false

namespace Cnn

open Lib Keras Proof

variable {K V : Type} [Field K] [LinearOrder K] [CommRing V] [Algebra K V]

/-- Every evaluator call of `predict` succeeds, on any chain that is long enough. -/
theorem predict_levels (c : Define K) (ch : Chain K) (file : H5File K) (layers : List LayerInfo)
    (h w n units : ℕ) (hm : IsModel layers h w n units) (hbelow : ExtentsBelow layers h w)
    (level : EOptLevel) (model : String) (network : List (Layer (Leveled K K))) (st : BuildState K)
    (hbuild : buildNetwork ⟨.leveled V ch, .lp64, c⟩ file layers .fresh
      (computeOption c level .default model) = .ok (network, st))
    (hchain : st.option.consumedLevel ≤ ch.length) (input : Tensor3 (Leveled K V))
    (hdims : (input.height, input.width, input.channels) = (h, w, n))
    (hinput : ∀ i j k, (input.cell i j k).level = 0 ∧ (input.cell i j k).scale = ch.scaleParam) :
    ∃ output σ, predict (.leveled V ch) .lp64 st.option network input = .ok output ∧
      output.length = units ∧
      ∀ y ∈ output, y.level = st.option.consumedLevel ∧ y.scale = σ := by
  obtain ⟨network', hbuild', hpredict⟩ := unbounded_of_lp64 hm hbelow hbuild
  rw [hpredict]
  have hrep : (leveledInterp V ch).RepImage (computeOption c level .default model).consumedLevel
      ch.scaleParam input (input.map Leveled.value) := by
    refine ⟨rfl, rfl, rfl, fun i j k => ?_⟩
    obtain ⟨hlevel, hscale⟩ := hinput i j k
    show input.cell i j k = ⟨_, _, (input.cell i j k).value⟩
    rw [computeOption_consumedLevel, ← hlevel, ← hscale]
  obtain ⟨-, y, u, σ, hy, hunits, hrepu⟩ := predict_stored (I := leveledInterp V ch) hm hbuild' hdims hrep
    (allDispatch_default (computeOption_activation c level .default model) layers)
    fun i hi => hi.trans_le hchain
  refine ⟨y, σ, hy, ?_, fun z hz => ?_⟩
  · have hshape : (storedRun c file
        (buildCalls (computeOption c level .default model).enableFuseLayers layers)
        (computeOption c level .default model) (.image (input.map Leveled.value))).2.shape =
        .units units := by
      refine storedRun_shape ?_
      simp only [Prod.mk.injEq] at hdims
      rw [callShapes_buildCalls, ← hm.shapes]
      simp [Value.shape, hdims]
    rw [hunits] at hshape
    rw [hrepu.length]
    exact Shape.units.inj hshape
  · obtain ⟨i, hi, rfl⟩ := List.getElem_of_mem hz
    have hrepi := (List.forall₂_iff_get.1 hrepu).2 i hi (hrepu.length ▸ hi)
    have hval : y[i] = ⟨_, σ, _⟩ := hrepi
    rw [hval]
    exact ⟨rfl, rfl⟩

section Sample

def sampleLayers : List LayerInfo :=
  [unitConv "conv2d" (some (2, 2, 1)), .activation "activation" "swish_rg4_deg4",
    squarePool "average_pooling2d" 2, .flatten "flatten", unitDense "dense"]

def sampleFile : H5File ℚ := unitFile fun key => if key = kernelKey then 2 else 1

def sampleChain : Chain ℚ := ⟨4, fun i => 1000 + i, 1000⟩

theorem sampleLayers_isModel : IsModel sampleLayers 2 2 1 1 where
  first := ⟨_, _, rfl, rfl⟩
  shapes := by decide
  channels := by decide
  validPool := by simp [sampleLayers, unitConv, squarePool, unitDense, ValidPool]

theorem predict_levels_sample : ∃ network st output,
    buildNetwork ⟨.leveled ℚ sampleChain, .lp64, Define.source fun _ => 1⟩ sampleFile sampleLayers
      .fresh (computeOption (Define.source fun _ => 1) .allOpt .default "CKKS-swish_rg4_deg4") =
      .ok (network, st) ∧
    predict (.leveled ℚ sampleChain) .lp64 st.option network
      ⟨2, 2, 1, fun i j _ => ⟨0, 1000, i + j⟩⟩ = .ok output ∧
    output.length = 1 ∧ ∀ y ∈ output, y.level = 4 := by
  have hlevel : (buildNetwork ⟨.leveled ℚ sampleChain, .lp64, Define.source fun _ => 1⟩ sampleFile
      sampleLayers .fresh (computeOption (Define.source fun _ => 1) .allOpt .default
        "CKKS-swish_rg4_deg4")).map (fun p => p.2.option.consumedLevel) = .ok 4 := by
    decide +kernel
  obtain ⟨⟨network, st⟩, hbuild, hconsumed⟩ := map_eq_ok.1 hlevel
  have hst : st.option.consumedLevel = 4 := hconsumed
  obtain ⟨output, σ, hy, hlen, hout⟩ := predict_levels (Define.source fun _ => 1) sampleChain
    sampleFile sampleLayers 2 2 1 1 sampleLayers_isModel
    ⟨by decide, by decide, by simp [sampleLayers, unitConv, squarePool, unitDense, WindowBelow]⟩
    .allOpt "CKKS-swish_rg4_deg4" network st hbuild (by rw [hst]; exact le_rfl)
    ⟨2, 2, 1, fun i j _ => ⟨0, 1000, i + j⟩⟩ rfl fun _ _ _ => ⟨rfl, rfl⟩
  exact ⟨network, st, output, hbuild, hy, hlen, fun y hy => hst ▸ (hout y hy).1⟩

/-- A column of `2 ^ 24 + 3` pixels. -/
def tallLayers : List LayerInfo :=
  [.conv2D tallConv2D, .activation "activation" "swish_rg4_deg4",
    .globalAveragePooling2D "global_average_pooling2d", unitDense "dense"]

/-- The network is built, and the chain is as long as it has counted; but no prediction returns. -/
theorem predict_levels_differs :
    IsModel tallLayers 16777219 1 1 1 ∧ ∃ network st,
      buildNetwork ⟨.leveled ℚ sampleChain, .lp64, Define.source fun _ => 1⟩ sampleFile tallLayers .fresh
        (computeOption (Define.source fun _ => 1) .allOpt .default "CKKS-swish_rg4_deg4") =
        .ok (network, st) ∧
      st.option.consumedLevel ≤ sampleChain.length ∧
      ∀ (input : Tensor3 (Leveled ℚ ℚ)) (output : List (Leveled ℚ ℚ)),
        predict (.leveled ℚ sampleChain) .lp64 st.option network input ≠ .ok output := by
  have hlevel : (buildNetwork ⟨.leveled ℚ sampleChain, .lp64, Define.source fun _ => 1⟩ sampleFile
      tallLayers .fresh (computeOption (Define.source fun _ => 1) .allOpt .default
        "CKKS-swish_rg4_deg4")).map (fun p => p.2.option.consumedLevel) = .ok 4 := by
    decide +kernel
  obtain ⟨⟨network, st⟩, hbuild, hconsumed⟩ := map_eq_ok.1 hlevel
  have hst : st.option.consumedLevel = 4 := hconsumed
  refine ⟨⟨⟨_, _, rfl, rfl⟩, by decide +kernel, by decide, ?_⟩, network, st, hbuild,
    by rw [hst]; exact le_rfl, fun input output => predict_tall hbuild _ input output⟩
  simp [tallLayers, unitDense, ValidPool]

end Sample

end Cnn
