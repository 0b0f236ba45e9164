import PPCNN.Cnn.Architecture
import PPCNN.Cnn.Proof.MachineNetwork
import PPCNN.Cnn.Rebuild
import PPCNN.Keras.DenseStack

/-!
# Global average pooling

`GlobalAveragePooling2D` adds up; its divisor waits in the option. The builder of the dense layer
takes it only where pooling is optimised. `globalAverage_iff` says where the other levels still
return the mean.
-/

set_option autoImplicit false

namespace Cnn

open Lib Keras Proof

variable {K V : Type} [Field K] [CommRing V] [Algebra K V]

/-- The layers before the global average. -/
def gapInput (conv2d : Conv2DInfo) (pool : Option AveragePooling2DInfo) : List LayerInfo :=
  .conv2D conv2d :: pool.toList.map .averagePooling2D

def gapLayers (conv2d : Conv2DInfo) (pool : Option AveragePooling2DInfo) (gap : String)
    (info : DenseInfo) : List LayerInfo :=
  gapInput conv2d pool ++ [.globalAveragePooling2D gap, .dense info]

/-- The mean over all positions of each channel. -/
def channelMeans (K : Type) [Field K] [Algebra K V] (t : Tensor3 V) : List V :=
  scaleUnits (1 / ((t.height * t.width : ℕ) : K)) (channelSum t)

theorem buildCalls_gap (fuse : Bool) (conv2d : Conv2DInfo) (pool : Option AveragePooling2DInfo)
    (gap : String) (info : DenseInfo) :
    buildCalls fuse (gapLayers conv2d pool gap info) =
      (gapLayers conv2d pool gap info).map .single := by
  cases fuse <;> cases pool <;> rfl

theorem safeCalls_gap (conv2d : Conv2DInfo) (pool : Option AveragePooling2DInfo) (gap : String)
    (info : DenseInfo) (o : OptOption K) (s : Shape) :
    SafeCalls o ((gapLayers conv2d pool gap info).map .single) s := by
  cases pool with
  | none => exact ⟨trivial, fun _ _ => ⟨trivial, fun _ _ => ⟨trivial, fun _ _ => trivial⟩⟩⟩
  | some pool =>
    have hpool : poolPart (descend o.takeFolding.2 1) = 1 := (parts_takeFolding o).2
    exact ⟨trivial, fun _ _ => ⟨fun _ => hpool, fun _ _ =>
      ⟨trivial, fun _ _ => ⟨trivial, fun _ _ => trivial⟩⟩⟩⟩

/-- A sum of means that is the same without the division is zero, or the mean is over one position. -/
theorem linear_mean_iff [CharZero K] (kernel : ℕ → ℕ → K) {n units : ℕ} (hn : 0 < n) (v : List V) :
    (∀ o < units, linear kernel v o = linear kernel (scaleUnits (1 / (n : K)) v) o) ↔
      n = 1 ∨ ∀ o < units, linear kernel (scaleUnits (1 / (n : K)) v) o = 0 := by
  have hne : (n : K) ≠ 0 := by exact_mod_cast hn.ne'
  have hmean : ∀ o, (n : K) • linear kernel (scaleUnits (1 / (n : K)) v) o = linear kernel v o := by
    intro o
    rw [linear_smul, smul_smul, mul_one_div_cancel hne, one_smul]
  constructor
  · intro h
    refine or_iff_not_imp_left.2 fun h1 o ho => ?_
    have hsub : (n : K) - 1 ≠ 0 := sub_ne_zero.2 (by exact_mod_cast h1)
    have hzero : ((n : K) - 1) • linear kernel (scaleUnits (1 / (n : K)) v) o = 0 := by
      rw [sub_smul, hmean, one_smul, h o ho, sub_self]
    rw [← inv_smul_smul₀ hsub (linear kernel _ o), hzero, smul_zero]
  · rintro (rfl | h) o ho
    · rw [Nat.cast_one, div_one, scaleUnits_one]
    · rw [← hmean, h o ho, smul_zero]

theorem fusesNoDense_gap (conv2d : Conv2DInfo) (pool : Option AveragePooling2DInfo) (gap : String)
    (info : DenseInfo) : FusesNoDense (gapLayers conv2d pool gap info) := by
  intro info' bn hmem
  rw [show fusedCalls (gapLayers conv2d pool gap info) = _ from
    buildCalls_gap true conv2d pool gap info] at hmem
  obtain ⟨l, -, hl⟩ := List.mem_map.1 hmem
  cases hl

theorem activation_not_mem_gap {conv2d : Conv2DInfo} {pool : Option AveragePooling2DInfo}
    {gap : String} {info : DenseInfo} {name activation : String} :
    .activation name activation ∉ gapLayers conv2d pool gap info := by
  cases pool <;> simp [gapLayers, gapInput]

/-- No call reads the units of another model. -/
theorem noStaleRead_gap (fuse : Bool) (conv2d : Conv2DInfo) (pool : Option AveragePooling2DInfo)
    (gap : String) (info : DenseInfo) (u channels : ℕ) :
    NoStaleRead u (buildCalls fuse (gapLayers conv2d pool gap info)) channels := by
  rw [buildCalls_gap]
  cases pool <;> trivial

/-- The image a global average is taken of. -/
theorem gapInput_image {c : Define K} {file : H5File K} {conv2d : Conv2DInfo}
    {pool : Option AveragePooling2DInfo} {gap : String} {info : DenseInfo} {h w n units : ℕ}
    (hm : IsModel (gapLayers conv2d pool gap info) h w n units) {input : Tensor3 V}
    (hdims : (input.height, input.width, input.channels) = (h, w, n)) :
    ∃ t, run c (reference V c) file (gapInput conv2d pool) (.image input) = .image t ∧
      0 < t.height * t.width ∧ info.units = units := by
  have hshape : (Value.image input).shape = .image h w n := by
    simp only [Prod.mk.injEq] at hdims
    simp [Value.shape, hdims]
  have hs := hm.shapes
  rw [gapLayers, outShapes_append] at hs
  obtain ⟨s, hs1, hs⟩ := Option.bind_eq_some_iff.1 hs
  obtain ⟨s2, hs2, hs⟩ := outShapes_cons.1 hs
  obtain ⟨s3, hs3, hs⟩ := outShapes_cons.1 hs
  have hrun : (run c (reference V c) file (gapInput conv2d pool) (.image input)).shape = s :=
    run_shape (hshape ▸ hs1)
  have hpos : s.Positive := outShapes_positive hm.positive hs1
  cases hv : run c (reference V c) file (gapInput conv2d pool) (.image input) with
  | units u =>
    rw [hv] at hrun
    subst hrun
    cases hs2
  | image t =>
    rw [hv] at hrun
    subst hrun
    cases hs2
    simp only [outShape] at hs3
    split at hs3
    · cases hs3
      exact ⟨t, rfl, Nat.mul_pos hpos.1 hpos.2.1, Shape.units.inj (Option.some.inj hs)⟩
    · cases hs3

variable [LinearOrder K] [IsStrictOrderedRing K]

/-- With extents below `2 ^ 24`, a global average network returns the dense layer on the channel means if
pooling is optimised, if there is one position, or if the dense layer maps the means to its biases; else
it does not. -/
theorem globalAverage_iff (c : Define K) (hε : c.epsilon = 0) (file : H5File K) (conv2d : Conv2DInfo)
    (pool : Option AveragePooling2DInfo) (gap : String) (info : DenseInfo) (h w n units : ℕ)
    (hm : IsModel (gapLayers conv2d pool gap info) h w n units)
    (hbelow : ExtentsBelow (gapLayers conv2d pool gap info) h w)
    (hdata : ModelData file (gapLayers conv2d pool gap info) (.image h w n)) (level : EOptLevel)
    (act : EActivation) (model : String) (next : NextLayer) (input : Tensor3 V)
    (hdims : (input.height, input.width, input.channels) = (h, w, n)) :
    ∃ output t,
      buildAndPredict ⟨.exact V, .lp64, c⟩ file (gapLayers conv2d pool gap info) next
        (computeOption c level act model) input = .ok output ∧
      run c (reference V c) file (gapInput conv2d pool) (.image input) = .image t ∧
      (output = dense units (denseKernel file (groupPath info.name info.name) info)
          (data file (groupPath info.name info.name) biasKey) (channelMeans K t) ↔
        (level = .optPooling ∨ level = .allOpt) ∨ t.height * t.width = 1 ∨
          ∀ o < units, linear (denseKernel file (groupPath info.name info.name) info)
            (channelMeans K t) o = 0) := by
  obtain ⟨t, ht, hpos, rfl⟩ : ∃ t, run c (reference V c) file (gapInput conv2d pool)
      (.image input) = .image t ∧ 0 < t.height * t.width ∧ info.units = units :=
    gapInput_image hm hdims
  let o := computeOption c level act model
  have hbuilt : buildAndPredict ⟨.exact V, .unbounded, c⟩ file (gapLayers conv2d pool gap info)
      .fresh o input = _ := buildAndPredict_effective hm hdata
    (fun name activation hmem => absurd hmem activation_not_mem_gap)
    (fun _ => fusesNoDense_gap conv2d pool gap info)
    (by rw [buildCalls_gap]; exact safeCalls_gap conv2d pool gap info _ _)
    (unclamped_zero hε _ _ _) hdims
    (by
      have hlast : gapLayers conv2d pool gap info =
          (gapInput conv2d pool ++ [.globalAveragePooling2D gap]) ++ [.dense info] := by
        simp [gapLayers]
      rw [buildCalls_gap, hlast, List.map_append]
      exact pending_dense _ info _ _)
  have hnext : buildAndPredict ⟨.exact V, .lp64, c⟩ file (gapLayers conv2d pool gap info) next o input =
      buildAndPredict ⟨.exact V, .unbounded, c⟩ file (gapLayers conv2d pool gap info) .fresh o
        input := by
    rw [buildAndPredict_fresh hm (.inr (noStaleRead_gap _ conv2d pool gap info _ _)),
      buildAndPredict_lp64 hm hbelow]
  refine ⟨_, t, hnext.trans hbuilt, ht, ?_⟩
  have hinput : run c (effective c o) file (gapInput conv2d pool) (.image input) = .image t := by
    rw [← ht]
    refine run_congr (fun l hl => ?_) _
    cases pool <;> simp only [gapInput, Option.toList, List.map_cons, List.map_nil, List.mem_cons,
      List.not_mem_nil, or_false] at hl
    · exact hl ▸ fun _ _ => rfl
    · rcases hl with rfl | rfl <;> exact fun _ _ => rfl
  have houtput : Keras.predict c (effective (V := V) c o) file (gapLayers conv2d pool gap info) input =
      dense info.units (denseKernel file (groupPath info.name info.name) info)
        (data file (groupPath info.name info.name) biasKey)
        (scaleUnits ((effective (V := V) c o).average (t.height * t.width)) (channelSum t)) := by
    rw [Keras.predict, gapLayers, run_append, hinput]
    rfl
  have hpool : o.enableOptimizePooling = true ↔ level = .optPooling ∨ level = .allOpt := by
    obtain ⟨coeff, h⟩ := computeOption_eq c level act model
    rw [show o = _ from h]
    cases level <;> simp [OptOption.new]
  rw [houtput, dense_eq_iff, channelMeans, ← hpool]
  cases hopt : o.enableOptimizePooling with
  | true => simp [effective, hopt]
  | false =>
    have haverage : (effective (V := V) c o).average (t.height * t.width) = 1 := by
      simp [effective, hopt]
    rw [haverage, scaleUnits_one, linear_mean_iff _ hpos]
    simp

section Sample

def gapConv2D : Conv2DInfo where
  name := "conv2d"
  batchInputShape := some (2, 2, 1)
  filters := 1
  kernelSize := (1, 1)
  strides := (1, 1)
  padding := "valid"
  activation := "linear"

def gapDense : DenseInfo where
  name := "dense"
  units := 1
  activation := "linear"

theorem gapLayers_isModel : IsModel (gapLayers gapConv2D none "gap" gapDense) 2 2 1 1 where
  first := ⟨_, _, rfl, rfl⟩
  shapes := by decide
  channels := by decide
  validPool := by simp [gapLayers, gapInput, ValidPool]

theorem gapLayers_modelData :
    ModelData oneFile (gapLayers gapConv2D none "gap" gapDense) (.image 2 2 1) := by
  refine ⟨⟨hasData_unitFile _ _ _, hasData_unitFile _ _ _⟩, ?_⟩
  rintro _ ⟨⟩
  refine ⟨trivial, ?_⟩
  rintro _ ⟨⟩
  exact ⟨⟨hasData_unitFile _ _ _, hasData_unitFile _ _ _⟩, fun _ _ => trivial⟩

theorem globalAverage_iff_sample : ∃ output t,
    buildAndPredict ⟨.exact ℚ, .lp64, unroundedDefine⟩ oneFile
      (gapLayers gapConv2D none "gap" gapDense) ⟨1, 1, 1, 7⟩
      (computeOption unroundedDefine .noOpt .default "HCNN-GAP") ⟨2, 2, 1, fun _ _ _ => 1⟩ =
      .ok output ∧
    run unroundedDefine (reference ℚ unroundedDefine) oneFile (gapInput gapConv2D none)
      (.image ⟨2, 2, 1, fun _ _ _ => 1⟩) = .image t ∧
    (output = dense 1 (denseKernel oneFile (groupPath "dense" "dense") gapDense)
        (data oneFile (groupPath "dense" "dense") biasKey) (channelMeans ℚ t) ↔
      (EOptLevel.noOpt = .optPooling ∨ EOptLevel.noOpt = .allOpt) ∨ t.height * t.width = 1 ∨
        ∀ o < 1, linear (denseKernel oneFile (groupPath "dense" "dense") gapDense)
          (channelMeans ℚ t) o = 0) :=
  globalAverage_iff unroundedDefine rfl oneFile gapConv2D none "gap" gapDense 2 2 1 1
    gapLayers_isModel ⟨by decide, by decide, by simp [gapLayers, gapInput, gapConv2D, WindowBelow]⟩
    gapLayers_modelData .noOpt .default "HCNN-GAP" ⟨1, 1, 1, 7⟩ _ rfl

/-- The means are 2, so the dense layer has to return 3; at `NO_OPT` the network returns 9. -/
theorem globalAverage_differs :
    buildAndPredict ⟨.exact ℚ, .lp64, unroundedDefine⟩ oneFile
      (gapLayers gapConv2D none "gap" gapDense) .fresh
      (computeOption unroundedDefine .noOpt .default "HCNN-GAP") ⟨2, 2, 1, fun _ _ _ => 1⟩ =
      .ok [9] ∧
    Keras.predict unroundedDefine (.keras ℚ unroundedDefine) oneFile
      (gapLayers gapConv2D none "gap" gapDense) ⟨2, 2, 1, fun _ _ _ => 1⟩ = [3] := by
  constructor <;> decide +kernel

end Sample

end Cnn
