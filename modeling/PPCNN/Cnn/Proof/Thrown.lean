import PPCNN.Cnn.Proof.Complete

/-!
# Exceptions of the builders

On a layer of the reference whose data sets are not larger than the buffers they are read into, a
builder either succeeds or throws an exception (`avoids_buildSingle`): it does not run into undefined
behaviour.
-/

set_option autoImplicit false

namespace Cnn

/-- The error is an exception of the program, not undefined behaviour or an operation of SEAL. -/
def Thrown : Error → Prop
  | .runtimeError _ | .h5 _ => True
  | _ => False

namespace Proof

open Lib Keras

variable {K V : Type} [Field K] [CommRing V] [Algebra K V] {c : Define K} {file : H5File K}
  {st : BuildState K} {e : Error}

/-! ## Data sets -/

/-- The data set, if it is there, fits into a buffer of `n` elements. -/
def Fits (file : H5File K) (path key : String) (n : ℕ) : Prop :=
  ∀ group ds, file path = some group → group key = some ds → ds.length ≤ n

/-- The data sets of a layer fit into the buffers of its builder. -/
def LayerFits (file : H5File K) : LayerInfo → Shape → Prop
  | .conv2D info, .image _ _ n =>
    Fits file (groupPath info.name info.name) kernelKey
      (info.kernelSize.1 * info.kernelSize.2 * n * info.filters) ∧
    Fits file (groupPath info.name info.name) biasKey info.filters
  | .batchNormalization name, s => ∀ key ∈ [betaKey, gammaKey, movingMeanKey, movingVarianceKey],
    Fits file (groupPath name name) key s.lastDim
  | .dense info, .units n =>
    Fits file (groupPath info.name info.name) kernelKey (n * info.units) ∧
    Fits file (groupPath info.name info.name) biasKey info.units
  | _, _ => True

section Data

variable {path key : String} {n : ℕ} {group : DataSets K} {ds : List K} (he : ¬Thrown e)
include he

omit [Field K] in
theorem avoids_openGroup (path : String) : Avoids e (file.openGroup path) := by
  unfold H5File.openGroup
  split
  · exact avoids_ok _ _
  · apply avoids_error
    rintro rfl
    exact he trivial

omit [Field K] in
theorem avoids_openDataSet (group : DataSets K) (key : String) : Avoids e (group.openDataSet key) := by
  unfold DataSets.openDataSet
  split
  · exact avoids_ok _ _
  · apply avoids_error
    rintro rfl
    exact he trivial

omit he in
theorem avoids_readBuffer (hfits : Fits file path key n) (hg : file.openGroup path = .ok group)
    (hd : group.openDataSet key = .ok ds) : Avoids e (readBuffer ds n) := by
  have hlen := hfits group ds (H5File.openGroup_eq_ok.1 hg) (DataSets.openDataSet_eq_ok.1 hd)
  rw [readBuffer, if_pos hlen]
  exact avoids_ok _ _

theorem avoids_bnDataRead {name : String}
    (hfits : ∀ key ∈ [betaKey, gammaKey, movingMeanKey, movingVarianceKey],
      Fits file (groupPath name name) key n)
    (hg : file.openGroup (groupPath name name) = .ok group) : Avoids e (BnData.read group n) := by
  refine (avoids_openDataSet he _ _).bind fun d1 h1 => (avoids_openDataSet he _ _).bind fun d2 h2 =>
    (avoids_openDataSet he _ _).bind fun d3 h3 => (avoids_openDataSet he _ _).bind fun d4 h4 => ?_
  refine (avoids_readBuffer (hfits betaKey (by simp)) hg h1).bind fun _ _ =>
    (avoids_readBuffer (hfits gammaKey (by simp)) hg h2).bind fun _ _ =>
    (avoids_readBuffer (hfits movingMeanKey (by simp)) hg h3).bind fun _ _ =>
    (avoids_readBuffer (hfits movingVarianceKey (by simp)) hg h4).bind fun _ _ => avoids_ok _ _

end Data

/-! ## Builders -/

theorem avoids_encodeAt (lv : ℕ) (w : K) : Avoids e ((Evaluator.exact (K := K) V).encodeAt lv w) := by
  rw [encodeAt_exact]
  exact avoids_ok _ _

theorem avoids_of_succeeds {α : Type} {x : Except Error α} (h : Succeeds x) : Avoids e x := by
  obtain ⟨a, rfl⟩ := h
  exact avoids_ok _ _

variable [LinearOrder K] {s s' : Shape} (he : ¬Thrown e)
include he

theorem avoids_buildConv2D {info : Conv2DInfo} {h w n : ℕ}
    (hs : outShape (.conv2D info) (.image h w n) = some s')
    (hfits : LayerFits file (.conv2D info) (.image h w n)) (hnext : NextFor st.next (.image h w n)) :
    Avoids e (buildConv2D ⟨.exact V, .unbounded, c⟩ file info st) := by
  obtain ⟨oh, ow, hoh, how, -, hbatch, -⟩ := outShape_conv2D hs
  simp only [buildConv2D, inShape_of_next hnext hbatch]
  refine (avoids_openGroup he _).bind fun group hg => (avoids_openDataSet he _ _).bind fun kds hkd =>
    (avoids_openDataSet he _ _).bind fun bds hbd => (avoids_readBuffer hfits.1 hg hkd).bind fun _ _ =>
    (avoids_readBuffer hfits.2 hg hbd).bind fun _ _ => ?_
  refine (avoids_seqFin fun _ => avoids_seqFin fun _ => avoids_seqFin fun _ => avoids_seqFin fun _ =>
    avoids_encodeAt _ _).bind fun _ _ => (avoids_seqFin fun _ => avoids_encodeAt _ _).bind fun _ _ => ?_
  exact (avoids_of_succeeds (conv2DNew_succeeds hoh how)).bind fun _ _ => avoids_ok _ _

theorem avoids_buildDense {info : DenseInfo} {n : ℕ} (hfits : LayerFits file (.dense info) (.units n))
    (hnext : NextFor st.next (.units n)) :
    Avoids e (buildDense ⟨.exact V, .unbounded, c⟩ file info st) := by
  simp only [buildDense, show st.next.inUnits = n from hnext]
  refine (avoids_openGroup he _).bind fun group hg => (avoids_openDataSet he _ _).bind fun kds hkd =>
    (avoids_openDataSet he _ _).bind fun bds hbd => (avoids_readBuffer hfits.1 hg hkd).bind fun _ _ =>
    (avoids_readBuffer hfits.2 hg hbd).bind fun _ _ => ?_
  exact (avoids_seqFin fun _ => avoids_seqFin fun _ => avoids_encodeAt _ _).bind fun _ _ =>
    (avoids_seqFin fun _ => avoids_encodeAt _ _).bind fun _ _ => avoids_ok _ _

omit [LinearOrder K] in
theorem avoids_buildBatchNormalization {name : String} (hpos : s.Positive)
    (hfits : LayerFits file (.batchNormalization name) s) (hnext : NextFor st.next s) :
    Avoids e (buildBatchNormalization ⟨.exact V, .unbounded, c⟩ file name st) := by
  simp only [buildBatchNormalization, bnDim_of_next hpos hnext]
  refine (avoids_openGroup he _).bind fun group hg => (avoids_bnDataRead he hfits hg).bind fun _ _ => ?_
  exact (avoids_seqFin fun _ => avoids_encodeAt _ _).bind fun _ _ =>
    (avoids_seqFin fun _ => avoids_encodeAt _ _).bind fun _ _ => avoids_ok _ _

omit [LinearOrder K] in
theorem avoids_buildActivation (name activation : String) :
    Avoids e (buildActivation ⟨.exact V, .unbounded, c⟩ name activation st) := by
  have hnew : ∀ o : OptOption K, Avoids e (Activation.new (.exact V) c name activation o) := by
    intro o
    unfold Activation.new
    split
    · exact avoids_ok _ _
    · split
      · exact avoids_of_succeeds (newSwish_succeeds _ _ _ _)
      · split
        · exact avoids_of_succeeds (newSwish_succeeds _ _ _ _)
        · apply avoids_error
          rintro rfl
          exact he trivial
  exact (hnew _).bind fun _ _ => avoids_ok _ _

/-- A builder succeeds or throws an exception. -/
theorem avoids_buildSingle {l : LayerInfo} (hs : outShape l s = some s') (hpos : s.Positive)
    (hfits : LayerFits file l s) (hnext : NextFor st.next s) :
    Avoids e (buildSingle ⟨.exact V, .unbounded, c⟩ file l st) := by
  cases l with
  | conv2D info =>
    cases s with
    | image h w n => exact avoids_buildConv2D he hs hfits hnext
    | units n => cases hs
  | averagePooling2D info =>
    cases s with
    | image h w n => exact avoids_of_succeeds (buildAveragePooling2D_succeeds hs hnext)
    | units n => cases hs
  | batchNormalization name => exact avoids_buildBatchNormalization he hpos hfits hnext
  | flatten name => exact avoids_ok _ _
  | dense info =>
    cases s with
    | image h w n => cases hs
    | units n => exact avoids_buildDense he hfits hnext
  | activation name activation => exact avoids_buildActivation he name activation
  | globalAveragePooling2D name => exact avoids_ok _ _
  | other className => cases s <;> cases hs

/-- Every layer of a list finds data sets that fit. -/
def LayersFit (file : H5File K) : List LayerInfo → Shape → Prop
  | [], _ => True
  | l :: layers, s => LayerFits file l s ∧ ∀ s', outShape l s = some s' → LayersFit file layers s'

omit he in
theorem avoids_buildLayers (he : ¬Thrown e) {layers : List LayerInfo} :
    ∀ {st : BuildState K} {s : Shape}, outShapes layers s = some s' → s.Positive →
      LayersFit file layers s → NextFor st.next s →
      Avoids e (buildLayers ⟨.exact V, .unbounded, c⟩ file (layers.map .single) st) := by
  induction layers with
  | nil => exact fun _ _ _ _ => avoids_ok _ _
  | cons l layers ih =>
    intro st s hs hpos hfits hnext
    obtain ⟨s1, hs1, hs⟩ := outShapes_cons.1 hs
    refine (avoids_buildSingle he hs1 hpos hfits.1 hnext).bind fun p hp => ?_
    have hcall : buildLayer (⟨.exact V, .unbounded, c⟩ : Env K K V) file (.single l) st = .ok (p.1, p.2) := hp
    obtain ⟨-, hnext1⟩ := buildLayer_recorded hcall hs1 (sizesExact_unbounded s) hpos hnext
    exact (ih hs (outShape_positive hpos hs1) (hfits.2 s1 hs1) hnext1).bind fun _ _ => avoids_ok _ _

end Proof

end Cnn
