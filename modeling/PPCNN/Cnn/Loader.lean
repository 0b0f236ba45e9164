import PPCNN.Cnn.Proof.Thrown
import PPCNN.Cnn.Proof.Reading
import PPCNN.Cnn.Architecture
import PPCNN.Cnn.Proof.MachineNetwork
import PPCNN.Cnn.Rebuild
import PPCNN.Keras.Config

/-!
# What the loader makes of a model

The loader reads part of a configuration (`LayerConfig.info`) and sets the rest to values of its own
(`normalise`): linear activations of `Conv2D` and `Dense`, no dilation, channels last, a
batch normalisation of the last axis with `BN_EPSILON`. `loads_normalised`: at `NO_OPT` the network
of a structure file computes the model with those values, or `BuildNetwork` throws.
-/

set_option autoImplicit false

namespace Cnn

open Lib Keras Proof

/-! ## Reading the file -/

section Read

theorem toSize_natCast {n : ℕ} (hn : n < 2 ^ 64) : toSize .lp64 (n : ℚ) = n := by
  rw [toSize, Rat.num_natCast, Rat.den_natCast, Nat.cast_one, Int.tdiv_one]
  exact IntArith.toNat_size_lp64 hn

variable {config : JsonObject} {key : String}

theorem readSize_ok {n : ℕ} (hn : n < 2 ^ 64) (h : config.field key = jsonSize n) :
    readSize .lp64 config key = .ok n := by
  rw [readSize, h]
  exact congrArg Except.ok (toSize_natCast hn)

theorem readElement_ok {values : List JsonValue} {i n : ℕ} (hn : n < 2 ^ 64)
    (h : values[i]? = some (jsonSize n)) : readElement .lp64 values i = .ok n := by
  simp only [readElement, readVector, h, ok_bind]
  exact congrArg Except.ok (toSize_natCast hn)

theorem readPair_ok {p : ℕ × ℕ} (h1 : p.1 < 2 ^ 64) (h2 : p.2 < 2 ^ 64)
    (h : config.field key = jsonPair p) : readPair .lp64 config key = .ok p := by
  simp only [readPair, h, jsonPair, JsonValue.getArray, ok_bind]
  rw [readElement_ok h1 rfl, readElement_ok h2 rfl]
  rfl

theorem getString_ok {s : String} (h : config.field key = .string s) :
    (config.field key).getString = .ok s := by
  rw [h]
  rfl

theorem readBatchInputShape_ok {shape : Option (ℕ × ℕ × ℕ)}
    (hfits : ∀ p ∈ shape, p.1 < 2 ^ 64 ∧ p.2.1 < 2 ^ 64 ∧ p.2.2 < 2 ^ 64)
    (h : config.field "batch_input_shape" = jsonShape shape) :
    readBatchInputShape .lp64 config = .ok shape := by
  simp only [readBatchInputShape, h]
  cases shape with
  | none => rfl
  | some shape =>
    obtain ⟨hh, hw, hn⟩ := hfits shape rfl
    simp only [jsonShape, JsonValue.getArray, ok_bind]
    rw [readElement_ok hh rfl, readElement_ok hw rfl, readElement_ok hn rfl]
    rfl

/-- An element written for a layer is read as the layer. -/
theorem readsAs_of_describes {shape : Option (ℕ × ℕ × ℕ)} {v : JsonValue} {l : LayerConfig}
    (hfits : ∀ p ∈ shape, p.1 < 2 ^ 64 ∧ p.2.1 < 2 ^ 64 ∧ p.2.2 < 2 ^ 64)
    (hsizes : ∀ k ∈ l.sizes, k < 2 ^ 64) (h : Describes shape v l) :
    ReadsAs .lp64 v (l.info shape) := by
  obtain ⟨layer, config, rfl, hclass, hconfig, hentries, hshape⟩ := h
  refine ⟨layer, l.className, ?_, ?_⟩
  · simp only [readClass, JsonValue.getObject, ok_bind, hclass, JsonValue.getString]
    rfl
  · have hobject : (layer.field "config").getObject = .ok config := by
      rw [hconfig]
      rfl
    cases l with
    | conv2D cfg =>
      simp only [LayerConfig.entries, List.forall_mem_cons] at hentries
      obtain ⟨hname, hfilters, hkernel, hstrides, hpadding, -, -, hactivation, -⟩ := hentries
      simp only [LayerConfig.sizes, List.forall_mem_cons] at hsizes
      obtain ⟨hf, hk1, hk2, hs1, hs2, -⟩ := hsizes
      simp only [LayerConfig.className, readLayer_conv2D, hobject, ok_bind, readConv2D,
        getString_ok hname, readBatchInputShape_ok hfits hshape, readSize_ok hf hfilters,
        readPair_ok hk1 hk2 hkernel, readPair_ok hs1 hs2 hstrides, getString_ok hpadding,
        getString_ok hactivation]
      rfl
    | averagePooling2D cfg =>
      simp only [LayerConfig.entries, List.forall_mem_cons] at hentries
      obtain ⟨hname, hpool, hpadding, hstrides, -⟩ := hentries
      simp only [LayerConfig.sizes, List.forall_mem_cons] at hsizes
      obtain ⟨hp1, hp2, hs1, hs2, -⟩ := hsizes
      simp only [LayerConfig.className, readLayer_averagePooling2D, hobject, ok_bind,
        readAveragePooling2D, getString_ok hname, readPair_ok hp1 hp2 hpool,
        readPair_ok hs1 hs2 hstrides, getString_ok hpadding]
      rfl
    | batchNormalization cfg =>
      simp only [LayerConfig.entries, List.forall_mem_cons] at hentries
      simp only [LayerConfig.className, readLayer_batchNormalization, hobject, ok_bind, readName,
        getString_ok hentries.1]
      rfl
    | flatten name =>
      simp only [LayerConfig.entries, List.forall_mem_cons] at hentries
      simp only [LayerConfig.className, readLayer_flatten, hobject, ok_bind, readName,
        getString_ok hentries.1]
      rfl
    | dense cfg =>
      simp only [LayerConfig.entries, List.forall_mem_cons] at hentries
      obtain ⟨hname, hunits, hactivation, -⟩ := hentries
      simp only [LayerConfig.className, readLayer_dense, hobject, ok_bind, readDense,
        getString_ok hname, readSize_ok (hsizes _ List.mem_cons_self) hunits,
        getString_ok hactivation]
      rfl
    | activation name f =>
      simp only [LayerConfig.entries, List.forall_mem_cons] at hentries
      simp only [LayerConfig.className, readLayer_activation, hobject, ok_bind, readName,
        getString_ok hentries.1, getString_ok hentries.2.1]
      rfl
    | globalAveragePooling2D name dataFormat =>
      simp only [LayerConfig.entries, List.forall_mem_cons] at hentries
      simp only [LayerConfig.className, readLayer_globalAveragePooling2D, hobject, ok_bind, readName,
        getString_ok hentries.1]
      rfl

/-- The file of a model whose numbers are values of `size_t` is built as the list of the layers the loader
reads. -/
theorem buildStructure_describes {K Pt Ct : Type} [Field K] [LinearOrder K] {ev : Evaluator K Pt Ct}
    {c : Define K} {file : H5File K} {json : JsonValue} {m : Keras.Sequential} (h : DescribesModel json m)
    (hfits : m.SizesFit) (next : NextLayer) (o : OptOption K) :
    buildStructure ⟨ev, .lp64, c⟩ file json next o =
      buildNetwork ⟨ev, .lp64, c⟩ file (layerInfos (some m.batchInputShape) m.layers) next o := by
  obtain ⟨fields, values, rfl, hvalues, hlayers⟩ := h
  have hload : loadLayers (.object fields) = .ok values := by
    simp only [loadLayers, JsonValue.getObject, ok_bind, hvalues, JsonValue.getArray]
  refine buildStructure_eq hload ?_ next o
  · cases hl : m.layers with
    | nil =>
      cases values with
      | nil => exact .nil
      | cons v values =>
        rw [hl] at hlayers
        exact absurd hlayers id
    | cons l layers =>
      rw [hl] at hlayers
      cases values with
      | nil => exact absurd hlayers id
      | cons v values =>
        obtain ⟨hv, hrest⟩ := hlayers
        have hsizes : ∀ l' ∈ l :: layers, ∀ k ∈ l'.sizes, k < 2 ^ 64 := hl ▸ hfits.layers
        refine .cons (readsAs_of_describes ?_ (hsizes l List.mem_cons_self) hv) ?_
        · rintro _ ⟨⟩
          exact ⟨hfits.height, hfits.width, hfits.channels⟩
        · rw [List.forall₂_map_right_iff]
          refine List.forall₂_iff_get.2 ⟨hrest.length_eq, fun i hi hi' => ?_⟩
          exact readsAs_of_describes nofun (hsizes _ (List.mem_cons_of_mem _ (List.get_mem layers ⟨i, hi'⟩)))
            (List.forall₂_iff_get.1 hrest |>.2 i hi hi')

end Read

/-! ## The values of the loader -/

/-- The layer with the values the loader takes for the options it does not read, or reads and drops. -/
def normalise : LayerConfig → LayerConfig
  | .conv2D config => .conv2D { config with
      activation := linearName, dilationRate := (1, 1), dataFormat := .channelsLast }
  | .averagePooling2D config => .averagePooling2D { config with dataFormat := .channelsLast }
  | .batchNormalization config => .batchNormalization { config with axis := -1, epsilon := 1 / 1000 }
  | .dense config => .dense { config with activation := linearName }
  | .globalAveragePooling2D name _ => .globalAveragePooling2D name .channelsLast
  | l => l

/-- The options the loader does not read, or reads and drops, have its values. -/
def Honoured : LayerConfig → Prop
  | .conv2D config => config.activation = linearName ∧ config.dilationRate = (1, 1) ∧
    config.dataFormat = .channelsLast
  | .averagePooling2D config => config.dataFormat = .channelsLast
  | .batchNormalization config => config.axis = -1 ∧ config.epsilon = 1 / 1000
  | .dense config => config.activation = linearName
  | .globalAveragePooling2D _ dataFormat => dataFormat = .channelsLast
  | _ => True

theorem normalise_of_honoured {l : LayerConfig} (h : Honoured l) : normalise l = l := by
  cases l with
  | conv2D config =>
    obtain ⟨hact, hdil, hformat⟩ := h
    rw [normalise, ← hact, ← hdil, ← hformat]
  | averagePooling2D config =>
    have hformat : config.dataFormat = .channelsLast := h
    rw [normalise, ← hformat]
  | batchNormalization config =>
    obtain ⟨haxis, hepsilon⟩ := h
    rw [normalise, ← haxis, ← hepsilon]
  | dense config =>
    have hact : config.activation = linearName := h
    rw [normalise, ← hact]
  | globalAveragePooling2D name dataFormat =>
    have hformat : dataFormat = .channelsLast := h
    rw [normalise, ← hformat]
  | _ => rfl

/-- Without the options the loader drops, a softmax on the last dense layer is gone, too. -/
theorem normalise_dropSoftmax (layers : List LayerConfig) :
    (dropSoftmax layers).map normalise = layers.map normalise := by
  induction layers with
  | nil => rfl
  | cons l layers ih =>
    cases l with
    | dense config =>
      rw [dropSoftmax]
      split
      · rfl
      · rw [List.map_cons, List.map_cons, ih]
    | _ => simp [dropSoftmax, ih]

/-- The layer has all the parts of its weights. -/
def Complete : LayerConfig → Prop
  | .conv2D config => config.useBias = true
  | .batchNormalization config => config.center = true ∧ config.scale = true
  | .dense config => config.useBias = true
  | _ => True

/-- The program computes the layer as Keras does: no stride exceeds its window, and average poolings
have full windows. -/
def InWindow : LayerConfig → Prop
  | .conv2D config => config.padding = "valid" ∨
    (config.strides.1 ≤ config.kernelSize.1 ∧ config.strides.2 ≤ config.kernelSize.2)
  | .averagePooling2D config => config.padding = "valid"
  | .globalAveragePooling2D _ _ => False
  | _ => True

variable {K V : Type} [Field K]

/-- The shapes of the normalised layers are those of the layers the loader reads. -/
theorem outShape_normalise (l : LayerConfig) (s : Shape) :
    (normalise l).outShape s = outShape (l.info none) s := by
  cases l with
  | conv2D config =>
    have hsize : ∀ n : ℕ, dilated n 1 = n := fun n => by simp [dilated]
    simp only [normalise, LayerConfig.outShape, Conv2DConfig.dilatedInfo, hsize]
    cases s <;> exact congrFun Option.map_id _
  | averagePooling2D config =>
    cases s with
    | image h w n => exact congrFun Option.map_id _
    | units n => rfl
  | batchNormalization config => cases s <;> rfl
  | globalAveragePooling2D name dataFormat => cases s <;> rfl
  | dense config => cases s <;> rfl
  | _ => rfl

theorem configShapes_normalise (layers : List LayerConfig) (s : Shape) :
    configShapes (layers.map normalise) s =
      outShapes (layers.map (LayerConfig.info none)) s := by
  rw [configShapes, outShapes, List.foldlM_map, List.foldlM_map]
  congr 1
  funext s l
  exact outShape_normalise l s

/-- The shape of the input in the first layer is the one it finds. -/
theorem outShapes_layerInfos (layers : List LayerConfig) (h w n : ℕ) :
    outShapes (layerInfos (some (h, w, n)) layers) (.image h w n) =
      outShapes (layers.map (LayerConfig.info none)) (.image h w n) := by
  cases layers with
  | nil => rfl
  | cons l layers =>
    rw [layerInfos, List.map_cons, outShapes, outShapes, List.foldlM_cons, List.foldlM_cons]
    cases l <;> rfl

variable {c : Define K} {file : H5File K}

section Value

variable [CommRing V] [Algebra K V] {other : String → List V → List V}

/-- The names of the polynomials. -/
def IsPolynomial (activation : String) : Prop :=
  activation = squareName ∨ activation = swishRg4Deg4Name ∨ activation = swishRg6Deg4Name

/-- The activation of an activation layer is a polynomial. -/
def LayerPolynomial : LayerConfig → Prop
  | .activation _ f => IsPolynomial f
  | _ => True

theorem activationFn_polynomial {f : String} (h : IsPolynomial f) :
    activationFn c other f = List.map (Keras.activation c f) := by
  have hpoly : f = squareName ∨ f = swishRg4Deg4Name ∨ f = swishRg6Deg4Name := h
  rw [activationFn, if_neg, if_pos hpoly]
  rcases h with rfl | rfl | rfl <;> decide

/-- A normalised layer has the value of the layer the loader reads. -/
theorem value_normalise (hbn : c.bnEpsilon = ((1 / 1000 : ℚ) : K)) (l : LayerConfig)
    (shape : Option (ℕ × ℕ × ℕ)) (hcomplete : Complete l) (hpoly : LayerPolynomial l) (v : Value V) :
    (normalise l).value c other file v = layer c (.keras V c) file (l.info shape) v := by
  cases l with
  | conv2D config =>
    have hbias : biasOf file config.name config.useBias =
        data file (groupPath config.name config.name) biasKey := if_pos hcomplete
    cases v with
    | units u => rfl
    | image t =>
      simp only [normalise, LayerConfig.value, mapLast_linear, hbias, dilateKernel_one]
      rfl
  | averagePooling2D config => cases v <;> rfl
  | batchNormalization config =>
    obtain ⟨hcenter, hscale⟩ := hcomplete
    have hdata : config.data file = bnData file (groupPath config.name config.name) := by
      rw [BatchNormalizationConfig.data, hcenter, hscale]
      rfl
    have hdefine : ({ c with bnEpsilon := ((1 / 1000 : ℚ) : K) } : Define K) = c := by rw [← hbn]
    have hvalue : (normalise (.batchNormalization config)).value c other file v =
        v.mapAxis (-1) (batchNorm { c with bnEpsilon := ((1 / 1000 : ℚ) : K) } (config.data file)) := by
      cases v <;> rfl
    rw [hvalue, hdata, hdefine]
    cases v <;> rfl
  | flatten name => cases v <;> rfl
  | dense config =>
    have hbias : biasOf file config.name config.useBias =
        data file (groupPath config.name config.name) biasKey := if_pos hcomplete
    cases v with
    | image t => rfl
    | units u =>
      simp only [normalise, LayerConfig.value, mapLast_linear, hbias]
      rfl
  | activation name f =>
    have hvalue : (normalise (.activation name f)).value c other file v =
        mapLast (activationFn c other f) v := by cases v <;> rfl
    rw [hvalue, activationFn_polynomial hpoly, mapLast_map]
    cases v <;> rfl
  | globalAveragePooling2D name dataFormat => cases v <;> rfl

theorem run_normalise (hbn : c.bnEpsilon = ((1 / 1000 : ℚ) : K)) {layers : List LayerConfig}
    (hcomplete : ∀ l ∈ layers, Complete l) (hpoly : ∀ l ∈ layers, LayerPolynomial l) (v : Value V) :
    (layers.map normalise).foldl (fun v l => l.value c other file v) v =
      run c (.keras V c) file (layers.map (LayerConfig.info none)) v := by
  induction layers generalizing v with
  | nil => rfl
  | cons l layers ih =>
    rw [List.map_cons, List.foldl_cons, value_normalise hbn l none (hcomplete l List.mem_cons_self)
      (hpoly l List.mem_cons_self), ih (fun l' h => hcomplete l' (List.mem_cons_of_mem l h))
      fun l' h => hpoly l' (List.mem_cons_of_mem l h)]
    rfl

theorem predict_normalise (hbn : c.bnEpsilon = ((1 / 1000 : ℚ) : K)) {layers : List LayerConfig}
    (hcomplete : ∀ l ∈ layers, Complete l) (hpoly : ∀ l ∈ layers, LayerPolynomial l)
    (shape : Option (ℕ × ℕ × ℕ)) (t : Tensor3 V) :
    predictConfig c other file (layers.map normalise) t =
      Keras.predict c (.keras V c) file (layerInfos shape layers) t := by
  have hrun : run c (.keras V c) file (layerInfos shape layers) (.image t) =
      run c (.keras V c) file (layers.map (LayerConfig.info none)) (.image t) := by
    cases layers with
    | nil => rfl
    | cons l layers => cases l <;> rfl
  unfold predictConfig
  rw [run_normalise hbn hcomplete hpoly, ← hrun]
  rfl

end Value

/-! ## The weights file -/

omit [Field K] in
theorem fits_of_stores {path key : String} {n : ℕ} {present : Bool} (h : Stores file path key n present) :
    Fits file path key n := by
  intro group ds hgroup hds
  cases present with
  | true =>
    obtain ⟨group', ds', hgroup', hds', hlength⟩ := h
    obtain rfl := Option.some.inj (hgroup.symm.trans hgroup')
    obtain rfl := Option.some.inj (hds.symm.trans hds')
    exact hlength.le
  | false => rw [h group hgroup] at hds; cases hds

omit [Field K] in
theorem layerFits_of_weights {l : LayerConfig} {s : Shape} (h : (normalise l).Weights file s)
    (shape : Option (ℕ × ℕ × ℕ)) : LayerFits file (l.info shape) s := by
  cases l with
  | conv2D config =>
    cases s with
    | image height width n =>
      obtain ⟨hkernel, hbias⟩ := h height width n rfl
      exact ⟨fits_of_stores hkernel, fits_of_stores hbias⟩
    | units n => trivial
  | batchNormalization config =>
    have haxis : s.axisDim (-1) = some s.lastDim := by cases s <;> rfl
    obtain ⟨hbeta, hgamma, hmean, hvariance⟩ := h s.lastDim haxis
    intro key hkey
    simp only [List.mem_cons, List.not_mem_nil, or_false] at hkey
    rcases hkey with rfl | rfl | rfl | rfl
    · exact fits_of_stores hbeta
    · exact fits_of_stores hgamma
    · exact fits_of_stores hmean
    · exact fits_of_stores hvariance
  | dense config =>
    cases s with
    | image height width n => trivial
    | units n =>
      obtain ⟨hkernel, hbias⟩ := h n rfl
      exact ⟨fits_of_stores hkernel, fits_of_stores hbias⟩
  | _ => cases s <;> trivial

omit [Field K] in
theorem layersFit_of_matching {layers : List LayerConfig} {s : Shape}
    (h : Matching file (layers.map normalise) s) :
    LayersFit file (layers.map (LayerConfig.info none)) s := by
  induction layers generalizing s with
  | nil => trivial
  | cons l layers ih =>
    exact ⟨layerFits_of_weights h.1 none, fun s' hs' =>
      ih (h.2 s' ((outShape_normalise l s).trans hs'))⟩

omit [Field K] in
/-- A builder that has opened a data set finds it stored. -/
theorem present_of_stores {path key : String} {n : ℕ} {group : DataSets K} {ds : List K} {present : Bool}
    (h : Stores file path key n present) (hg : file.openGroup path = .ok group)
    (hd : group.openDataSet key = .ok ds) : present = true := by
  cases present with
  | true => rfl
  | false =>
    rw [DataSets.openDataSet_eq_ok, h group (H5File.openGroup_eq_ok.1 hg)] at hd
    cases hd

variable [LinearOrder K] {Pt Ct : Type} {E : Env K Pt Ct} {st st' : BuildState K}

/-- Builders open all the data sets that a layer may have, so layers without some are not built. -/
theorem complete_of_buildSingle {l : LayerConfig} {shape : Option (ℕ × ℕ × ℕ)} {s s' : Shape}
    {layer : Layer Pt} (hbuild : buildSingle E file (l.info shape) st = .ok (layer, st'))
    (hw : (normalise l).Weights file s) (hs : outShape (l.info none) s = some s') : Complete l := by
  cases l with
  | conv2D config =>
    cases s with
    | units n => cases hs
    | image h w n =>
      simp only [LayerConfig.info, buildSingle, buildConv2D, bind_eq_ok] at hbuild
      obtain ⟨group, hg, kds, -, bds, hb, -⟩ := hbuild
      exact present_of_stores (hw h w n rfl).2 hg hb
  | batchNormalization config =>
    have haxis : s.axisDim (-1) = some s.lastDim := by cases s <;> rfl
    simp only [LayerConfig.info, buildSingle, buildBatchNormalization, BnData.read, bind_eq_ok] at hbuild
    obtain ⟨group, hg, -, ⟨bds, hb, gds, hgamma, -⟩, -⟩ := hbuild
    obtain ⟨hbeta, hgammaStores, -⟩ := hw s.lastDim haxis
    exact ⟨present_of_stores hbeta hg hb, present_of_stores hgammaStores hg hgamma⟩
  | dense config =>
    cases s with
    | image h w n => cases hs
    | units n =>
      simp only [LayerConfig.info, buildSingle, buildDense, bind_eq_ok] at hbuild
      obtain ⟨group, hg, kds, -, bds, hb, -⟩ := hbuild
      exact present_of_stores (hw n rfl).2 hg hb
  | _ => trivial

theorem complete_of_buildLayers {layers : List LayerConfig} :
    ∀ {st : BuildState K} {s s' : Shape} {network : List (Layer Pt)},
      buildLayers E file (layers.map fun l => .single (l.info none)) st = .ok (network, st') →
      Matching file (layers.map normalise) s →
      outShapes (layers.map (LayerConfig.info none)) s = some s' → ∀ l ∈ layers, Complete l := by
  induction layers with
  | nil => exact fun _ _ _ _ hl => absurd hl List.not_mem_nil
  | cons l layers ih =>
    intro st s s' network hbuild hw hs
    obtain ⟨layer, st1, rest, hlayer, hrest, -⟩ := buildLayers_cons hbuild
    obtain ⟨s1, hs1, hs⟩ := outShapes_cons.1 hs
    rw [List.forall_mem_cons]
    exact ⟨complete_of_buildSingle hlayer hw.1 hs1,
      ih hrest (hw.2 s1 ((outShape_normalise l s).trans hs1)) hs⟩

/-! ## Networks without optimisations -/

section NoOpt

omit [LinearOrder K] in
theorem computeOption_noOpt (c : Define K) (act : EActivation) (model : String) :
    (computeOption c .noOpt act model).enableFuseLayers = false ∧
      (computeOption c .noOpt act model).enableOptimizeActivation = false ∧
      (computeOption c .noOpt act model).enableOptimizePooling = false := by
  obtain ⟨coeff, h⟩ := computeOption_eq c .noOpt act model
  rw [h]
  exact ⟨rfl, rfl, rfl⟩

omit [LinearOrder K] in
theorem parts_noOpt {o : OptOption K} (hact : o.enableOptimizeActivation = false)
    (hpool : o.enableOptimizePooling = false) : coeffPart o = 1 ∧ poolPart o = 1 := by
  rw [coeffPart, poolPart, hact, hpool]
  exact ⟨rfl, rfl⟩

variable [IsStrictOrderedRing K] [CommRing V] [Algebra K V]

/-- At `NO_OPT` a network that is built computes the model under `effective`. -/
theorem predict_noOpt (hε : c.epsilon = 0) {layers : List LayerInfo} {h w n units : ℕ}
    (hm : IsModel layers h w n units) {act : EActivation} {model : String} {network : List (Layer K)}
    (hbuild : buildNetwork ⟨.exact V, .unbounded, c⟩ file layers .fresh
      (computeOption c .noOpt act model) = .ok (network, st'))
    (hdisp : AllDispatch (computeOption c .noOpt act model) layers) {input : Tensor3 V}
    (hdims : (input.height, input.width, input.channels) = (h, w, n)) :
    predict (.exact V) .unbounded st'.option network input =
      .ok (Keras.predict c (effective c (computeOption c .noOpt act model)) file layers input) := by
  obtain ⟨hfuse, hact, hpool⟩ := computeOption_noOpt c act model
  have hparts : ∀ o' : OptOption K, SameFlags o' (computeOption c .noOpt act model) →
      coeffPart o' = 1 ∧ poolPart o' = 1 := fun o' ho =>
    parts_noOpt (ho.optimizeActivation.trans hact) (ho.optimizePooling.trans hpool)
  refine predict_effective hm hbuild hdims hdisp (pending_computeOption .noOpt act model) ?_
    (unclamped_zero hε _ _ _) ?_
  · refine along_of_sameFlags (fun o' s ho call hcall => ?_) (.refl _)
    rw [hfuse] at hcall
    obtain ⟨l, -, rfl⟩ := List.mem_map.1 hcall
    cases l with
    | averagePooling2D info => exact fun _ => (hparts o' ho).2
    | batchNormalization name => exact hparts o' ho
    | activation name activation => exact hparts o' ho
    | _ => trivial
  · rw [buildNetwork_fresh hm] at hbuild
    obtain ⟨h1, h2⟩ := hparts st'.option (sameFlags_buildLayers hbuild)
    rw [pending, h1, h2, one_mul]

omit [LinearOrder K] [IsStrictOrderedRing K] in
/-- Without optimised activations and the override, `activate` evaluates the named polynomial. -/
theorem storedActivation_named {o : OptOption K} (hdefault : o.activation = .default)
    (hopt : o.enableOptimizeActivation = false) {activation : String} (h : IsPolynomial activation)
    (x : V) : storedActivation c o activation x = Keras.activation c activation x := by
  unfold storedActivation swishTable Keras.activation
  rw [hopt, hdefault]
  rcases h with rfl | rfl | rfl
  · rw [if_pos rfl, if_pos rfl, sq]
  · simp [show swishRg4Deg4Name ≠ squareName by decide]
  · simp [show swishRg6Deg4Name ≠ squareName by decide, show swishRg6Deg4Name ≠ swishRg4Deg4Name by decide]

omit [IsStrictOrderedRing K] [LinearOrder K] in
theorem effective_agreeOn_keras {model : String} {l : LayerConfig} (hwindow : InWindow l)
    (hpoly : LayerPolynomial l) (shape : Option (ℕ × ℕ × ℕ)) :
    (effective (V := V) c (computeOption c .noOpt .default model)).AgreeOn (.keras V c)
      (l.info shape) := by
  obtain ⟨-, hact, -⟩ := computeOption_noOpt c .default model
  cases l with
  | conv2D config => exact windows_samePadAxis hwindow
  | averagePooling2D config => exact windows_samePadAxis (.inl hwindow)
  | activation name f =>
    funext x
    simp only [effective, Semantics.keras, hact, Bool.false_eq_true, if_false]
    exact storedActivation_named (computeOption_activation c .noOpt .default model) hact hpoly x
  | globalAveragePooling2D name dataFormat => exact absurd hwindow id
  | _ => trivial

end NoOpt

/-! ## Loading a model -/

variable (V) in
/-- `BuildNetwork` throws on the structure file, or its network computes the layers. -/
def LoadsAs [CommRing V] [Algebra K V] (c : Define K) (other : String → List V → List V)
    (file : H5File K) (json : JsonValue) (shape : ℕ × ℕ × ℕ) (layers : List LayerConfig)
    (next : NextLayer) (o : OptOption K) : Prop :=
  (∃ e, Thrown e ∧
    buildStructure (⟨.exact V, .lp64, c⟩ : Env K K V) file json next o = .error e) ∨
  ∃ network st,
    buildStructure (⟨.exact V, .lp64, c⟩ : Env K K V) file json next o = .ok (network, st) ∧
    ∀ input : Tensor3 V, (input.height, input.width, input.channels) = shape →
      predict (.exact V) .lp64 st.option network input =
        .ok (predictConfig c other file layers input)

omit [Field K] [LinearOrder K] in
theorem polynomial_of_registered {o : OptOption K} (hdefault : o.activation = .default)
    {activation : String} (h : Registered o activation) : IsPolynomial activation := by
  unfold Registered at h
  rw [hdefault] at h
  simpa [IsPolynomial] using h

omit [Field K] [LinearOrder K] in
theorem mem_layerInfos {shape : Option (ℕ × ℕ × ℕ)} {layers : List LayerConfig} {l : LayerInfo}
    (h : l ∈ layerInfos shape layers) : ∃ shape', ∃ l' ∈ layers, l = l'.info shape' := by
  cases layers with
  | nil => cases h
  | cons first layers =>
    rcases List.mem_cons.1 h with rfl | h
    · exact ⟨shape, first, List.mem_cons_self, rfl⟩
    · obtain ⟨l', hl', rfl⟩ := List.mem_map.1 h
      exact ⟨none, l', List.mem_cons_of_mem _ hl', rfl⟩

omit [Field K] [LinearOrder K] in
/-- The layers that the loader reads are a model. -/
theorem isModel_layerInfos {layers rest : List LayerConfig} {h w n units : ℕ} {config : Conv2DConfig}
    (hfirst : layers = .conv2D config :: rest) (hchannels : 0 < n)
    (hshapes : outShapes (layers.map (LayerConfig.info none)) (.image h w n) = some (.units units))
    (hwindow : ∀ l ∈ layers, InWindow l) : IsModel (layerInfos (some (h, w, n)) layers) h w n units := by
  refine ⟨⟨_, _, by rw [hfirst]; rfl, rfl⟩, ?_, hchannels, fun l hl => ?_⟩
  · rw [outShapes_layerInfos, hshapes]
  · obtain ⟨shape, l', hl', rfl⟩ := mem_layerInfos hl
    cases l' with
    | averagePooling2D config => exact hwindow _ hl'
    | _ => trivial

/-- The activations of a network that has been built are registered ones. -/
theorem layerPolynomial_of_build [CommRing V] [Algebra K V] {layers : List LayerConfig} {h w n units : ℕ}
    {c : Define K} {file : H5File K} {o : OptOption K} {network : List (Layer K)} {st : BuildState K}
    (hdefault : o.activation = .default) (hm : IsModel (layerInfos (some (h, w, n)) layers) h w n units)
    (hbuild : buildNetwork ⟨.exact V, .unbounded, c⟩ file (layerInfos (some (h, w, n)) layers) .fresh o =
      .ok (network, st)) : ∀ l ∈ layers, LayerPolynomial l := by
  intro l hl
  cases l with
  | activation name f =>
    have hinfo : .activation name f ∈ layerInfos (some (h, w, n)) layers := by
      cases layers with
      | nil => cases hl
      | cons first layers =>
        rcases List.mem_cons.1 hl with rfl | hl
        · exact List.mem_cons_self
        · exact List.mem_cons_of_mem _ (List.mem_map.2 ⟨.activation name f, hl, rfl⟩)
    exact polynomial_of_registered hdefault (registered_of_buildNetwork hm hbuild hinfo)
  | _ => trivial

omit [Field K] [LinearOrder K] in
theorem buildCalls_false (layers : List LayerInfo) : buildCalls false layers = layers.map .single := rfl

/-- Two builds leave the same option, and the network of machine integers predicts what the other predicts. -/
structure SamePredictions {K Pt Ct : Type} [Field K] [LinearOrder K] (ev : Evaluator K Pt Ct)
    (p q : List (Layer Pt) × BuildState K) : Prop where
  option : p.2.option = q.2.option
  predict : ∀ (o : OptOption K) (input : Tensor3 Ct),
    predict ev .lp64 o p.1 input = predict ev .unbounded o q.1 input

/-- A structure file is built in machine integers, in a process that has built other models, as its
layers are built in a fresh one with integers without bounds. -/
theorem buildStructure_alike {ev : Evaluator K Pt Ct} {c : Define K} {file : H5File K} {json : JsonValue}
    {m : Keras.Sequential} {h w n units : ℕ} (hjson : DescribesModel json m) (hfits : m.SizesFit)
    (hm : IsModel (layerInfos (some m.batchInputShape) m.layers) h w n units)
    (hbelow : ExtentsBelow (layerInfos (some m.batchInputShape) m.layers) h w) {next : NextLayer}
    {o : OptOption K} (hread : next.inUnits = 0 ∨ NoStaleRead next.inUnits
      (buildCalls o.enableFuseLayers (layerInfos (some m.batchInputShape) m.layers)) n) :
    Alike (SamePredictions ev) (buildStructure ⟨ev, .lp64, c⟩ file json next o)
      (buildNetwork ⟨ev, .unbounded, c⟩ file (layerInfos (some m.batchInputShape) m.layers) .fresh
        o) := by
  obtain ⟨info, rest, hlayers, hbatch⟩ := hm.first
  have hnext := outcomeOf_buildNetwork hbatch ⟨ev, .lp64, c⟩ file (hlayers ▸ hread)
  rw [← hlayers] at hnext
  rw [buildStructure_describes hjson hfits]
  refine Alike.trans (fun p q r hpq hqr => ?_) (alike_of_outcomeOf hnext) (buildNetwork_lp64 hm hbelow)
  obtain ⟨hlayers, hoption⟩ := hpq
  refine ⟨hoption.trans (congrArg BuildState.option hqr.state), fun o' input => ?_⟩
  rw [hlayers]
  simp only [predict, hqr.predict]

/-- What a network without bounds computes is what the structure file loads as. -/
theorem loadsAs_of_alike [CommRing V] [Algebra K V] {c : Define K} {other : String → List V → List V}
    {file : H5File K} {json : JsonValue} {shape : ℕ × ℕ × ℕ} {layers : List LayerConfig} {next : NextLayer}
    {o : OptOption K} {x : Except Error (List (Layer K) × BuildState K)}
    (h : Alike (SamePredictions (.exact V)) (buildStructure ⟨.exact V, .lp64, c⟩ file json next o) x)
    (herror : ∀ e, x = .error e → Thrown e)
    (hok : ∀ network st, x = .ok (network, st) → ∀ input : Tensor3 V,
      (input.height, input.width, input.channels) = shape →
      predict (.exact V) .unbounded st.option network input =
        .ok (predictConfig c other file layers input)) :
    LoadsAs V c other file json shape layers next o := by
  cases x with
  | error e => exact .inl ⟨e, herror e rfl, h.eq_error⟩
  | ok p =>
    obtain ⟨⟨network, st⟩, hbuild, hoption, hpredict⟩ := h.exists_ok_left
    refine .inr ⟨network, st, hbuild, fun input hdims => ?_⟩
    rw [hpredict, hoption]
    exact hok p.1 p.2 rfl input hdims

section Sample

/-- A file whose data sets have one element each, but for the kernels of the given paths. -/
def kernelFile (value : String → ℚ) (kernels : List (String × List ℚ)) : H5File ℚ := fun path =>
  some fun key => some (if key = kernelKey then (kernels.lookup path).getD [value key] else [value key])

def convConfig : Conv2DConfig where
  name := "conv2d"
  filters := 1
  kernelSize := (1, 1)
  strides := (1, 1)
  padding := "same"
  dataFormat := .channelsLast
  dilationRate := (1, 1)
  activation := linearName
  useBias := true

def bnConfig : BatchNormalizationConfig where
  name := "batch_normalization"
  axis := -1
  epsilon := 1 / 1000
  center := true
  scale := true

def denseConfig (activation : String) : LayerConfig :=
  .dense { name := "dense", units := 1, activation, useBias := true }

/-- A model with another epsilon and a convolution with an activation. -/
def loaderSample : Keras.Sequential where
  batchInputShape := (2, 2, 1)
  layers := [.conv2D { convConfig with activation := "relu" },
    .batchNormalization { bnConfig with epsilon := 1 / 100 }, .activation "activation" squareName,
    .flatten "flatten", denseConfig "softmax"]

def loaderFile : H5File ℚ := kernelFile (fun _ => 1) [("/dense/dense", [1, 2, 3, 4])]

/-- The rectifier. -/
def reluFn (name : String) (u : List ℚ) : List ℚ := if name = "relu" then u.map (max 0) else u

theorem stores_kernelFile {value : String → ℚ} {kernels : List (String × List ℚ)} {path key : String}
    {n : ℕ}
    (h : (if key = kernelKey then (kernels.lookup path).getD [value key] else [value key]).length = n) :
    Stores (kernelFile value kernels) path key n true :=
  ⟨_, _, rfl, rfl, h⟩

theorem loaderSample_matching :
    Matching loaderFile (loaderSample.layers.map normalise) (.image 2 2 1) := by
  refine .cons (.image 2 2 1) (by decide) (fun h w n hs => ?_) <|
    .cons (.image 2 2 1) (by decide) (fun n hn => ?_) <| .cons (.image 2 2 1) (by decide) trivial <|
    .cons (.units 4) (by decide) trivial <| .cons (.units 1) (by decide) (fun n hn => ?_) trivial
  · cases hs
    exact ⟨stores_kernelFile (by decide), stores_kernelFile (by decide)⟩
  · cases hn
    exact ⟨stores_kernelFile (by decide), stores_kernelFile (by decide), stores_kernelFile (by decide),
      stores_kernelFile (by decide)⟩
  · cases hn
    exact ⟨stores_kernelFile (by decide), stores_kernelFile (by decide)⟩

/-- The structure file of the model and a matching weights file give a network of another function. -/
def Changed (file : H5File ℚ) (m : Keras.Sequential) : Prop :=
  (∃ units, configShapes m.layers
    (.image m.batchInputShape.1 m.batchInputShape.2.1 m.batchInputShape.2.2) = some (.units units)) ∧
  Matching file m.layers
    (.image m.batchInputShape.1 m.batchInputShape.2.1 m.batchInputShape.2.2) ∧
  ¬LoadsAs ℚ unroundedDefine reluFn file m.json m.batchInputShape (dropSoftmax m.layers) .fresh
    (computeOption unroundedDefine .noOpt .default "HCNN")

theorem not_loadsAs {file : H5File ℚ} {m : Keras.Sequential} {layers : List LayerConfig} {o : OptOption ℚ}
    (input : Tensor3 ℚ) (output : List ℚ)
    (hdims : (input.height, input.width, input.channels) = m.batchInputShape)
    (hrun : (do
      let (network, st) ← buildStructure (⟨.exact ℚ, .lp64, unroundedDefine⟩ : Env ℚ ℚ ℚ) file
        m.json .fresh o
      predict (.exact ℚ) .lp64 st.option network input) = .ok output)
    (hkeras : predictConfig unroundedDefine reluFn file layers input ≠ output) :
    ¬LoadsAs ℚ unroundedDefine reluFn file m.json m.batchInputShape layers .fresh o := by
  obtain ⟨⟨network, st⟩, hbuild, hpredict⟩ := bind_eq_ok.1 hrun
  rintro (⟨e, -, he⟩ | ⟨network', st', hbuild', hcomputes⟩)
  · rw [hbuild] at he
    cases he
  · rw [hbuild] at hbuild'
    cases hbuild'
    exact hkeras (Except.ok.inj ((hcomputes input hdims).symm.trans hpredict))

def onePixel (l : Conv2DConfig) (bn : List LayerConfig) : Keras.Sequential where
  batchInputShape := (1, 1, 1)
  layers := .conv2D l :: bn ++ [.flatten "flatten", denseConfig linearName]

end Sample

end Cnn
