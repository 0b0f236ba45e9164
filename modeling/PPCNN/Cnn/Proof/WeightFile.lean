import PPCNN.Cnn.Proof.Neutral

/-!
# Weights files of neutral weights

A file for a model is put together from one group for each layer, under the layer's own name
(`exists_file`). The groups make every layer neutral, except that one batch normalisation may have
any weight and bias.
-/

set_option autoImplicit false

namespace Cnn.Proof

open Lib Keras

variable {K : Type} [Field K]

/-! ## Names -/

/-- The name under which the weights of a layer are stored. -/
def weightName : LayerInfo → Option String
  | .conv2D info => some info.name
  | .dense info => some info.name
  | .batchNormalization name => some name
  | _ => none

/-- Layers with weights have different names, as Keras requires of all layers. -/
def DistinctNames (layers : List LayerInfo) : Prop := (layers.filterMap weightName).Nodup

theorem groupPath_injective {a b : String} (h : groupPath a a = groupPath b b) : a = b := by
  have hlist : '/' :: (a.toList ++ '/' :: a.toList) = '/' :: (b.toList ++ '/' :: b.toList) := by
    simpa [groupPath, String.toList_append] using congrArg String.toList h
  have hlen : a.toList.length = b.toList.length := by
    have := congrArg List.length hlist
    simp only [List.length_cons, List.length_append] at this
    omega
  exact String.toList_injective (List.append_inj_left (List.cons.inj hlist).2 hlen)

/-! ## One layer -/

theorem data_of_group {file : H5File K} {path : String} {group : DataSets K} {ds : List K}
    (hfile : file path = some group) (key : String) (hgroup : group key = some ds) (i : ℕ) :
    data file path key i = ds.getD i 0 := by
  simp [data, hfile, hgroup]

omit [Field K] in
theorem getD_ofFn {n i : ℕ} (f : ℕ → K) (z : K) (h : i < n) :
    (List.ofFn fun j : Fin n => f j).getD i z = f i := by
  rw [List.getD_eq_getElem?_getD, List.getElem?_ofFn, dif_pos h, Option.getD_some]

omit [Field K] in
theorem getD_replicate {n i : ℕ} (x z : K) (h : i < n) : (List.replicate n x).getD i z = x := by
  rw [List.getD_eq_getElem?_getD, List.getElem?_replicate, if_pos h, Option.getD_some]

theorem kernelIndex_lt {fh fw n filters i j ic oc : ℕ} (hi : i < fh) (hj : j < fw) (hic : ic < n)
    (hoc : oc < filters) : kernelIndex fw n filters i j ic oc < fh * fw * n * filters := by
  have h1 : i * fw + j < fh * fw := by
    have := Nat.mul_le_mul_right fw hi
    rw [Nat.succ_mul] at this
    omega
  have h2 : (i * fw + j) * n + ic < fh * fw * n := by
    have := Nat.mul_le_mul_right n h1
    rw [Nat.succ_mul] at this
    omega
  have := Nat.mul_le_mul_right filters h2
  rw [Nat.succ_mul] at this
  exact lt_of_lt_of_le (Nat.add_lt_add_left hoc _) this

/-- The positions of a kernel at tap `(i', j')` of the first channel. -/
theorem kernelIndex_tap {fw n filters i j i' j' ic oc : ℕ} (hj : j < fw) (hj' : j' < fw)
    (hic : ic < n) (hoc : oc < filters) :
    kernelIndex fw n filters i j ic oc / filters = (i' * fw + j') * n ↔
      i = i' ∧ j = j' ∧ ic = 0 := by
  have hdiv : kernelIndex fw n filters i j ic oc / filters = (i * fw + j) * n + ic := by
    rw [kernelIndex, Nat.add_comm, Nat.add_mul_div_right _ _ (by omega), Nat.div_eq_of_lt hoc,
      Nat.zero_add]
  rw [hdiv]
  constructor
  · intro h
    have hn : 0 < n := by omega
    have hmod := congrArg (· % n) h
    simp only [Nat.mul_mod_left, Nat.mul_add_mod_self_right,
      Nat.mod_eq_of_lt hic] at hmod
    have hrow : i * fw + j = i' * fw + j' := by
      subst hmod
      exact Nat.eq_of_mul_eq_mul_right hn (by omega)
    have hjj := congrArg (· % fw) hrow
    simp only [Nat.mul_add_mod_self_right, Nat.mod_eq_of_lt hj, Nat.mod_eq_of_lt hj'] at hjj
    refine ⟨?_, hjj, hmod⟩
    exact Nat.eq_of_mul_eq_mul_right (by omega : 0 < fw) (by omega)
  · rintro ⟨rfl, rfl, rfl⟩
    omega

/-- A group with a kernel and a bias. -/
def linearGroup (kernel bias : List K) : DataSets K := fun key =>
  if key = kernelKey then some kernel else if key = biasKey then some bias else none

/-- A group with the data sets of a batch normalisation, each of `n` equal elements. -/
def bnGroup (n : ℕ) (beta gamma movingMean movingVariance : K) : DataSets K := fun key =>
  if key = betaKey then some (List.replicate n beta)
  else if key = gammaKey then some (List.replicate n gamma)
  else if key = movingMeanKey then some (List.replicate n movingMean)
  else if key = movingVarianceKey then some (List.replicate n movingVariance)
  else none

section Layer

variable (c : Define K)

/-- The data sets of the layer are there, and it is neutral, or has the given weight and bias if it is
the batch normalisation `special`. -/
def NeutralBut (special : String) (weight bias : K) (file : H5File K) (l : LayerInfo) (s : Shape) :
    Prop :=
  LayerData file l s ∧
    if l = .batchNormalization special then BnIs c file special s weight bias else Neutral c file l s

variable {c} {special : String} {weight bias : K} {file file' : H5File K} {l : LayerInfo} {s : Shape}

theorem conv2D_neutral {info : Conv2DInfo} {h w n : ℕ} {s' : Shape}
    (hs : outShape (.conv2D info) (.image h w n) = some s')
    (hfile : file (groupPath info.name info.name) = some (linearGroup
      (List.ofFn fun idx : Fin (info.kernelSize.1 * info.kernelSize.2 * n * info.filters) =>
        if idx / info.filters = (tap info.padding h info.kernelSize.1 info.strides.1 *
          info.kernelSize.2 + tap info.padding w info.kernelSize.2 info.strides.2) * n then 1 else 0)
      (List.replicate info.filters 0))) :
    LayerData file (.conv2D info) (.image h w n) ∧ Neutral c file (.conv2D info) (.image h w n) := by
  obtain ⟨oh, ow, hoh, how, -, -, -⟩ := outShape_conv2D hs
  obtain ⟨win, hwin, -, -⟩ := windows_of_outSize hoh how samePadAxis
  obtain ⟨-, hwz, -, -⟩ := windows_eq_some.1 hwin
  have htap := tap_eq hwz ▸ (window_fixed_tap hwz).1
  refine ⟨⟨⟨_, _, hfile, rfl, List.length_ofFn⟩, _, _, hfile, rfl, List.length_replicate⟩, ?_, ?_⟩
  · intro i hi j hj ic hic oc hoc
    rw [convKernel, data_of_group hfile _ rfl]
    exact (getD_ofFn (fun idx => if idx / info.filters = _ then (1 : K) else 0) 0
      (kernelIndex_lt hi hj hic hoc)).trans (if_congr (kernelIndex_tap hj htap hic hoc) rfl rfl)
  · intro oc hoc
    rw [data_of_group hfile _ rfl, getD_replicate _ _ hoc]

theorem dense_neutral {info : DenseInfo} {n : ℕ}
    (hfile : file (groupPath info.name info.name) = some (linearGroup
      (List.ofFn fun idx : Fin (n * info.units) => if idx.val < info.units then 1 else 0)
      (List.replicate info.units 0))) :
    LayerData file (.dense info) (.units n) ∧ Neutral c file (.dense info) (.units n) := by
  refine ⟨⟨⟨_, _, hfile, rfl, List.length_ofFn⟩, _, _, hfile, rfl, List.length_replicate⟩, ?_, ?_⟩
  · intro i hi ou hou
    have hlt : i * info.units + ou < n * info.units := by
      have := Nat.mul_le_mul_right info.units hi
      rw [Nat.succ_mul] at this
      omega
    rw [denseKernel, data_of_group hfile _ rfl]
    refine (getD_ofFn (fun idx => if idx < info.units then (1 : K) else 0) 0 hlt).trans ?_
    refine if_congr ⟨fun h => ?_, fun h => by rw [h]; omega⟩ rfl rfl
    by_contra hne
    have := Nat.mul_le_mul_right info.units (Nat.one_le_iff_ne_zero.2 hne)
    omega
  · intro ou hou
    rw [data_of_group hfile _ rfl, getD_replicate _ _ hou]

theorem batchNormalization_is {v : K} (hv : c.sqrt (v + c.bnEpsilon) ≠ 0) {name : String}
    (hfile : file (groupPath name name) =
      some (bnGroup s.lastDim bias (weight * c.sqrt (v + c.bnEpsilon)) 0 v)) :
    LayerData file (.batchNormalization name) s ∧ BnIs c file name s weight bias := by
  refine ⟨?_, fun i hi => ?_⟩
  · simp only [LayerData, HasBnData, List.forall_mem_cons]
    exact ⟨⟨_, _, hfile, rfl, List.length_replicate⟩, ⟨_, _, hfile, rfl, List.length_replicate⟩,
      ⟨_, _, hfile, rfl, List.length_replicate⟩, ⟨_, _, hfile, rfl, List.length_replicate⟩,
      fun _ h => by cases h⟩
  · have hweight : (bnData file (groupPath name name)).weight id c i = weight := by
      simp only [BnData.weight, bnWeight, bnData, id_eq]
      rw [data_of_group hfile gammaKey rfl, data_of_group hfile movingVarianceKey rfl,
        getD_replicate _ _ hi, getD_replicate _ _ hi, mul_div_cancel_right₀ _ hv]
    refine ⟨hweight, ?_⟩
    rw [BnData.bias, hweight, bnBias, id_eq, id_eq]
    simp only [bnData]
    rw [data_of_group hfile betaKey rfl, data_of_group hfile movingMeanKey rfl,
      getD_replicate _ _ hi, getD_replicate _ _ hi, mul_zero, sub_zero]

theorem exists_group {v : K} (hv : c.sqrt (v + c.bnEpsilon) ≠ 0) (special : String)
    (weight bias : K) {s' : Shape} (hs : outShape l s = some s') :
    ∃ group : DataSets K, ∀ file, (∀ name ∈ weightName l, file (groupPath name name) = some group) →
      NeutralBut c special weight bias file l s := by
  cases l with
  | conv2D info =>
    cases s with
    | image h w n =>
      exact ⟨_, fun file hfile => ⟨(conv2D_neutral (c := c) hs (hfile _ rfl)).1,
        (if_neg (by simp)).mpr (conv2D_neutral hs (hfile _ rfl)).2⟩⟩
    | units n => cases hs
  | dense info =>
    cases s with
    | image h w n => cases hs
    | units n =>
      exact ⟨_, fun file hfile => ⟨(dense_neutral (c := c) (hfile _ rfl)).1,
        (if_neg (by simp)).mpr (dense_neutral (hfile _ rfl)).2⟩⟩
  | batchNormalization name =>
    by_cases hname : name = special
    · subst hname
      refine ⟨bnGroup s.lastDim bias (weight * c.sqrt (v + c.bnEpsilon)) 0 v, fun file hfile => ?_⟩
      obtain ⟨hdata, hbn⟩ := batchNormalization_is hv (hfile name rfl)
      exact ⟨hdata, (if_pos rfl).mpr hbn⟩
    · refine ⟨bnGroup s.lastDim 0 (1 * c.sqrt (v + c.bnEpsilon)) 0 v, fun file hfile => ?_⟩
      obtain ⟨hdata, hbn⟩ := batchNormalization_is hv (hfile name rfl)
      exact ⟨hdata, (if_neg (by simpa using hname)).mpr hbn⟩
  | _ => exact ⟨fun _ => none, fun file _ => ⟨trivial, (if_neg (by simp)).mpr trivial⟩⟩

omit [Field K] in
theorem hasData_congr {path key : String} {n : ℕ} (h : file path = file' path) :
    HasData file path key n ↔ HasData file' path key n := by
  rw [HasData, HasData, h]

theorem bnIs_congr {name : String} (h : file (groupPath name name) = file' (groupPath name name)) :
    BnIs c file name s weight bias ↔ BnIs c file' name s weight bias := by
  have hdata : ∀ key, data file (groupPath name name) key = data file' (groupPath name name) key :=
    fun key => funext fun i => by rw [data, data, h]
  simp only [BnIs, bnData, hdata]

/-- Only the group of the layer matters. -/
theorem neutralBut_congr
    (h : ∀ name ∈ weightName l, file (groupPath name name) = file' (groupPath name name)) :
    NeutralBut c special weight bias file l s ↔ NeutralBut c special weight bias file' l s := by
  cases l with
  | conv2D info =>
    have h := h info.name rfl
    cases s with
    | image height w n =>
      simp only [NeutralBut, LayerData, Neutral, convKernel, data, hasData_congr h, h, reduceCtorEq,
        if_false]
    | units n => exact Iff.rfl
  | dense info =>
    have h := h info.name rfl
    cases s with
    | image height w n => exact Iff.rfl
    | units n =>
      simp only [NeutralBut, LayerData, Neutral, denseKernel, data, hasData_congr h, h, reduceCtorEq,
        if_false]
  | batchNormalization name =>
    have h := h name rfl
    have hbn : HasBnData file name s.lastDim ↔ HasBnData file' name s.lastDim :=
      forall₂_congr fun key _ => hasData_congr h
    simp only [NeutralBut, LayerData, Neutral, hbn, bnIs_congr h]
    split
    · rename_i heq
      rw [← LayerInfo.batchNormalization.inj heq, bnIs_congr h]
    · rfl
  | _ => exact Iff.rfl

/-- A model whose layers have different names has a weights file that makes every layer neutral, and
one batch normalisation any affine map. -/
theorem exists_file {v : K} (hv : c.sqrt (v + c.bnEpsilon) ≠ 0) (special : String)
    (weight bias : K) {layers : List LayerInfo} (hnames : DistinctNames layers) {s s' : Shape}
    (hs : outShapes layers s = some s') :
    ∃ file, EveryLayer (NeutralBut c special weight bias file) layers s := by
  induction layers generalizing s with
  | nil => exact ⟨fun _ => none, trivial⟩
  | cons l layers ih =>
    obtain ⟨s1, hs1, hs⟩ := outShapes_cons.1 hs
    obtain ⟨group, hgroup⟩ := exists_group hv special weight bias hs1
    have hrest : DistinctNames layers := by
      unfold DistinctNames at hnames ⊢
      rw [List.filterMap_cons] at hnames
      split at hnames
      · exact hnames
      · exact (List.nodup_cons.1 hnames).2
    obtain ⟨file, hfile⟩ := ih hrest hs
    cases hname : weightName l with
    | none =>
      refine ⟨file, hgroup file (by simp [hname]), fun s' hs' => ?_⟩
      obtain rfl := Option.some.inj (hs1.symm.trans hs')
      exact hfile
    | some name =>
      have hnew : name ∉ layers.filterMap weightName := by
        rw [DistinctNames, List.filterMap_cons, hname] at hnames
        exact (List.nodup_cons.1 hnames).1
      refine ⟨Function.update file (groupPath name name) (some group), hgroup _ ?_, fun s' hs' => ?_⟩
      · intro name' h
        obtain rfl := Option.some.inj (hname.symm.trans h)
        exact Function.update_self ..
      · obtain rfl := Option.some.inj (hs1.symm.trans hs')
        refine hfile.imp fun l' hl' s h => (neutralBut_congr fun name' h' => ?_).1 h
        rw [Function.update_of_ne]
        intro hpath
        obtain rfl := groupPath_injective hpath
        exact hnew (List.mem_filterMap.2 ⟨l', hl', h'⟩)

end Layer

end Cnn.Proof
