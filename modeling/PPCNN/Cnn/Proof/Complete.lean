import PPCNN.Cnn.Proof.Network
import PPCNN.Cnn.Proof.Recorded

/-!
# Networks that are built

In exact arithmetic, `BuildNetwork` succeeds on a model whose weights file has its data sets and
whose activations are registered (`buildNetwork_succeeds`).
-/

set_option autoImplicit false

namespace Cnn.Proof

open Lib Keras

variable {K : Type} [Field K] {c : Define K} {file : H5File K} {st st' : BuildState K}

/-! ## Data sets -/

section Data

variable {path key : String} {n : ℕ} {group : DataSets K} {ds : List K}

omit [Field K] in
theorem openGroup_succeeds (h : HasData file path key n) : Succeeds (file.openGroup path) := by
  obtain ⟨group, ds, hg, -, -⟩ := h
  exact ⟨group, H5File.openGroup_eq_ok.2 hg⟩

omit [Field K] in
theorem openDataSet_succeeds (h : HasData file path key n) (hg : file.openGroup path = .ok group) :
    Succeeds (group.openDataSet key) := by
  obtain ⟨group', ds, hg', hd, -⟩ := h
  rw [H5File.openGroup_eq_ok, hg', Option.some_inj] at hg
  subst hg
  exact ⟨ds, DataSets.openDataSet_eq_ok.2 hd⟩

theorem readBuffer_succeeds (h : HasData file path key n) (hg : file.openGroup path = .ok group)
    (hd : group.openDataSet key = .ok ds) : Succeeds (readBuffer ds n) := by
  obtain ⟨group', ds', hg', hd', hlen⟩ := h
  rw [H5File.openGroup_eq_ok, hg', Option.some_inj] at hg
  subst hg
  rw [DataSets.openDataSet_eq_ok, hd', Option.some_inj] at hd
  subst hd
  exact ⟨_, readBuffer_eq_ok.2 ⟨hlen.le, rfl⟩⟩

theorem bnDataRead_succeeds {name : String} (h : HasBnData file name n)
    (hg : file.openGroup (groupPath name name) = .ok group) : Succeeds (BnData.read group n) := by
  have h1 := h betaKey (by simp)
  have h2 := h gammaKey (by simp)
  have h3 := h movingMeanKey (by simp)
  have h4 := h movingVarianceKey (by simp)
  refine (openDataSet_succeeds h1 hg).bind fun d1 hd1 => (openDataSet_succeeds h2 hg).bind
    fun d2 hd2 => (openDataSet_succeeds h3 hg).bind fun d3 hd3 => (openDataSet_succeeds h4 hg).bind
    fun d4 hd4 => (readBuffer_succeeds h1 hg hd1).bind fun f1 _ =>
    (readBuffer_succeeds h2 hg hd2).bind fun f2 _ => (readBuffer_succeeds h3 hg hd3).bind
    fun f3 _ => (readBuffer_succeeds h4 hg hd4).bind fun f4 _ => succeeds_ok _

end Data

variable {V : Type} [CommRing V] [Algebra K V]

theorem modSwitchPlain_exact (p : K) :
    (Evaluator.exact (K := K) V).modSwitchPlain p = .ok p := rfl

@[simp] theorem encodeAt_exact (lv : ℕ) (w : K) : (Evaluator.exact (K := K) V).encodeAt lv w = .ok w := by
  have htimes : ∀ n, (Evaluator.exact (K := K) V).modSwitchPlainTimes n w = .ok w := by
    intro n
    induction n with
    | zero => rfl
    | succ n ih => exact ih
  exact htimes lv

theorem axis_succeeds {padding : String} {inSize size stride out : ℕ}
    (h : outSize padding inSize size stride = some out) :
    Succeeds (Axis.new .unbounded padding inSize size stride) := by
  obtain ⟨a, ha, -⟩ := axis_of_window (w := ⟨out, _⟩) (window_eq_some.2 ⟨h, rfl⟩)
  exact ⟨a, ha⟩

/-! ## Builders -/

variable [LinearOrder K]

section Conv

variable {info : Conv2DInfo} {h w n : ℕ} {s : Shape}

omit [Field K] [LinearOrder K] in
theorem conv2DNew_succeeds {name padding activation : String} {fs fh fw sh sw oh ow : ℕ}
    {filters : Fin fh → Fin fw → Fin n → Fin fs → K} {biases : Fin fs → K} {o : OptOption K}
    (hh : outSize padding h fh sh = some oh) (hw : outSize padding w fw sw = some ow) :
    Succeeds (Conv2D.new .unbounded name h w n fs fh fw sh sw padding activation filters biases o) :=
  (axis_succeeds hh).bind fun _ _ => (axis_succeeds hw).bind fun _ _ => succeeds_ok _

theorem buildConv2D_succeeds (hs : outShape (.conv2D info) (.image h w n) = some s)
    (hdata : LayerData file (.conv2D info) (.image h w n))
    (hnext : NextFor st.next (.image h w n)) :
    Succeeds (buildConv2D ⟨.exact V, .unbounded, c⟩ file info st) := by
  obtain ⟨oh, ow, hoh, how, -, hbatch, -⟩ := outShape_conv2D hs
  obtain ⟨hk, hb⟩ := hdata
  simp only [buildConv2D, inShape_of_next hnext hbatch]
  refine (openGroup_succeeds hk).bind fun group hg => (openDataSet_succeeds hk hg).bind fun kds hkd =>
    (openDataSet_succeeds hb hg).bind fun bds hbd => (readBuffer_succeeds hk hg hkd).bind fun f _ =>
    (readBuffer_succeeds hb hg hbd).bind fun b _ => ?_
  refine (succeeds_seqFin fun _ => succeeds_seqFin fun _ => succeeds_seqFin fun _ =>
    succeeds_seqFin fun _ => ⟨_, encodeAt_exact _ _⟩).bind fun pf _ =>
    (succeeds_seqFin fun _ => ⟨_, encodeAt_exact _ _⟩).bind fun pb _ =>
    (conv2DNew_succeeds hoh how).bind fun _ _ => succeeds_ok _

theorem buildConv2DFusedBN_succeeds {bn : String}
    (hs : outShape (.conv2D info) (.image h w n) = some s)
    (hdata : LayerData file (.conv2D info) (.image h w n)) (hbn : HasBnData file bn info.filters)
    (hnext : NextFor st.next (.image h w n)) :
    Succeeds (buildConv2DFusedBN ⟨.exact V, .unbounded, c⟩ file info bn st) := by
  obtain ⟨oh, ow, hoh, how, -, hbatch, -⟩ := outShape_conv2D hs
  obtain ⟨hk, hb⟩ := hdata
  simp only [buildConv2DFusedBN, inShape_of_next hnext hbatch]
  refine (openGroup_succeeds hk).bind fun group hg =>
    (openGroup_succeeds (hbn betaKey (by simp))).bind fun bgroup hbg =>
    (openDataSet_succeeds hk hg).bind fun kds hkd =>
    (openDataSet_succeeds hb hg).bind fun bds hbd => (readBuffer_succeeds hk hg hkd).bind fun f _ =>
    (readBuffer_succeeds hb hg hbd).bind fun b _ => (bnDataRead_succeeds hbn hbg).bind fun d _ => ?_
  refine (succeeds_seqFin fun _ => ⟨_, encodeAt_exact _ _⟩).bind fun pb _ =>
    (succeeds_seqFin fun _ => succeeds_seqFin fun _ => succeeds_seqFin fun _ =>
      succeeds_seqFin fun _ => ⟨_, encodeAt_exact _ _⟩).bind fun pf _ =>
    (conv2DNew_succeeds hoh how).bind fun _ _ => succeeds_ok _

end Conv

omit [LinearOrder K] in
theorem buildAveragePooling2D_of_axes {A : IntArith} {info : AveragePooling2DInfo}
    (hv : Succeeds (Axis.new A info.padding st.next.inHeight info.poolSize.1 info.strides.1))
    (hh : Succeeds (Axis.new A info.padding st.next.inWidth info.poolSize.2 info.strides.2)) :
    Succeeds (buildAveragePooling2D ⟨.exact V, A, c⟩ info st) := by
  have hfactor : Succeeds (poolMulFactor (⟨.exact V, A, c⟩ : Env K K V) info st.option) := by
    unfold poolMulFactor
    dsimp only
    split
    · exact succeeds_ok _
    · split
      · exact Succeeds.bind ⟨_, encodeAt_exact _ _⟩ fun _ _ => succeeds_ok _
      · exact Succeeds.bind ⟨_, encodeAt_exact _ _⟩ fun _ _ => succeeds_ok _
  refine hfactor.bind fun p _ => Succeeds.bind ?_ fun _ _ => succeeds_ok _
  exact hv.bind fun _ _ => hh.bind fun _ _ => succeeds_ok _

omit [LinearOrder K] in
theorem buildAveragePooling2D_succeeds {info : AveragePooling2DInfo} {h w n : ℕ} {s : Shape}
    (hs : outShape (.averagePooling2D info) (.image h w n) = some s)
    (hnext : NextFor st.next (.image h w n)) :
    Succeeds (buildAveragePooling2D ⟨.exact V, .unbounded, c⟩ info st) := by
  obtain ⟨oh, ow, hoh, how, -⟩ := outShape_averagePooling2D hs
  have hnext : st.next = ⟨h, w, n, 0⟩ := hnext
  exact buildAveragePooling2D_of_axes (hnext ▸ axis_succeeds hoh) (hnext ▸ axis_succeeds how)

omit [LinearOrder K] in
theorem buildBatchNormalization_succeeds {name : String} {s : Shape} (hpos : s.Positive)
    (hdata : HasBnData file name s.lastDim) (hnext : NextFor st.next s) :
    Succeeds (buildBatchNormalization ⟨.exact V, .unbounded, c⟩ file name st) := by
  simp only [buildBatchNormalization, bnDim_of_next hpos hnext]
  exact (openGroup_succeeds (hdata betaKey (by simp))).bind fun group hg =>
    (bnDataRead_succeeds hdata hg).bind fun d _ =>
    (succeeds_seqFin fun _ => ⟨_, encodeAt_exact _ _⟩).bind fun _ _ =>
    (succeeds_seqFin fun _ => ⟨_, encodeAt_exact _ _⟩).bind fun _ _ => succeeds_ok _

theorem buildDense_succeeds {info : DenseInfo} {n : ℕ}
    (hdata : LayerData file (.dense info) (.units n)) (hnext : NextFor st.next (.units n)) :
    Succeeds (buildDense ⟨.exact V, .unbounded, c⟩ file info st) := by
  obtain ⟨hk, hb⟩ := hdata
  simp only [buildDense, show st.next.inUnits = n from hnext]
  exact (openGroup_succeeds hk).bind fun group hg => (openDataSet_succeeds hk hg).bind fun kds hkd =>
    (openDataSet_succeeds hb hg).bind fun bds hbd => (readBuffer_succeeds hk hg hkd).bind fun f _ =>
    (readBuffer_succeeds hb hg hbd).bind fun b _ =>
    (succeeds_seqFin fun _ => succeeds_seqFin fun _ => ⟨_, encodeAt_exact _ _⟩).bind fun _ _ =>
    (succeeds_seqFin fun _ => ⟨_, encodeAt_exact _ _⟩).bind fun _ _ => succeeds_ok _

/-- The constructor of `Activation` does not throw. -/
def Registered (o : OptOption K) (activation : String) : Prop :=
  (activation = squareName ∨ o.activation = .square) ∨
  (activation = swishRg4Deg4Name ∨ o.activation = .swishRg4Deg4) ∨
  (activation = swishRg6Deg4Name ∨ o.activation = .swishRg6Deg4)

omit [LinearOrder K] in
theorem newSwish_succeeds (name activation : String) (t : SwishCoeffs K) (o : OptOption K) :
    Succeeds (Activation.newSwish (.exact V) name activation t o) := by
  unfold Activation.newSwish
  cases o.enableOptimizeActivation <;>
    simp [SwishCoeffs.coeffs, SwishCoeffs.optCoeffs, readVector, modSwitchPlain_exact, Succeeds]

omit [LinearOrder K] in
theorem buildActivation_succeeds {name activation : String}
    (hreg : Registered st.option activation) :
    Succeeds (buildActivation ⟨.exact V, .unbounded, c⟩ name activation st) := by
  have hnew : ∀ o : OptOption K, o.activation = st.option.activation →
      Succeeds (Activation.new (.exact V) c name activation o) := by
    intro o ho
    unfold Activation.new
    rw [ho]
    split
    · exact succeeds_ok _
    · rename_i hsq
      split
      · exact newSwish_succeeds _ _ _ _
      · rename_i h4
        rw [if_pos ((hreg.resolve_left hsq).resolve_left h4)]
        exact newSwish_succeeds _ _ _ _
  exact (hnew _ (by split <;> rfl)).bind fun _ _ => succeeds_ok _

/-! ## One call -/

/-- The data sets of the layers of a call are in the file. The group of a fused `Dense` is looked up
under a name no model gives it. -/
def CallData (file : H5File K) : BuildCall → Shape → Prop
  | .single l, s => LayerData file l s
  | .conv2DFusedBN info bn, s => LayerData file (.conv2D info) s ∧ HasBnData file bn info.filters
  | .denseFusedBN _ _, _ => False

def CallRegistered (o : OptOption K) : BuildCall → Prop
  | .single (.activation _ activation) => Registered o activation
  | _ => True

omit [Field K] [LinearOrder K] in
theorem callRegistered_congr {o o' : OptOption K} (h : SameFlags o o') (call : BuildCall) :
    CallRegistered o call ↔ CallRegistered o' call := by
  cases call with
  | single l =>
    cases l with
    | activation name activation => simp only [CallRegistered, Registered, h.activation]
    | _ => exact Iff.rfl
  | _ => exact Iff.rfl

theorem buildLayer_succeeds {call : BuildCall} {s s' : Shape} (hpos : s.Positive)
    (hs : callShape call s = some s') (hdata : CallData file call s)
    (hreg : CallRegistered st.option call) (hnext : NextFor st.next s) :
    Succeeds (buildLayer ⟨.exact V, .unbounded, c⟩ file call st) := by
  cases call with
  | conv2DFusedBN info bn =>
    cases s with
    | image h w n => exact buildConv2DFusedBN_succeeds hs hdata.1 hdata.2 hnext
    | units n => cases hs
  | denseFusedBN info bn => exact absurd hdata id
  | single l =>
    cases l with
    | conv2D info =>
      cases s with
      | image h w n => exact buildConv2D_succeeds hs hdata hnext
      | units n => cases hs
    | averagePooling2D info =>
      cases s with
      | image h w n => exact buildAveragePooling2D_succeeds hs hnext
      | units n => cases hs
    | batchNormalization name => exact buildBatchNormalization_succeeds hpos hdata hnext
    | flatten name => exact succeeds_ok _
    | dense info =>
      cases s with
      | image h w n => cases hs
      | units n => exact buildDense_succeeds hdata hnext
    | activation name activation => exact buildActivation_succeeds hreg
    | globalAveragePooling2D name => exact succeeds_ok _
    | other className => cases s <;> cases hs

/-! ## Networks -/

def CallsData (file : H5File K) : List BuildCall → Shape → Prop
  | [], _ => True
  | call :: calls, s =>
    CallData file call s ∧ ∀ s', callShape call s = some s' → CallsData file calls s'

theorem buildLayers_succeeds {o : OptOption K} {calls : List BuildCall}
    (hreg : ∀ call ∈ calls, CallRegistered o call) :
    ∀ {st : BuildState K} {s s' : Shape}, s.Positive → callShapes calls s = some s' →
      CallsData file calls s → SameFlags st.option o → NextFor st.next s →
      Succeeds (buildLayers ⟨.exact V, .unbounded, c⟩ file calls st) := by
  induction calls with
  | nil => exact fun _ _ _ _ _ => succeeds_ok _
  | cons call calls ih =>
    intro st s s' hpos hs hdata hflags hnext
    obtain ⟨s1, hs1, hs⟩ := Option.bind_eq_some_iff.1 hs
    have hreg1 : CallRegistered st.option call :=
      (callRegistered_congr hflags call).2 (hreg call List.mem_cons_self)
    refine (buildLayer_succeeds hpos hs1 hdata.1 hreg1 hnext).bind fun p hp => ?_
    have hflags1 : SameFlags p.2.option o := (sameFlags_buildLayer hp).trans hflags
    obtain ⟨-, hnext1⟩ := buildLayer_recorded hp hs1 (sizesExact_unbounded s) hpos hnext
    exact (ih (fun call' h => hreg call' (List.mem_cons_of_mem _ h)) (callShape_positive hpos hs1) hs
      (hdata.2 s1 hs1) hflags1 hnext1).bind fun _ _ => succeeds_ok _

/-- The loader would look for the group of a `Dense` under the name of the fused layer. -/
def FusesNoDense (layers : List LayerInfo) : Prop :=
  ∀ info bn, .denseFusedBN info bn ∉ fusedCalls layers

omit [Field K] [LinearOrder K] in
theorem callsData_fusedCalls {layers : List LayerInfo} {s s' : Shape}
    (hs : outShapes layers s = some s') (hdata : ModelData file layers s) :
    (∀ info bn, .denseFusedBN info bn ∉ fusedCalls layers) →
      CallsData file (fusedCalls layers) s := by
  fun_induction fusedCalls layers generalizing s with
  | case1 => exact fun _ => trivial
  | case2 layer => exact fun _ => ⟨hdata.1, fun _ _ => trivial⟩
  | case3 conv2d bn layers ih =>
    intro hdense
    obtain ⟨s1, hs1, hs⟩ := outShapes_cons.1 hs
    obtain ⟨s2, hs2, hs⟩ := outShapes_cons.1 hs
    cases hs2
    obtain ⟨hbn, hrest⟩ := hdata.2 s1 hs1
    cases s with
    | units n => cases hs1
    | image h w n =>
      obtain ⟨oh, ow, -, -, rfl, -, -⟩ := outShape_conv2D hs1
      refine ⟨⟨hdata.1, hbn⟩, fun s' hs' => ?_⟩
      obtain rfl := Option.some.inj (hs1.symm.trans hs')
      exact ih hs (hrest _ rfl) fun info bn' h => hdense info bn' (List.mem_cons_of_mem _ h)
  | case4 dense bn layers ih => exact fun hdense => absurd List.mem_cons_self (hdense dense bn)
  | case5 layer next layers _ _ ih =>
    intro hdense
    obtain ⟨s1, hs1, hs⟩ := outShapes_cons.1 hs
    refine ⟨hdata.1, fun s' hs' => ?_⟩
    obtain rfl := Option.some.inj (hs1.symm.trans hs')
    exact ih hs (hdata.2 _ hs1) fun info bn' h => hdense info bn' (List.mem_cons_of_mem _ h)

omit [Field K] [LinearOrder K] in
theorem callsData_single {layers : List LayerInfo} {s : Shape} (hdata : ModelData file layers s) :
    CallsData file (layers.map .single) s := by
  induction layers generalizing s with
  | nil => trivial
  | cons l layers ih => exact ⟨hdata.1, fun s' hs' => ih (hdata.2 s' hs')⟩

/-- `BuildNetwork` succeeds on a model with its weights file. -/
theorem buildNetwork_succeeds {layers : List LayerInfo} {h w n units : ℕ} {o : OptOption K}
    (hm : IsModel layers h w n units) (hdata : ModelData file layers (.image h w n))
    (hreg : ∀ name activation, .activation name activation ∈ layers → Registered o activation)
    (hdense : o.enableFuseLayers = true → FusesNoDense layers) :
    Succeeds (buildNetwork ⟨.exact V, .unbounded, c⟩ file layers .fresh o) := by
  rw [buildNetwork_fresh hm]
  refine buildLayers_succeeds (o := o) ?_ hm.positive
    (callShapes_buildCalls o.enableFuseLayers layers _ ▸ hm.shapes) ?_ (.refl o) rfl
  · intro call hcall
    rcases mem_buildCalls hcall with ⟨l, hl, rfl⟩ | ⟨info, bn, rfl⟩ | ⟨info, bn, rfl⟩
    · cases l with
      | activation name activation => exact hreg name activation hl
      | _ => trivial
    · trivial
    · trivial
  · cases hfuse : o.enableFuseLayers with
    | true => exact callsData_fusedCalls hm.shapes hdata (hdense hfuse)
    | false => exact callsData_single hdata

omit [Field K] [LinearOrder K] in
/-- The constructor of `Activation` throws for the others. -/
theorem registered_of_buildActivation {Pt Ct : Type} {E : Env K Pt Ct} {name activation : String}
    {p : Layer Pt × BuildState K} (h : buildActivation E name activation st = .ok p) :
    Registered st.option activation := by
  unfold buildActivation at h
  obtain ⟨⟨l, option⟩, hnew, -⟩ := bind_eq_ok.1 h
  unfold Activation.new at hnew
  have hact : (if st.option.enableOptimizeActivation then
      { st.option with shouldMultiplyCoeff := true } else st.option).activation =
      st.option.activation := by
    split <;> rfl
  simp only [hact] at hnew
  split at hnew
  · exact .inl ‹_›
  · split at hnew
    · exact .inr (.inl ‹_›)
    · split at hnew
      · exact .inr (.inr ‹_›)
      · cases hnew

theorem registered_of_buildLayers {Pt Ct : Type} {E : Env K Pt Ct} {calls : List BuildCall}
    {st' : BuildState K} :
    ∀ {st : BuildState K} {network : List (Layer Pt)},
      buildLayers E file calls st = .ok (network, st') →
      ∀ call ∈ calls, CallRegistered st.option call := by
  induction calls with
  | nil => exact fun _ _ hmem => absurd hmem (by simp)
  | cons call calls ih =>
    intro st network h call' hmem
    obtain ⟨layer, st1, rest, hl, hr, -⟩ := buildLayers_cons h
    have hflags : SameFlags st1.option st.option := sameFlags_buildLayer hl
    rcases List.mem_cons.1 hmem with rfl | hmem
    · cases call' with
      | single l =>
        cases l with
        | activation name activation => exact registered_of_buildActivation hl
        | _ => trivial
      | _ => trivial
    · exact (callRegistered_congr hflags call').1 (ih hr call' hmem)

/-- `BuildNetwork` only succeeds on a model whose activations are registered. -/
theorem registered_of_buildNetwork {Pt Ct : Type} {E : Env K Pt Ct} {layers : List LayerInfo}
    {h w n units : ℕ} (hm : IsModel layers h w n units) {o : OptOption K} {network : List (Layer Pt)}
    {st' : BuildState K} (hbuild : buildNetwork E file layers .fresh o = .ok (network, st'))
    {name activation : String} (hmem : .activation name activation ∈ layers) :
    Registered o activation := by
  rw [buildNetwork_fresh hm] at hbuild
  exact registered_of_buildLayers hbuild _ (activation_mem_buildCalls hmem)

/-! ## One-element weights -/

/-- A file whose data sets have one element each, chosen by key. -/
def unitFile (value : String → K) : H5File K := fun _ => some fun key => some [value key]

omit [Field K] [LinearOrder K] in
theorem hasData_unitFile (value : String → K) (path key : String) :
    HasData (unitFile value) path key 1 :=
  ⟨_, _, rfl, rfl, rfl⟩

/-- The 1 × 1 convolution with one filter that such a file has weights for. -/
def unitConv (name : String) (batchInputShape : Option (ℕ × ℕ × ℕ)) : LayerInfo :=
  .conv2D {
    name, batchInputShape, filters := 1, kernelSize := (1, 1), strides := (1, 1)
    padding := "valid", activation := "linear" }

/-- A pooling with quadratic windows. -/
def squarePool (name : String) (n : ℕ) : LayerInfo :=
  .averagePooling2D { name, poolSize := (n, n), strides := (n, n), padding := "valid" }

def unitDense (name : String) : LayerInfo := .dense { name, units := 1, activation := "linear" }

end Cnn.Proof
