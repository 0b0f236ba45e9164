import PPCNN.Cnn.Proof.Fuse
import PPCNN.Cnn.AllOpt

/-!
# Fused layers

`fuseLayers_preserves`: the traversal at `FUSE_LAYERS` makes one call for each convolution with a
batch normalisation directly after it and one call for every other layer, in order, and the network
it builds returns what the one at `NO_OPT` returns. The two builds run side by side
(`SideBySide`): their states differ in the level, and on images a fused layer computes what
the two layers compute.
-/

set_option autoImplicit false

namespace Cnn

open Lib Keras Proof

/-! ## The traversal -/

/-- The layers a call of `buildLayer` builds. -/
def BuildCall.layers : BuildCall → List LayerInfo
  | .single layer => [layer]
  | .conv2DFusedBN conv2d bn => [.conv2D conv2d, .batchNormalization bn]
  | .denseFusedBN dense bn => [.dense dense, .batchNormalization bn]

/-- `buildLayer` with the next layer: the call it makes, and the iterator it leaves. -/
def buildLayerCall (layer next : LayerInfo) (it : ℕ) : BuildCall × ℕ :=
  match layer, next with
  | .conv2D conv2d, .batchNormalization bn => (.conv2DFusedBN conv2d bn, it + 1)
  | .dense dense, .batchNormalization bn => (.denseFusedBN dense bn, it + 1)
  | layer, _ => (.single layer, it)

theorem le_buildLayerCall (layer next : LayerInfo) (it : ℕ) : it ≤ (buildLayerCall layer next it).2 := by
  unfold buildLayerCall
  split <;> simp

/-- The loop of `BuildNetwork` that fuses layers, from a position of its iterator. -/
def traverse (layers : List LayerInfo) (it : ℕ) : List BuildCall :=
  if h : it < layers.length then
    if h' : it + 1 < layers.length then
      (buildLayerCall layers[it] layers[it + 1] it).1 ::
        traverse layers ((buildLayerCall layers[it] layers[it + 1] it).2 + 1)
    else .single layers[it] :: traverse layers (it + 1)
  else []
termination_by layers.length - it
decreasing_by
  · have := le_buildLayerCall layers[it] layers[it + 1] it
    omega
  · omega

/-- The loop makes the calls of `fusedCalls`. -/
theorem traverse_eq (layers : List LayerInfo) (it : ℕ) :
    traverse layers it = fusedCalls (layers.drop it) := by
  fun_induction traverse layers it with
  | case1 it h h' ih =>
    rw [ih, List.drop_eq_getElem_cons h, List.drop_eq_getElem_cons h']
    generalize hnext : layers[it + 1] = next
    generalize layers[it] = layer
    unfold buildLayerCall
    split
    · rfl
    · rfl
    · rename_i hconv hdense
      rw [fusedCalls, List.drop_eq_getElem_cons h', hnext]
      · exact fun info bn hl hn => hconv info bn hl hn
      · exact fun info bn hl hn => hdense info bn hl hn
  | case2 it h h' ih =>
    rw [ih, List.drop_eq_getElem_cons h, List.drop_eq_nil_of_le (by omega)]
    rfl
  | case3 it h =>
    rw [List.drop_eq_nil_of_le (by omega)]
    rfl

/-- Every layer is built once, in order. -/
theorem layers_fusedCalls (layers : List LayerInfo) :
    (fusedCalls layers).flatMap BuildCall.layers = layers := by
  fun_induction fusedCalls layers with
  | case1 => rfl
  | case2 layer => rfl
  | case3 conv2d bn layers ih => simp [BuildCall.layers, ih]
  | case4 dense bn layers ih => simp [BuildCall.layers, ih]
  | case5 layer next layers _ _ ih => simp [BuildCall.layers, ih]

/-- A convolution with a batch normalisation directly after it is fused. -/
theorem fusedCalls_pair (pre post : List LayerInfo) (info : Conv2DInfo) (bn : String) :
    ∃ calls, fusedCalls (pre ++ .conv2D info :: .batchNormalization bn :: post) =
        calls ++ .conv2DFusedBN info bn :: fusedCalls post ∧
      calls.flatMap BuildCall.layers = pre := by
  fun_induction fusedCalls pre with
  | case1 => exact ⟨[], rfl, rfl⟩
  | case2 layer =>
    refine ⟨[.single layer], ?_, rfl⟩
    show fusedCalls (layer :: .conv2D info :: .batchNormalization bn :: post) = _
    rw [fusedCalls]
    · rfl
    · simp
    · simp
  | case3 conv2d bn' layers ih =>
    obtain ⟨calls, hcalls, hlayers⟩ := ih
    exact ⟨.conv2DFusedBN conv2d bn' :: calls, congrArg (List.cons _) hcalls, by
      simp [BuildCall.layers, hlayers]⟩
  | case4 dense bn' layers ih =>
    obtain ⟨calls, hcalls, hlayers⟩ := ih
    exact ⟨.denseFusedBN dense bn' :: calls, congrArg (List.cons _) hcalls, by
      simp [BuildCall.layers, hlayers]⟩
  | case5 layer next layers hconv hdense ih =>
    obtain ⟨calls, hcalls, hlayers⟩ := ih
    refine ⟨.single layer :: calls, ?_, by simp [BuildCall.layers, hlayers]⟩
    rw [List.cons_append, List.cons_append, fusedCalls]
    · exact congrArg (List.cons _) hcalls
    · exact hconv
    · exact hdense

/-- No dense layer has a batch normalisation directly after it. -/
def NoDenseBN (layers : List LayerInfo) : Prop :=
  ∀ pre info bn post, layers ≠ pre ++ .dense info :: .batchNormalization bn :: post

theorem NoDenseBN.tail (pre : List LayerInfo) {layers : List LayerInfo} (h : NoDenseBN (pre ++ layers)) :
    NoDenseBN layers := by
  rintro pre' info bn post rfl
  exact h (pre ++ pre') info bn post (by simp)

/-- The other calls are for one layer. -/
theorem call_of_noDenseBN {layers : List LayerInfo} (h : NoDenseBN layers) {call : BuildCall}
    (hcall : call ∈ fusedCalls layers) :
    (∃ l, call = .single l) ∨ ∃ info bn, call = .conv2DFusedBN info bn := by
  rcases mem_fusedCalls hcall with ⟨l, -, rfl⟩ | hconv | ⟨info, bn, rfl⟩
  · exact .inl ⟨l, rfl⟩
  · exact .inr hconv
  · obtain ⟨calls, calls', hcalls⟩ := List.append_of_mem hcall
    have hlayers := layers_fusedCalls layers
    rw [hcalls, List.flatMap_append, List.flatMap_cons] at hlayers
    exact absurd hlayers.symm (h _ info bn _)

/-! ## Images -/

/-- A layer that leaves a vector. -/
def LeavesUnits : LayerInfo → Prop
  | .flatten _ | .globalAveragePooling2D _ | .dense _ => True
  | _ => False

def HasConv2D (layers : List LayerInfo) : Prop := ∃ info, .conv2D info ∈ layers

/-- No convolution comes after a layer that leaves a vector. -/
def ImagesFirst : List LayerInfo → Prop
  | [] => True
  | l :: layers => (LeavesUnits l → ¬HasConv2D layers) ∧ ImagesFirst layers

theorem hasConv2D_cons {l : LayerInfo} {layers : List LayerInfo} (h : HasConv2D layers) :
    HasConv2D (l :: layers) := by
  obtain ⟨info, hmem⟩ := h
  exact ⟨info, List.mem_cons_of_mem _ hmem⟩

/-- A vector does not become an image again. -/
theorem not_hasConv2D_of_units {layers : List LayerInfo} {n : ℕ} {s : Shape}
    (hs : outShapes layers (.units n) = some s) : ¬HasConv2D layers := by
  induction layers generalizing n with
  | nil => rintro ⟨info, ⟨⟩⟩
  | cons l layers ih =>
    obtain ⟨s1, hs1, hs⟩ := outShapes_cons.1 hs
    rintro ⟨info, hmem⟩
    have hunits : ∃ m, s1 = .units m := by
      cases l with
      | batchNormalization name => exact ⟨n, (Option.some.inj hs1).symm⟩
      | activation name activation => exact ⟨n, (Option.some.inj hs1).symm⟩
      | dense info =>
        by_cases hu : 0 < info.units
        · exact ⟨info.units, by simpa [outShape, hu, eq_comm] using hs1⟩
        · simp [outShape, hu] at hs1
      | _ => cases hs1
    obtain ⟨m, rfl⟩ := hunits
    rcases List.mem_cons.1 hmem with rfl | hmem
    · cases hs1
    · exact ih hs ⟨info, hmem⟩

/-- The layers of a model that Keras gives a shape. -/
theorem imagesFirst_of_outShapes {layers : List LayerInfo} {s s' : Shape}
    (hs : outShapes layers s = some s') : ImagesFirst layers := by
  induction layers generalizing s with
  | nil => trivial
  | cons l layers ih =>
    obtain ⟨s1, hs1, hs⟩ := outShapes_cons.1 hs
    refine ⟨fun hl => ?_, ih hs⟩
    have hunits : ∃ m, s1 = .units m := by
      cases l with
      | flatten name =>
        cases s with
        | image h w n => exact ⟨_, (Option.some.inj hs1).symm⟩
        | units n => cases hs1
      | globalAveragePooling2D name =>
        cases s with
        | image h w n => exact ⟨_, (Option.some.inj hs1).symm⟩
        | units n => cases hs1
      | dense info =>
        cases s with
        | image h w n => cases hs1
        | units n =>
          by_cases hu : 0 < info.units
          · exact ⟨info.units, by simpa [outShape, hu, eq_comm] using hs1⟩
          · simp [outShape, hu] at hs1
      | _ => exact absurd hl id
    obtain ⟨m, rfl⟩ := hunits
    exact not_hasConv2D_of_units hs

section Image

variable {K Pt Ct : Type} [Field K] {ev : Evaluator K Pt Ct} {A : IntArith} {o : OptOption K}

omit [Field K] in
/-- Other layers leave the dimension of the input. -/
theorem predictLayer_inputDim {layer : Layer Pt} (hlayer : ¬EndsImage layer) {p p' : PredictState Ct}
    (h : predictLayer ev A o layer p = .ok p') : p'.inputDim = p.inputDim := by
  cases layer with
  | conv2D l =>
    simp only [predictLayer, bind_eq_ok, pure_eq_ok, Except.ok.injEq] at h
    obtain ⟨t, -, t', -, rfl⟩ := h
    rfl
  | averagePooling2D l =>
    simp only [predictLayer, bind_eq_ok, pure_eq_ok, Except.ok.injEq] at h
    obtain ⟨t, -, t', -, rfl⟩ := h
    rfl
  | activation l =>
    simp only [predictLayer] at h
    split at h
    · simp only [bind_eq_ok, pure_eq_ok, Except.ok.injEq] at h
      obtain ⟨u, -, rfl⟩ := h
      rfl
    · simp only [bind_eq_ok, pure_eq_ok, Except.ok.injEq] at h
      obtain ⟨t, -, t', -, rfl⟩ := h
      rfl
  | batchNormalization l =>
    simp only [predictLayer] at h
    split at h
    · simp only [bind_eq_ok, pure_eq_ok, Except.ok.injEq] at h
      obtain ⟨u, -, rfl⟩ := h
      rfl
    · simp only [bind_eq_ok, pure_eq_ok, Except.ok.injEq] at h
      obtain ⟨t, -, t', -, rfl⟩ := h
      rfl
  | dense l =>
    simp only [predictLayer, bind_eq_ok, pure_eq_ok, Except.ok.injEq] at h
    obtain ⟨u, -, rfl⟩ := h
    rfl
  | flatten l => exact absurd trivial hlayer
  | globalAveragePooling2D l => exact absurd trivial hlayer

variable [LinearOrder K] {E : Env K Pt Ct} {file : H5File K}

/-- Other builders record no units, and their layers do not end the images. -/
theorem buildSingle_image {l : LayerInfo} (hl : ¬LeavesUnits l) {layer : Layer Pt}
    {st st' : BuildState K} (hb : buildSingle E file l st = .ok (layer, st')) :
    st'.next.inUnits = st.next.inUnits ∧ ¬EndsImage layer := by
  cases l with
  | conv2D info =>
    obtain ⟨l, rfl, hbuilt⟩ := buildConv2D_ok hb
    exact ⟨by rw [hbuilt.state], id⟩
  | averagePooling2D info =>
    obtain ⟨l, rfl, hbuilt⟩ := buildAveragePooling2D_ok hb
    exact ⟨by rw [hbuilt.state (.units 0)], id⟩
  | batchNormalization name =>
    obtain ⟨l, rfl, -, -, rfl⟩ := buildBatchNormalization_ok hb
    exact ⟨rfl, id⟩
  | activation name activation =>
    obtain ⟨l, rfl, -, -, hstate⟩ := buildActivation_ok hb
    exact ⟨by rw [hstate (.units 0)], id⟩
  | flatten name => exact absurd trivial hl
  | globalAveragePooling2D name => exact absurd trivial hl
  | dense info => exact absurd trivial hl
  | other className => cases hb

end Image

/-! ## Two builds side by side -/

variable {K V : Type} [Field K] [LinearOrder K] [IsStrictOrderedRing K] [CommRing V] [Algebra K V]
  {A : IntArith} {c : Define K} {file : H5File K}

variable (V A) in
/-- The networks of two builds of the layers compute the same, from an image if there is still a
convolution. -/
def SameRuns (layers : List LayerInfo) (p p' : List (Layer K) × BuildState K) : Prop :=
  SameButLevel p.2 p'.2 ∧ ∀ (o : OptOption K) (v : PredictState V),
    (HasConv2D layers → v.inputDim ≠ 1) →
      predictLayers (.exact V) A o p'.1 v = predictLayers (.exact V) A o p.1 v

omit [IsStrictOrderedRing K] in
/-- Builders that find states of different levels build the same layer. -/
theorem agree_buildSingle (l : LayerInfo) {st st' : BuildState K} (hst : SameButLevel st st') :
    Agree (fun p p' => p'.1 = p.1 ∧ SameButLevel p.2 p'.2)
      (buildSingle ⟨.exact V, A, c⟩ file l st) (buildSingle ⟨.exact V, A, c⟩ file l st') := by
  obtain ⟨next, o⟩ := st
  obtain ⟨next', o'⟩ := st'
  obtain ⟨rfl, ho⟩ := hst
  have ho : unlevel o = unlevel o' := ho
  have heq : unlevelResult <$> buildSingle ⟨.exact V, A, c⟩ file l ⟨next, o⟩ =
      unlevelResult <$> buildSingle ⟨.exact V, A, c⟩ file l ⟨next, o'⟩ :=
    (buildSingle_unlevel l next o).symm.trans (ho ▸ buildSingle_unlevel l next o')
  show Agree _ (buildSingle _ file l ⟨next, o⟩) (buildSingle _ file l ⟨next, o'⟩)
  cases hx : buildSingle ⟨.exact V, A, c⟩ file l ⟨next, o⟩ with
  | error e =>
    cases hy : buildSingle ⟨.exact V, A, c⟩ file l ⟨next, o'⟩ with
    | error e' => trivial
    | ok p' => rw [hx, hy] at heq; cases heq
  | ok p =>
    cases hy : buildSingle ⟨.exact V, A, c⟩ file l ⟨next, o'⟩ with
    | error e' => rw [hx, hy] at heq; cases heq
    | ok p' =>
      rw [hx, hy] at heq
      have hp := Except.ok.inj heq
      simp only [unlevelResult, Prod.mk.injEq, BuildState.mk.injEq] at hp
      exact ⟨hp.1.symm, hp.2⟩

variable (V A c file) in
/-- The builds of two lists of calls from states on different levels run side by side. -/
def SideBySide (layers : List LayerInfo) (calls calls' : List BuildCall) : Prop :=
  ∀ st st' : BuildState K, SameButLevel st st' → (HasConv2D layers → st.next.inUnits = 0) →
    Agree (SameRuns V A layers) (buildLayers ⟨.exact V, A, c⟩ file calls st)
      (buildLayers ⟨.exact V, A, c⟩ file calls' st')

omit [IsStrictOrderedRing K] in
/-- The same layer in front of both. -/
theorem SideBySide.single {l : LayerInfo} {layers : List LayerInfo} {calls calls' : List BuildCall}
    (h : SideBySide V A c file layers calls calls') (hfirst : ImagesFirst (l :: layers)) :
    SideBySide V A c file (l :: layers) (.single l :: calls) (.single l :: calls') := by
  intro st st' hst hunits
  rw [buildLayers, buildLayers]
  refine (agree_buildSingle l hst).bind fun p p' hp hsame => ?_
  obtain ⟨built, st1⟩ := p
  obtain ⟨built', st1'⟩ := p'
  obtain ⟨heq, hst1⟩ := hsame
  obtain rfl : built' = built := heq
  have himage : HasConv2D layers → st1.next.inUnits = st.next.inUnits ∧ ¬EndsImage built' :=
    fun hconv => buildSingle_image (fun hl => hfirst.1 hl hconv) hp
  have hnext : HasConv2D layers → st1.next.inUnits = 0 := fun hconv =>
    (himage hconv).1.trans (hunits (hasConv2D_cons hconv))
  refine (h st1 st1' hst1 hnext).bind fun q q' _ hruns => ⟨hruns.1, fun o v hv => ?_⟩
  show (predictLayer _ A o built' v >>= _) = (predictLayer _ A o built' v >>= _)
  cases hv1 : predictLayer (.exact V) A o built' v with
  | error e => rfl
  | ok v1 =>
    refine hruns.2 o v1 fun hconv => ?_
    rw [predictLayer_inputDim (himage hconv).2 hv1]
    exact hv (hasConv2D_cons hconv)

/-- A fused layer in front of one, and the two layers in front of the other. -/
theorem SideBySide.pair (hε : c.epsilon = 0) (info : Conv2DInfo) (bn : String)
    {layers : List LayerInfo} {calls calls' : List BuildCall}
    (h : SideBySide V A c file layers calls calls') :
    SideBySide V A c file (.conv2D info :: .batchNormalization bn :: layers)
      (.single (.conv2D info) :: .single (.batchNormalization bn) :: calls)
      (.conv2DFusedBN info bn :: calls') := by
  intro st st' hst hunits
  have hconv : HasConv2D (.conv2D info :: .batchNormalization bn :: layers) :=
    ⟨info, List.mem_cons_self⟩
  have hleft : buildLayers ⟨.exact V, A, c⟩ file
      (.single (.conv2D info) :: .single (.batchNormalization bn) :: calls) st =
        buildConv2DThenBN ⟨.exact V, A, c⟩ file info bn st >>= fun p =>
          buildLayers ⟨.exact V, A, c⟩ file calls p.2 >>= fun q =>
            pure (p.1.1 :: p.1.2 :: q.1, q.2) := by
    simp only [buildLayers, buildLayer, buildSingle, buildConv2DThenBN, bind_assoc, pure_bind]
  rw [hleft, buildLayers]
  refine (agree_conv2DFusedBN (A := A) hε info bn hst (hunits hconv)).bind fun p p' _ hpair => ?_
  obtain ⟨⟨first, second⟩, st1⟩ := p
  obtain ⟨fused, st1'⟩ := p'
  refine (h st1 st1' hpair.same fun _ => hpair.inUnits).bind
    fun q q' _ hruns => ⟨hruns.1, fun o v hv => ?_⟩
  show (predictLayer _ A o fused v >>= _) =
    (predictLayer _ A o first v >>= fun v => predictLayer _ A o second v >>= _)
  rw [hpair.composes o v (hv hconv)]
  cases hv1 : predictLayer (.exact V) A o first v with
  | error e => rfl
  | ok v1 =>
    simp only [ok_bind]
    cases hv2 : predictLayer (.exact V) A o second v1 with
    | error e => rfl
    | ok v2 =>
      refine hruns.2 o v2 fun _ => ?_
      rw [predictLayer_inputDim hpair.second hv2, predictLayer_inputDim hpair.first hv1]
      exact hv hconv

/-- The layers one by one and with fused layers. -/
theorem sideBySide_fusedCalls (hε : c.epsilon = 0) {layers : List LayerInfo}
    (hfirst : ImagesFirst layers) (hdense : NoDenseBN layers) :
    SideBySide V A c file layers (layers.map .single) (fusedCalls layers) := by
  have hnil : SideBySide V A c file [] [] [] := fun _ _ hst _ => ⟨hst, fun _ _ _ => rfl⟩
  fun_induction fusedCalls layers with
  | case1 => exact hnil
  | case2 layer => exact hnil.single hfirst
  | case3 conv2d bn layers ih =>
    exact (ih hfirst.2.2 (NoDenseBN.tail [_, _] hdense)).pair hε conv2d bn
  | case4 dense bn layers ih => exact absurd rfl (hdense [] dense bn layers)
  | case5 layer next layers _ _ ih =>
    exact (ih hfirst.2 (NoDenseBN.tail [_] hdense)).single hfirst

omit [LinearOrder K] [IsStrictOrderedRing K] in
/-- `predict` reads two flags of the option. -/
theorem predict_option {o o' : OptOption K} (h : unlevel o = unlevel o') (network : List (Layer K))
    (input : Tensor3 V) :
    predict (.exact V) A o network input = predict (.exact V) A o' network input := by
  have hact : (unlevel o).enableOptimizeActivation = (unlevel o').enableOptimizeActivation := by rw [h]
  have hpool : (unlevel o).enableOptimizePooling = (unlevel o').enableOptimizePooling := by rw [h]
  have hact : o.enableOptimizeActivation = o'.enableOptimizeActivation := hact
  have hpool : o.enableOptimizePooling = o'.enableOptimizePooling := hpool
  have hlayer : predictLayer (Evaluator.exact (K := K) V) A o = predictLayer (.exact V) A o' := by
    funext layer v
    cases layer with
    | averagePooling2D l => simp only [predictLayer, AveragePooling2D.forward, hpool]
    | activation l =>
      have hactivate : l.activate (.exact V) o = l.activate (.exact V) o' := by
        funext x
        simp only [Activation.activate, hact]
      simp only [predictLayer, Activation.forwardUnits, Activation.forward3D, hactivate]
    | _ => rfl
  have hlayers : predictLayers (Evaluator.exact (K := K) V) A o network =
      predictLayers (.exact V) A o' network := by
    induction network with
    | nil => rfl
    | cons layer layers ih =>
      funext v
      simp only [predictLayers, hlayer, ih]
  rw [predict, predict, hlayers]

/-- Fusing layers visits every layer once and in order, fuses exactly the convolutions with a batch
normalisation directly after them, and preserves what the network returns, for any padding. Of a
model (`imagesFirst_of_outShapes`) it only matters that no convolution comes after a vector. -/
theorem fuseLayers_preserves (A : IntArith) (c : Define K) (hε : c.epsilon = 0) (file : H5File K)
    (layers : List LayerInfo) (hfirst : ImagesFirst layers) (hdense : NoDenseBN layers)
    (act : EActivation) (model : String) :
    ((traverse layers 0).flatMap BuildCall.layers = layers ∧
      (∀ call ∈ traverse layers 0,
        (∃ l, call = .single l) ∨ ∃ info bn, call = .conv2DFusedBN info bn) ∧
      ∀ pre info bn post, layers = pre ++ .conv2D info :: .batchNormalization bn :: post →
        ∃ calls calls', traverse layers 0 = calls ++ .conv2DFusedBN info bn :: calls' ∧
          calls.flatMap BuildCall.layers = pre ∧ calls'.flatMap BuildCall.layers = post) ∧
    buildCalls (computeOption c .fuseLayers act model).enableFuseLayers layers = traverse layers 0 ∧
    Agree (fun p p' => ∀ input : Tensor3 V,
        predict (.exact V) A p'.2.option p'.1 input = predict (.exact V) A p.2.option p.1 input)
      (buildNetwork ⟨.exact V, A, c⟩ file layers .fresh (computeOption c .noOpt act model))
      (buildNetwork ⟨.exact V, A, c⟩ file layers .fresh (computeOption c .fuseLayers act model)) := by
  have htraverse : traverse layers 0 = fusedCalls layers := traverse_eq layers 0
  rw [htraverse]
  refine ⟨⟨layers_fusedCalls layers, fun call => call_of_noDenseBN hdense, ?_⟩, rfl, ?_⟩
  · rintro pre info bn post rfl
    obtain ⟨calls, hcalls, hlayers⟩ := fusedCalls_pair pre post info bn
    exact ⟨calls, fusedCalls post, hcalls, hlayers, layers_fusedCalls post⟩
  · refine Agree.imp (R := SameRuns V A layers)
      (sideBySide_fusedCalls hε hfirst hdense _ _ ⟨rfl, rfl⟩ fun _ => rfl) ?_
    intro p p' _ _ hruns input
    have hrun := hruns.2 p.2.option ⟨some input, [], 3⟩ fun _ => (by decide : (3 : ℕ) ≠ 1)
    rw [← predict_option hruns.1.2 p'.1 input, predict, predict, hrun]

section Sample

/-- A convolution with padding, two batch normalisations, and a dense layer. -/
def fusedSample : List LayerInfo :=
  [.conv2D {
      name := "conv2d", batchInputShape := some (3, 3, 1), filters := 1, kernelSize := (3, 3)
      strides := (2, 2), padding := "same", activation := "linear" },
    .batchNormalization "batch_normalization", .batchNormalization "batch_normalization_1",
    .flatten "flatten", unitDense "dense"]

theorem fuseLayers_preserves_sample :
    ((traverse fusedSample 0).flatMap BuildCall.layers = fusedSample ∧
      (∀ call ∈ traverse fusedSample 0,
        (∃ l, call = .single l) ∨ ∃ info bn, call = .conv2DFusedBN info bn) ∧
      ∀ pre info bn post, fusedSample = pre ++ .conv2D info :: .batchNormalization bn :: post →
        ∃ calls calls', traverse fusedSample 0 = calls ++ .conv2DFusedBN info bn :: calls' ∧
          calls.flatMap BuildCall.layers = pre ∧ calls'.flatMap BuildCall.layers = post) ∧
    buildCalls (computeOption unroundedDefine .fuseLayers .default "HCNN").enableFuseLayers fusedSample =
      traverse fusedSample 0 ∧
    Agree (fun p p' => ∀ input : Tensor3 ℚ,
        predict (.exact ℚ) .lp64 p'.2.option p'.1 input = predict (.exact ℚ) .lp64 p.2.option p.1 input)
      (buildNetwork ⟨.exact ℚ, .lp64, unroundedDefine⟩ allOptFile fusedSample .fresh
        (computeOption unroundedDefine .noOpt .default "HCNN"))
      (buildNetwork ⟨.exact ℚ, .lp64, unroundedDefine⟩ allOptFile fusedSample .fresh
        (computeOption unroundedDefine .fuseLayers .default "HCNN")) :=
  fuseLayers_preserves .lp64 unroundedDefine rfl allOptFile fusedSample
    (imagesFirst_of_outShapes (show outShapes fusedSample (.image 3 3 1) = some (.units 1) by decide))
    (by
      intro pre info bn post h
      rcases pre with _ | ⟨_, _ | ⟨_, _ | ⟨_, _ | ⟨_, _ | ⟨_, pre⟩⟩⟩⟩⟩ <;> simp [fusedSample, unitDense] at h)
    .default "HCNN"

end Sample

end Cnn
