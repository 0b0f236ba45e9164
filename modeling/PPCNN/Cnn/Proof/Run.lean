import PPCNN.Cnn.Proof.Step

/-!
# Building and running a network

Each call of `buildLayer` and the layer it builds keep `Sim` (`buildLayer_sim`), so a whole network
computes the composition of the stored layers (`predictLayers_sim`), or fails at the first
activation that does not dispatch.
-/

set_option autoImplicit false

namespace Cnn.Proof

open Lib Keras

variable {K Pt Ct V : Type} [Field K] [LinearOrder K] [CommRing V] [Algebra K V]
  {ev : Evaluator K Pt Ct} {I : Interp ev V} {c : Define K} {file : H5File K}
  {st st' : BuildState K}

/-! ## One call -/

/-- The flags and values that no builder changes. -/
structure SameFlags (o o' : OptOption K) : Prop where
  optimizeActivation : o.enableOptimizeActivation = o'.enableOptimizeActivation
  optimizePooling : o.enableOptimizePooling = o'.enableOptimizePooling
  activation : o.activation = o'.activation
  highestDegCoeff : o.highestDegCoeff = o'.highestDegCoeff

omit [Field K] [LinearOrder K] in
theorem SameFlags.refl (o : OptOption K) : SameFlags o o := ⟨rfl, rfl, rfl, rfl⟩

omit [Field K] [LinearOrder K] in
theorem SameFlags.trans {o1 o2 o3 : OptOption K} (h : SameFlags o1 o2) (h' : SameFlags o2 o3) :
    SameFlags o1 o3 :=
  ⟨h.1.trans h'.1, h.2.trans h'.2, h.3.trans h'.3, h.4.trans h'.4⟩

omit [Field K] [LinearOrder K] in
theorem SameFlags.symm {o1 o2 : OptOption K} (h : SameFlags o1 o2) : SameFlags o2 o1 :=
  ⟨h.1.symm, h.2.symm, h.3.symm, h.4.symm⟩

omit [LinearOrder K] in
theorem sameFlags_takeFolding (o : OptOption K) : SameFlags o.takeFolding.2 o := by
  unfold OptOption.takeFolding
  split
  · exact ⟨rfl, rfl, rfl, rfl⟩
  · split
    · exact ⟨rfl, rfl, rfl, rfl⟩
    · split <;> exact ⟨rfl, rfl, rfl, rfl⟩

omit [LinearOrder K] in
theorem sameFlags_optionAfter {fl : K → K} (o : OptOption K) (s : Shape) (call : BuildCall) :
    SameFlags (optionAfter fl o s call) o := by
  have hlinear : SameFlags (descend o.takeFolding.2 1) o := by
    obtain ⟨h1, h2, h3, h4⟩ := sameFlags_takeFolding o
    exact ⟨h1, h2, h3, h4⟩
  cases call with
  | conv2DFusedBN conv2d bn => exact hlinear
  | denseFusedBN dense bn => exact hlinear
  | single layer =>
    cases layer with
    | conv2D info => exact hlinear
    | dense info => exact hlinear
    | averagePooling2D info =>
      simp only [optionAfter]
      split
      · exact ⟨rfl, rfl, rfl, rfl⟩
      · split <;> exact ⟨rfl, rfl, rfl, rfl⟩
    | batchNormalization name => exact ⟨rfl, rfl, rfl, rfl⟩
    | flatten name => exact .refl o
    | activation name activation =>
      simp only [optionAfter]
      split <;> exact ⟨rfl, rfl, rfl, rfl⟩
    | globalAveragePooling2D name => cases s <;> exact ⟨rfl, rfl, rfl, rfl⟩
    | other className => exact .refl o

/-- An activation call dispatches; nothing is asked of the others. -/
def CallDispatches (o : OptOption K) : BuildCall → Prop
  | .single (.activation _ activation) => Dispatches o activation
  | _ => True

/-- The shape of the image the file-scope variables describe. -/
def nextShape (next : NextLayer) : Shape := .image next.inHeight next.inWidth next.inChannels

theorem buildLayer_option {E : Env K Pt Ct} {call : BuildCall} {layer : Layer Pt}
    (hbuild : buildLayer E file call st = .ok (layer, st')) :
    st'.option = optionAfter E.ev.float st.option (nextShape st.next) call := by
  cases call with
  | conv2DFusedBN info bn =>
    obtain ⟨l, rfl, hb⟩ := buildConv2DFusedBN_ok hbuild
    rw [hb.state]
    rfl
  | denseFusedBN info bn =>
    obtain ⟨l, rfl, hb⟩ := buildDenseFusedBN_ok hbuild
    rw [hb.state]
    rfl
  | single layer =>
    cases layer with
    | conv2D info =>
      obtain ⟨l, rfl, hb⟩ := buildConv2D_ok hbuild
      rw [hb.state]
      rfl
    | averagePooling2D info =>
      obtain ⟨l, rfl, hb⟩ := buildAveragePooling2D_ok hbuild
      rw [hb.state]
    | batchNormalization name =>
      obtain ⟨l, rfl, -, -, rfl⟩ := buildBatchNormalization_ok hbuild
      rfl
    | flatten name =>
      cases hbuild
      rfl
    | dense info =>
      obtain ⟨l, rfl, hb⟩ := buildDense_ok hbuild
      rw [hb.state]
      rfl
    | activation name activation =>
      obtain ⟨l, rfl, -, -, hst⟩ := buildActivation_ok hbuild
      rw [hst]
    | globalAveragePooling2D name =>
      cases hbuild
      rfl
    | other className => cases hbuild

theorem sameFlags_buildLayer {E : Env K Pt Ct} {call : BuildCall} {layer : Layer Pt}
    (hbuild : buildLayer E file call st = .ok (layer, st')) : SameFlags st'.option st.option := by
  rw [buildLayer_option hbuild]
  exact sameFlags_optionAfter _ _ _

omit [LinearOrder K] in
/-- The shape matters to a global pooling only, and there the variables describe the image. -/
theorem optionAfter_of_sim {call : BuildCall} {s : PredictState Ct} {v : Value V} {sh : Shape}
    (hsim : Sim I st s v) (hshape : callShape call v.shape = some sh) :
    optionAfter id st.option v.shape call = optionAfter id st.option (nextShape st.next) call := by
  cases v with
  | image t =>
    obtain ⟨-, hnext, -⟩ := hsim
    rw [hnext]
    rfl
  | units u =>
    cases call with
    | single layer => cases layer <;> first | rfl | cases hshape
    | _ => rfl

theorem batchNormalization_sim {name : String} {layer : Layer Pt} {s : PredictState Ct}
    {v : Value V} {o : OptOption K}
    (hbuild : buildBatchNormalization ⟨ev, .unbounded, c⟩ file name st = .ok (layer, st'))
    (hsim : Sim I st s v) (hpos : v.shape.Positive)
    (hd : ∀ i < st'.option.consumedLevel, I.canDrop i) :
    ∃ s', predictLayer ev .unbounded o layer s = .ok s' ∧
      Sim I st' s' (stored c file st.option (.single (.batchNormalization name)) v) := by
  obtain ⟨l, rfl, hw, hb, rfl⟩ := buildBatchNormalization_ok hbuild
  rw [I.float] at hw hb
  have hdrop : I.canDrop st.option.consumedLevel := hd _ (Nat.lt_succ_self _)
  cases v with
  | image t =>
    obtain ⟨hdim, hnext, x, σ, hx, hrep⟩ := hsim
    have hbn : st.next.bnDim = t.channels := by simp [NextLayer.bnDim, hnext]
    rw [hbn] at hw hb
    obtain ⟨y, hy, hry⟩ := batchNormalization_forward3D_rep (I := I)
      (fun i hi => (hw i hi).imp fun p hp => ⟨hp.1, I.encodeAt hp.2⟩)
      (fun i hi => (hb i hi).imp fun p hp => ⟨hp.1, I.encodeAt hp.2⟩) hdrop hrep
    refine ⟨_, ?_, sim_image hdim rfl hnext hry⟩
    simp [predictLayer, hdim, hx, Evaluator.assigned, hy]
  | units u =>
    obtain ⟨hdim, hnext, σ, hrep⟩ := hsim
    have hbn : st.next.bnDim = u.length := by
      rw [NextLayer.bnDim, hnext, if_pos (Nat.pos_iff_ne_zero.1 hpos)]
    rw [hbn] at hw hb
    obtain ⟨y, hy, hry⟩ := batchNormalization_forwardUnits_rep (I := I)
      (fun i hi => (hw i hi).imp fun p hp => ⟨hp.1, I.encodeAt hp.2⟩)
      (fun i hi => (hb i hi).imp fun p hp => ⟨hp.1, I.encodeAt hp.2⟩) hdrop hrep
    refine ⟨_, ?_, sim_units hdim rfl (hnext.trans ?_) hry⟩
    · simp [predictLayer, hdim, hy]
    · simp

theorem activation_sim {name activation : String} {layer : Layer Pt} {s : PredictState Ct}
    {v : Value V} {o : OptOption K}
    (hbuild : buildActivation ⟨ev, .unbounded, c⟩ name activation st = .ok (layer, st'))
    (hsim : Sim I st s v) (hflags : SameFlags o st.option)
    (hdisp : Dispatches st.option activation)
    (hd : ∀ i < st'.option.consumedLevel, I.canDrop i) :
    ∃ s', predictLayer ev .unbounded o layer s = .ok s' ∧
      Sim I st' s' (stored c file st.option (.single (.activation name activation)) v) := by
  obtain ⟨l, rfl, hl, hb, hst⟩ := buildActivation_ok hbuild
  have hlevel : st'.option.consumedLevel =
      st.option.consumedLevel + activationDepth st.option activation := by
    rw [hst v.shape]
    simp only [optionAfter, descend]
    split <;> rfl
  have hnext' : st'.next = st.next := by rw [hst v.shape]
  cases v with
  | image t =>
    obtain ⟨hdim, hnext, x, σ, hx, hrep⟩ := hsim
    obtain ⟨σ', hact⟩ := activate_rep (I := I) hl hb hdisp hflags.optimizeActivation
      (fun i hi => hd _ (by omega)) σ
    obtain ⟨y, hy, hry⟩ := build_rep (I := I) (v := t.map (storedActivation c st.option activation))
      (f := fun h w c => l.activate ev o (x.cell h w c)) hrep.height hrep.width hrep.channels
      fun h w c => hact _ _ (hrep.cell h w c)
    refine ⟨_, ?_, sim_image hdim hlevel (hnext'.trans hnext) hry⟩
    simp only [predictLayer, hdim, hx, Evaluator.assigned, Activation.forward3D, Tensor3.mapM, ok_bind,
      hy]
    rfl
  | units u =>
    obtain ⟨hdim, hnext, σ, hrep⟩ := hsim
    obtain ⟨σ', hact⟩ := activate_rep (I := I) hl hb hdisp hflags.optimizeActivation
      (fun i hi => hd _ (by omega)) σ
    obtain ⟨y, hy, hry⟩ := mapUnits_rep (f := fun _ x => l.activate ev o x)
      (g := fun _ => storedActivation c st.option activation) hrep fun _ _ x v hx => hact x v hx
    rw [show u.mapIdx (fun _ => storedActivation c st.option activation) =
      u.map (storedActivation c st.option activation) from
      List.ext_getElem (by simp) (by simp)] at hry
    refine ⟨_, ?_, sim_units hdim hlevel ?_ hry⟩
    · simp only [predictLayer, hdim, if_true, Activation.forwardUnits]
      exact bind_of_ok hy _
    · rw [hnext', hnext, List.length_map]

omit [LinearOrder K] in
theorem conv_sim {info : Conv2DInfo} {kernel : ℕ → ℕ → ℕ → ℕ → ℕ → K} {bias : ℕ → K}
    {l : Conv2D Pt} {s : PredictState Ct} {t : Tensor3 V} {sh : Shape} {o : OptOption K}
    (hb : ConvBuilt ⟨ev, .unbounded, c⟩ st info kernel bias l st') (hsim : Sim I st s (.image t))
    (hpos : 0 < t.channels)
    (hshape : outShape (.conv2D info) (.image t.height t.width t.channels) = some sh)
    (hd : ∀ i < st'.option.consumedLevel, I.canDrop i) :
    ∃ s', predictLayer ev .unbounded o (.conv2D l) s = .ok s' ∧
      Sim I st' s' (.image (convImage samePadAxis info kernel bias t)) := by
  obtain ⟨hdim, hnext, x, σ, hx, hrep⟩ := hsim
  have hlevel : st'.option.consumedLevel = st.option.consumedLevel + 1 := by
    rw [hb.state, descend, takeFolding_consumedLevel]
  obtain ⟨y, hy, hry, hnext'⟩ := convBuilt_sim hb hnext hrep hshape hpos (hd _ (by omega))
  refine ⟨_, ?_, sim_image hdim hlevel hnext' hry⟩
  simp [predictLayer, hx, Evaluator.assigned, hy]

omit [LinearOrder K] in
theorem dense_sim {info : DenseInfo} {kernel : ℕ → ℕ → K} {bias : ℕ → K} {l : Dense Pt}
    {s : PredictState Ct} {u : List V} {o : OptOption K}
    (hb : DenseBuilt ⟨ev, .unbounded, c⟩ st info kernel bias l st') (hsim : Sim I st s (.units u))
    (hpos : 0 < u.length) (hd : ∀ i < st'.option.consumedLevel, I.canDrop i) :
    ∃ s', predictLayer ev .unbounded o (.dense l) s = .ok s' ∧
      Sim I st' s' (.units (dense info.units kernel bias u)) := by
  obtain ⟨hdim, hnext, σ, hrep⟩ := hsim
  have hlevel : st'.option.consumedLevel = st.option.consumedLevel + 1 := by
    rw [hb.state, descend, takeFolding_consumedLevel]
  obtain ⟨y, hy, hry⟩ := denseBuilt_sim hb hnext hrep hpos (hd _ (by omega))
  refine ⟨_, ?_, sim_units hdim hlevel ?_ hry⟩
  · simp [predictLayer, hy]
  · simp [hb.state, hb.outUnits, dense]

/-- One call and the layer it builds: from a represented value to the value of the stored layer. -/
theorem buildLayer_sim {call : BuildCall} {layer : Layer Pt} {s : PredictState Ct} {v : Value V}
    {sh : Shape} {o : OptOption K}
    (hbuild : buildLayer ⟨ev, .unbounded, c⟩ file call st = .ok (layer, st'))
    (hsim : Sim I st s v) (hpos : v.shape.Positive) (hshape : callShape call v.shape = some sh)
    (hvalid : CallValid call) (hflags : SameFlags o st.option)
    (hdisp : CallDispatches st.option call) (hd : ∀ i < st'.option.consumedLevel, I.canDrop i) :
    ∃ s', predictLayer ev .unbounded o layer s = .ok s' ∧
      Sim I st' s' (stored c file st.option call v) := by
  cases call with
  | conv2DFusedBN info bn =>
    obtain ⟨l, rfl, hb⟩ := buildConv2DFusedBN_ok hbuild
    rw [I.float] at hb
    cases v with
    | image t => exact conv_sim hb hsim hpos.2.2 hshape hd
    | units u => cases hshape
  | denseFusedBN info bn =>
    obtain ⟨l, rfl, hb⟩ := buildDenseFusedBN_ok hbuild
    rw [I.float] at hb
    cases v with
    | image t => cases hshape
    | units u => exact dense_sim hb hsim hpos hd
  | single layer =>
    cases layer with
    | conv2D info =>
      obtain ⟨l, rfl, hb⟩ := buildConv2D_ok hbuild
      rw [I.float] at hb
      cases v with
      | image t => exact conv_sim hb hsim hpos.2.2 hshape hd
      | units u => cases hshape
    | averagePooling2D info =>
      obtain ⟨l, rfl, hb⟩ := buildAveragePooling2D_ok hbuild
      cases v with
      | image t =>
        obtain ⟨hdim, hnext, x, σ, hx, hrep⟩ := hsim
        obtain ⟨y, σ', hy, hry, hnext'⟩ := poolBuilt_sim (s := sh) hb hnext hrep hshape hvalid
          hflags.optimizePooling hd
        refine ⟨_, ?_, sim_image hdim rfl hnext' hry⟩
        simp [predictLayer, hx, Evaluator.assigned, hy]
      | units u => cases hshape
    | batchNormalization name => exact batchNormalization_sim hbuild hsim hpos hd
    | flatten name =>
      cases hbuild
      cases v with
      | image t =>
        obtain ⟨hdim, hnext, x, σ, hx, hrep⟩ := hsim
        obtain ⟨u, hu, hru⟩ := flatten_rep (I := I) (l := ⟨name, st.next.inHeight, st.next.inWidth,
          st.next.inChannels, st.next.inHeight * st.next.inWidth * st.next.inChannels⟩) hrep
          (by rw [hnext]) (by rw [hnext]) (by rw [hnext])
        refine ⟨⟨none, u, 1⟩, ?_, rfl, ?_, σ, hru⟩
        · simp [predictLayer, hx, Evaluator.assigned, hu]
        · simp [hnext, Tensor3.toUnits, Nat.mul_assoc]
      | units u => cases hshape
    | dense info =>
      obtain ⟨l, rfl, hb⟩ := buildDense_ok hbuild
      rw [I.float] at hb
      cases v with
      | image t => cases hshape
      | units u => exact dense_sim hb hsim hpos hd
    | activation name activation => exact activation_sim hbuild hsim hflags hdisp hd
    | globalAveragePooling2D name =>
      cases hbuild
      cases v with
      | image t =>
        obtain ⟨hdim, hnext, x, σ, hx, hrep⟩ := hsim
        obtain ⟨u, hu, hru⟩ := globalAveragePooling2D_rep (I := I) (l := ⟨name, st.next.inHeight,
          st.next.inWidth, st.next.inChannels, st.next.inChannels⟩) hrep
          (by rw [hnext]) (by rw [hnext]) (by rw [hnext]) ⟨hpos.1, hpos.2.1⟩
        refine ⟨⟨none, u, 1⟩, ?_, rfl, ?_, σ, hru⟩
        · simp [predictLayer, hx, Evaluator.assigned, hu]
        · simp [hnext, channelSum]
      | units u => cases hshape
    | other className => cases hbuild

/-! ## Shapes -/

theorem stored_shape {call : BuildCall} {v : Value V} {sh : Shape} (o : OptOption K)
    (hshape : callShape call v.shape = some sh) : (stored c file o call v).shape = sh := by
  cases call with
  | conv2DFusedBN info bn =>
    cases v with
    | image t => exact convImage_shape hshape _ _ _
    | units u => cases hshape
  | denseFusedBN info bn =>
    cases v with
    | image t => cases hshape
    | units u =>
      simp only [callShape, Value.shape, outShape] at hshape
      split at hshape
      · cases hshape
        simp [stored, Value.shape]
      · cases hshape
  | single layer =>
    cases layer with
    | conv2D info =>
      cases v with
      | image t => exact convImage_shape hshape _ _ _
      | units u => cases hshape
    | averagePooling2D info =>
      cases v with
      | image t => exact poolImage_shape hshape _ fun win => by split <;> rfl
      | units u => cases hshape
    | batchNormalization name =>
      cases hshape
      simp [stored]
    | flatten name =>
      cases v with
      | image t =>
        cases hshape
        simp [stored, Value.shape, Tensor3.length_toUnits]
      | units u => cases hshape
    | dense info =>
      cases v with
      | image t => cases hshape
      | units u =>
        simp only [callShape, Value.shape, outShape] at hshape
        split at hshape
        · cases hshape
          simp [stored, Value.shape]
        · cases hshape
    | activation name activation =>
      cases hshape
      simp [stored]
    | globalAveragePooling2D name =>
      cases v with
      | image t =>
        cases hshape
        simp [stored, Value.shape]
      | units u => cases hshape
    | other className => cases v <;> cases hshape

theorem callShape_positive {call : BuildCall} {s s' : Shape} (hpos : s.Positive)
    (hs : callShape call s = some s') : s'.Positive := by
  cases call <;> exact outShape_positive hpos hs

/-! ## Runs -/

/-- One call on an option and a value. -/
def storedStep (c : Define K) (file : H5File K) (p : OptOption K × Value V) (call : BuildCall) :
    OptOption K × Value V :=
  (optionAfter id p.1 p.2.shape call, stored c file p.1 call p.2)

/-- The option the builders leave, and the value the network computes. -/
def storedRun (c : Define K) (file : H5File K) (calls : List BuildCall) (o : OptOption K)
    (v : Value V) : OptOption K × Value V :=
  calls.foldl (storedStep c file) (o, v)

theorem storedRun_cons (call : BuildCall) (calls : List BuildCall) (o : OptOption K) (v : Value V) :
    storedRun c file (call :: calls) o v =
      storedRun c file calls (optionAfter id o v.shape call) (stored c file o call v) := rfl

theorem storedRun_append (calls calls' : List BuildCall) (o : OptOption K) (v : Value V) :
    storedRun c file (calls ++ calls') o v =
      storedRun c file calls' (storedRun c file calls o v).1 (storedRun c file calls o v).2 :=
  List.foldl_append

theorem storedRun_shape {calls : List BuildCall} {o : OptOption K} {v : Value V} {sh : Shape}
    (hshape : callShapes calls v.shape = some sh) : (storedRun c file calls o v).2.shape = sh := by
  induction calls generalizing o v with
  | nil => exact Option.some.inj hshape
  | cons call calls ih =>
    obtain ⟨sh1, hsh1, hshape⟩ := Option.bind_eq_some_iff.1 hshape
    have hstored : (stored c file o call v).shape = sh1 := stored_shape o hsh1
    exact ih (hstored ▸ hshape)

/-- The levels a layer consumes that is not fused. -/
def layerLevels (o : OptOption K) : LayerInfo → ℕ
  | .conv2D _ | .dense _ | .batchNormalization _ => 1
  | .averagePooling2D _ => if o.enableOptimizePooling then 0 else 1
  | .activation _ activation => activationDepth o activation
  | .flatten _ | .globalAveragePooling2D _ | .other _ => 0

/-- The levels the layer of a call consumes. -/
def callLevels (o : OptOption K) : BuildCall → ℕ
  | .single layer => layerLevels o layer
  | .conv2DFusedBN _ _ | .denseFusedBN _ _ => 1

omit [Field K] [LinearOrder K] in
theorem callLevels_congr {o o' : OptOption K} (h : SameFlags o o') (call : BuildCall) :
    callLevels o call = callLevels o' call := by
  cases call with
  | single layer =>
    cases layer <;>
      simp [callLevels, layerLevels, activationDepth, h.optimizePooling, h.optimizeActivation, h.activation]
  | _ => rfl

omit [LinearOrder K] in
theorem consumedLevel_optionAfter {fl : K → K} (o : OptOption K) (s : Shape) (call : BuildCall) :
    (optionAfter fl o s call).consumedLevel = o.consumedLevel + callLevels o call := by
  have hlinear : (descend o.takeFolding.2 1).consumedLevel = o.consumedLevel + 1 := by
    rw [descend, takeFolding_consumedLevel]
  cases call with
  | conv2DFusedBN conv2d bn => exact hlinear
  | denseFusedBN dense bn => exact hlinear
  | single layer =>
    cases layer with
    | conv2D info => exact hlinear
    | dense info => exact hlinear
    | averagePooling2D info =>
      cases hpool : o.enableOptimizePooling with
      | true => simp [optionAfter, callLevels, layerLevels, hpool]
      | false =>
        simp only [optionAfter, callLevels, layerLevels, hpool, Bool.false_eq_true, if_false]
        split <;> rfl
    | batchNormalization name => rfl
    | flatten name => rfl
    | activation name activation =>
      simp only [optionAfter, callLevels, layerLevels]
      split <;> rfl
    | globalAveragePooling2D name => cases s <;> rfl
    | other className => rfl

theorem buildLayers_cons {E : Env K Pt Ct} {call : BuildCall} {calls : List BuildCall}
    {layers : List (Layer Pt)} (h : buildLayers E file (call :: calls) st = .ok (layers, st')) :
    ∃ layer st1 rest, buildLayer E file call st = .ok (layer, st1) ∧
      buildLayers E file calls st1 = .ok (rest, st') ∧ layers = layer :: rest := by
  simp only [buildLayers, bind_eq_ok, pure_eq_ok, Except.ok.injEq] at h
  obtain ⟨⟨layer, st1⟩, hl, ⟨rest, st2⟩, hr, he⟩ := h
  cases he
  exact ⟨layer, st1, rest, hl, hr, rfl⟩

/-- What `BuildNetwork` adds to `consumed_level`. -/
theorem buildLayers_consumed {E : Env K Pt Ct} {calls : List BuildCall} :
    ∀ {st : BuildState K} {layers : List (Layer Pt)},
      buildLayers E file calls st = .ok (layers, st') →
      st'.option.consumedLevel =
        st.option.consumedLevel + (calls.map (callLevels st.option)).sum := by
  induction calls with
  | nil =>
    intro st layers h
    cases h
    rfl
  | cons call calls ih =>
    intro st layers h
    obtain ⟨layer, st1, rest, hl, hr, -⟩ := buildLayers_cons h
    have hoption := buildLayer_option hl
    have hlevels : callLevels st1.option = callLevels st.option :=
      funext (callLevels_congr (sameFlags_buildLayer hl))
    rw [ih hr, hlevels, hoption, consumedLevel_optionAfter, List.map_cons, List.sum_cons, Nat.add_assoc]

theorem buildLayers_level {E : Env K Pt Ct} {calls : List BuildCall} {st : BuildState K}
    {layers : List (Layer Pt)} (h : buildLayers E file calls st = .ok (layers, st')) :
    st.option.consumedLevel ≤ st'.option.consumedLevel :=
  buildLayers_consumed h ▸ Nat.le_add_right _ _

omit [Field K] [LinearOrder K] in
theorem callDispatches_congr {o o' : OptOption K} (h : SameFlags o o') (call : BuildCall) :
    CallDispatches o call ↔ CallDispatches o' call := by
  cases call with
  | single layer => cases layer <;> simp [CallDispatches, Dispatches, h.activation]
  | _ => exact Iff.rfl

/-- A network whose activations dispatch computes the stored layers. -/
theorem buildLayers_sim {o : OptOption K} {calls : List BuildCall} :
    ∀ {st : BuildState K} {layers : List (Layer Pt)} {s : PredictState Ct} {v : Value V} {sh : Shape},
      buildLayers ⟨ev, .unbounded, c⟩ file calls st = .ok (layers, st') →
      Sim I st s v → v.shape.Positive → callShapes calls v.shape = some sh →
      (∀ call ∈ calls, CallValid call) → SameFlags o st.option →
      (∀ call ∈ calls, CallDispatches o call) →
      (∀ i < st'.option.consumedLevel, I.canDrop i) →
      st'.option = (storedRun c file calls st.option v).1 ∧
      ∃ s', predictLayers ev .unbounded o layers s = .ok s' ∧
        Sim I st' s' (storedRun c file calls st.option v).2 := by
  induction calls with
  | nil =>
    intro st layers s v sh hbuild hsim _ _ _ _ _ _
    cases hbuild
    exact ⟨rfl, s, rfl, hsim⟩
  | cons call calls ih =>
    intro st layers s v sh hbuild hsim hpos hshape hvalid hflags hdisp hd
    obtain ⟨layer, st1, rest, hl, hr, rfl⟩ := buildLayers_cons hbuild
    obtain ⟨sh1, hsh1, hshape⟩ := Option.bind_eq_some_iff.1 hshape
    have hoption : st1.option = optionAfter id st.option v.shape call := by
      rw [buildLayer_option hl, I.float, ← optionAfter_of_sim hsim hsh1]
    have hflags1 : SameFlags o st1.option := hflags.trans (sameFlags_buildLayer hl).symm
    obtain ⟨s1, hs1, hsim1⟩ := buildLayer_sim hl hsim hpos hsh1 (hvalid call List.mem_cons_self)
      hflags ((callDispatches_congr hflags call).1 (hdisp call List.mem_cons_self))
      fun i hi => hd i (hi.trans_le (buildLayers_level hr))
    have hshape1 : (stored c file st.option call v).shape = sh1 := stored_shape st.option hsh1
    rw [storedRun_cons, ← hoption]
    obtain ⟨ho', s', hs', hsim'⟩ := ih hr hsim1 (hshape1 ▸ callShape_positive hpos hsh1)
      (hshape1 ▸ hshape) (fun call' h => hvalid call' (List.mem_cons_of_mem _ h)) hflags1
      (fun call' h => hdisp call' (List.mem_cons_of_mem _ h)) hd
    exact ⟨ho', s', (bind_of_ok hs1 _).trans hs', hsim'⟩

/-- A network with an activation that does not dispatch fails there. -/
theorem buildLayers_error {o : OptOption K} {calls : List BuildCall} (hd : ∀ i, I.canDrop i) :
    ∀ {st : BuildState K} {layers : List (Layer Pt)} {s : PredictState Ct} {v : Value V} {sh : Shape},
      buildLayers ⟨ev, .unbounded, c⟩ file calls st = .ok (layers, st') →
      Sim I st s v → v.shape.Positive → callShapes calls v.shape = some sh →
      (∀ call ∈ calls, CallValid call) → SameFlags o st.option →
      (∃ call ∈ calls, ¬CallDispatches o call) →
      predictLayers ev .unbounded o layers s = .error .outOfRange := by
  induction calls with
  | nil => simp
  | cons call calls ih =>
    intro st layers s v sh hbuild hsim hpos hshape hvalid hflags hdisp
    obtain ⟨layer, st1, rest, hl, hr, rfl⟩ := buildLayers_cons hbuild
    obtain ⟨sh1, hsh1, hshape⟩ := Option.bind_eq_some_iff.1 hshape
    have hflags1 : SameFlags o st1.option := hflags.trans (sameFlags_buildLayer hl).symm
    have hshape1 : (stored c file st.option call v).shape = sh1 := stored_shape st.option hsh1
    by_cases hcall : CallDispatches o call
    · obtain ⟨s1, hs1, hsim1⟩ := buildLayer_sim hl hsim hpos hsh1 (hvalid call List.mem_cons_self)
        hflags ((callDispatches_congr hflags call).1 hcall) fun i _ => hd i
      have hrest : ∃ call ∈ calls, ¬CallDispatches o call := by
        obtain ⟨call', hmem, hne⟩ := hdisp
        rcases List.mem_cons.1 hmem with rfl | hmem
        · exact absurd hcall hne
        · exact ⟨call', hmem, hne⟩
      exact (bind_of_ok hs1 _).trans (ih hr hsim1 (hshape1 ▸ callShape_positive hpos hsh1)
        (hshape1 ▸ hshape) (fun call' h => hvalid call' (List.mem_cons_of_mem _ h)) hflags1 hrest)
    · have herr : predictLayer ev .unbounded o layer s = .error .outOfRange := by
        rw [callDispatches_congr hflags] at hcall
        cases call with
        | single info =>
          cases info with
          | activation name activation => exact activation_error hl hsim hpos hcall hd
          | _ => exact absurd trivial hcall
        | _ => exact absurd trivial hcall
      rw [predictLayers, herr, error_bind]

end Cnn.Proof
