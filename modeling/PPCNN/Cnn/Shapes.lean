import PPCNN.Cnn.Proof.Avoid
import PPCNN.Cnn.Proof.Recorded
import PPCNN.Cnn.Levels

/-!
# Shapes at build time and at run time

`shapes_match`: when `predict` reaches a layer, the current tensor or vector has the shape that the
layer's members record, and no access of the layer is outside its array. The builders give the
members the shapes of the reference (`buildLayer_recorded`); a layer whose input has the recorded
shape leaves its recorded output (`current_next`) and reads inside its arrays (`inBounds_of_recorded`).
-/

set_option autoImplicit false

namespace Cnn

open Lib Keras Proof

variable {K Pt Ct : Type}

/-! ## Operations -/

/-- The operations of SEAL do not access the arrays of the program. -/
structure Evaluator.InRange (ev : Evaluator K Pt Ct) : Prop where
  modSwitch : ∀ x, Avoids .outOfRange (ev.modSwitch x)
  multiplyPlain : ∀ x p, Avoids .outOfRange (ev.multiplyPlain x p)
  add : ∀ x y, Avoids .outOfRange (ev.add x y)
  addPlain : ∀ x p, Avoids .outOfRange (ev.addPlain x p)
  square : ∀ x, Avoids .outOfRange (ev.square x)
  relinearize : ∀ x, Avoids .outOfRange (ev.relinearize x)
  rescale : ∀ x, Avoids .outOfRange (ev.rescale x)

theorem inRange_leveled [Field K] [DecidableEq K] (V : Type) [CommRing V] [Algebra K V] (ch : Chain K) :
    (Evaluator.leveled V ch).InRange := by
  constructor <;> intros <;> simp only [Evaluator.leveled] <;> repeat' split
  all_goals first | exact avoids_ok _ _ | exact avoids_error (by decide)

theorem Evaluator.InRange.avoiding {ev : Evaluator K Pt Ct} (hev : ev.InRange) :
    Avoiding .outOfRange ev :=
  ⟨by decide, hev.modSwitch, hev.add, hev.addPlain, hev.square, hev.relinearize, hev.rescale⟩

/-! ## Steps -/

/-- The current value of `predict` has a shape. -/
def Current (v : PredictState Ct) : Shape → Prop
  | .image h w n =>
    v.inputDim ≠ 1 ∧ ∃ t, v.encrypted3d = some t ∧ (t.height, t.width, t.channels) = (h, w, n)
  | .units n => v.inputDim = 1 ∧ v.encryptedUnits.length = n

/-- The members of a layer are the extents of the current tensor or the length of the current
vector, and the vector a layer fills is as long as the number of positions it writes. -/
def Matches (layer : Layer Pt) (v : PredictState Ct) : Prop :=
  match layer with
  | .conv2D l => Current v (.image l.inHeight l.inWidth l.inChannels)
  | .averagePooling2D l => Current v (.image l.inHeight l.inWidth l.inChannels)
  | .batchNormalization l =>
    ∃ s, Current v s ∧ l.plainWeights.length = s.lastDim ∧ l.plainBiases.length = s.lastDim
  | .flatten l => Current v (.image l.inHeight l.inWidth l.inChannels) ∧
    l.outUnits = l.inHeight * l.inWidth * l.inChannels
  | .dense l => Current v (.units l.inUnits)
  | .activation _ => ∃ s, Current v s
  | .globalAveragePooling2D l => Current v (.image l.inHeight l.inWidth l.inChannels) ∧
    l.outUnits = l.inChannels

theorem matches_of_recorded {layer : Layer Pt} {v : PredictState Ct} {s s' : Shape}
    (h : Recorded layer s s') (hv : Current v s) : Matches layer v := by
  cases layer with
  | conv2D l =>
    obtain ⟨rfl, -⟩ := h
    exact hv
  | averagePooling2D l =>
    obtain ⟨rfl, -⟩ := h
    exact hv
  | batchNormalization l => exact ⟨s, hv, h.2⟩
  | flatten l => exact ⟨h.1 ▸ hv, h.2.1⟩
  | dense l =>
    obtain ⟨rfl, -⟩ := h
    exact hv
  | activation l => exact ⟨s, hv⟩
  | globalAveragePooling2D l => exact ⟨h.1 ▸ hv, h.2.1⟩

theorem ofFn_length {α : Type} {n : ℕ} {f : Fin n → Except Error α} {u : List α}
    (hu : (do return List.ofFn (← seqFin f)) = .ok u) : u.length = n := by
  obtain ⟨g, -, he⟩ := bind_eq_ok.1 hu
  cases he
  exact List.length_ofFn

/-- A layer that works on units or on an image, cell by cell, keeps the shape. -/
theorem current_cellwise {f : List Ct → Except Error (List Ct)}
    {g : Tensor3 Ct → Except Error (Tensor3 Ct)} {v v' : PredictState Ct} {s : Shape}
    (hf : ∀ u u', f u = .ok u' → u'.length = u.length)
    (hg : ∀ t t', g t = .ok t' →
      (t'.height, t'.width, t'.channels) = (t.height, t.width, t.channels)) (hv : Current v s)
    (hv' : (if v.inputDim = 1 then do return { v with encryptedUnits := ← f v.encryptedUnits }
      else do
        let t ← g (← Evaluator.assigned v.encrypted3d)
        return { v with encrypted3d := some t }) = .ok v') : Current v' s := by
  cases s with
  | image h w n =>
    obtain ⟨hdim, t, ht, hdims⟩ := hv
    simp only [if_neg hdim, ht, Evaluator.assigned, ok_bind, bind_eq_ok] at hv'
    obtain ⟨t', ht', he⟩ := hv'
    cases he
    exact ⟨hdim, t', rfl, (hg t t' ht').trans hdims⟩
  | units n =>
    simp only [if_pos hv.1, bind_eq_ok] at hv'
    obtain ⟨u, hu, he⟩ := hv'
    cases he
    exact ⟨hv.1, (hf _ u hu).trans hv.2⟩

/-- A layer leaves a value of the shape it records as its output. -/
theorem current_next {ev : Evaluator K Pt Ct} {A : IntArith} {o : OptOption K} {layer : Layer Pt}
    {v v' : PredictState Ct} {s s' : Shape} (h : Recorded layer s s') (hv : Current v s)
    (hv' : predictLayer ev A o layer v = .ok v') : Current v' s' := by
  cases layer with
  | conv2D l =>
    obtain ⟨rfl, rfl⟩ := h
    obtain ⟨t, -, t', ht', he⟩ := by simpa only [predictLayer, bind_eq_ok] using hv'
    cases he
    exact ⟨hv.1, t', rfl, Tensor3.build_dims ht'⟩
  | averagePooling2D l =>
    obtain ⟨rfl, rfl⟩ := h
    obtain ⟨t, -, t', ht', he⟩ := by simpa only [predictLayer, bind_eq_ok] using hv'
    cases he
    exact ⟨hv.1, t', rfl, Tensor3.build_dims ht'⟩
  | batchNormalization l =>
    obtain ⟨rfl, -⟩ := h
    exact current_cellwise (f := l.forwardUnits ev) (g := l.forward3D ev)
      (fun _ _ hu => ofFn_length hu) (fun _ _ ht => Tensor3.build_dims ht) hv hv'
  | flatten l =>
    obtain ⟨rfl, hunits, rfl⟩ := h
    obtain ⟨t, -, u, hu, he⟩ := by simpa only [predictLayer, bind_eq_ok] using hv'
    cases he
    obtain ⟨cells, hcells, he⟩ := bind_eq_ok.1 hu
    cases he
    have hdims := Tensor3.build_dims hcells
    simp only [Prod.mk.injEq] at hdims
    obtain ⟨h1, h2, h3⟩ := hdims
    exact ⟨rfl, by rw [Tensor3.length_toUnits, h1, h2, h3, hunits]⟩
  | dense l =>
    obtain ⟨rfl, rfl⟩ := h
    obtain ⟨u, hu, he⟩ := by simpa only [predictLayer, bind_eq_ok] using hv'
    cases he
    exact ⟨hv.1, ofFn_length hu⟩
  | activation l =>
    obtain rfl : s' = s := h
    exact current_cellwise (f := l.forwardUnits ev o) (g := l.forward3D ev o)
      (fun _ _ hu => ofFn_length hu) (fun _ _ ht => Tensor3.build_dims ht) hv hv'
  | globalAveragePooling2D l =>
    obtain ⟨rfl, hunits, rfl⟩ := h
    obtain ⟨t, -, u, hu, he⟩ := by simpa only [predictLayer, bind_eq_ok] using hv'
    cases he
    exact ⟨rfl, ofFn_length hu⟩

/-- The coefficients of an activation layer are those its branch reads. -/
def LayerCoeffs (o : OptOption K) : Layer Pt → Prop
  | .activation l => CoeffsFit o l
  | _ => True

theorem current_image {v : PredictState Ct} {h w n : ℕ} (hv : Current v (.image h w n)) {t : Tensor3 Ct}
    (ht : v.encrypted3d = some t) : (h, w, n) = (t.height, t.width, t.channels) := by
  obtain ⟨-, t', ht', hdims⟩ := hv
  cases ht'.symm.trans ht
  exact hdims.symm

/-- The accesses of a layer are in bounds for a value of the shape it records as its input. -/
theorem inBounds_of_recorded {o : OptOption K} {layer : Layer Pt} {v : PredictState Ct} {s s' : Shape}
    (h : Recorded layer s s') (hpos : s.Positive) (hcoeffs : LayerCoeffs o layer)
    (hv : Current v s) : InBounds o layer v := by
  cases layer with
  | conv2D l =>
    obtain ⟨rfl, -⟩ := h
    exact fun t ht => current_image hv ht
  | averagePooling2D l =>
    obtain ⟨rfl, -⟩ := h
    exact fun t ht => current_image hv ht
  | batchNormalization l =>
    obtain ⟨-, hw, hb⟩ := h
    cases s with
    | image h w n =>
      refine ⟨fun hdim => absurd hdim hv.1, fun _ t ht i hi => ?_⟩
      have hdims := current_image hv ht
      simp only [Prod.mk.injEq] at hdims
      rw [hw, hb, Shape.lastDim, hdims.2.2]
      exact ⟨hi, hi⟩
    | units n =>
      refine ⟨fun _ i hi => ?_, fun hdim => absurd hv.1 hdim⟩
      rw [hw, hb, Shape.lastDim, ← hv.2]
      exact ⟨hi, hi⟩
  | flatten l =>
    obtain ⟨rfl, -⟩ := h
    exact fun t ht => current_image hv ht
  | dense l =>
    obtain ⟨rfl, -⟩ := h
    exact hv.2
  | activation l => exact hcoeffs
  | globalAveragePooling2D l =>
    obtain ⟨rfl, hunits, -⟩ := h
    refine ⟨hunits, fun t ht => ?_⟩
    have hdims := current_image hv ht
    simp only [Prod.mk.injEq] at hdims
    exact ⟨current_image hv ht, hdims.1 ▸ hpos.1, hdims.2.1 ▸ hpos.2.1⟩

/-! ## Networks -/

variable [Field K]

/-- What the builders know before a call: the shape of the current value, and the flags of the
computation. -/
structure Reached (o : OptOption K) (st : BuildState K) (s : Shape) : Prop where
  next : NextFor st.next s
  positive : s.Positive
  below : BelowFloat s
  flags : SameFlags st.option o

variable [LinearOrder K] {E : Env K Pt Ct} {file : H5File K} {o : OptOption K} {st st' : BuildState K}
  {s s' : Shape}

theorem buildLayer_coeffs {call : BuildCall} {layer : Layer Pt} (hdefault : st.option.activation = .default)
    (hbuild : buildLayer E file call st = .ok (layer, st')) : LayerCoeffs st.option layer := by
  cases call with
  | conv2DFusedBN info bn =>
    obtain ⟨l, rfl, -⟩ := buildConv2DFusedBN_ok hbuild
    trivial
  | denseFusedBN info bn =>
    obtain ⟨l, rfl, -⟩ := buildDenseFusedBN_ok hbuild
    trivial
  | single l =>
    cases l with
    | conv2D info =>
      obtain ⟨l, rfl, -⟩ := buildConv2D_ok hbuild
      trivial
    | averagePooling2D info =>
      obtain ⟨l, rfl, -⟩ := buildAveragePooling2D_ok hbuild
      trivial
    | batchNormalization name =>
      obtain ⟨l, rfl, -⟩ := buildBatchNormalization_ok hbuild
      trivial
    | dense info =>
      obtain ⟨l, rfl, -⟩ := buildDense_ok hbuild
      trivial
    | activation name activation =>
      obtain ⟨l, rfl, hname, hcoeffs, -⟩ := buildActivation_ok hbuild
      unfold CoeffsBuilt at hcoeffs
      by_cases hsq : activation = squareName
      · exact .inl (hname.trans hsq)
      · rw [if_neg (by simp [hsq, hdefault])] at hcoeffs
        refine .inr ?_
        generalize l.plainPolyCoeffs = coeffs at hcoeffs
        cases hact : st.option.enableOptimizeActivation with
        | false =>
          rw [hact] at hcoeffs
          cases hcoeffs
          rfl
        | true =>
          rw [hact] at hcoeffs
          cases hcoeffs
          rfl
    | flatten name =>
      cases hbuild
      trivial
    | globalAveragePooling2D name =>
      cases hbuild
      trivial
    | other className => cases hbuild

omit [Field K] [LinearOrder K] in
theorem layerCoeffs_congr {o o' : OptOption K} (h : SameFlags o o') {layer : Layer Pt}
    (hl : LayerCoeffs o layer) : LayerCoeffs o' layer := by
  cases layer with
  | activation l => simpa only [LayerCoeffs, CoeffsFit, h.optimizeActivation] using hl
  | _ => trivial

/-- A call keeps what the builders know. -/
theorem Reached.step {call : BuildCall} {layer : Layer Pt} (h : Reached o st s)
    (harith : E.arith = .lp64) (hdefault : o.activation = .default)
    (hbuild : buildLayer E file call st = .ok (layer, st')) (hs : callShape call s = some s') :
    Recorded layer s s' ∧ LayerCoeffs o layer ∧ Reached o st' s' := by
  obtain ⟨hrec, hnext⟩ := buildLayer_recorded hbuild hs (harith ▸ sizesExact_lp64 h.below) h.positive h.next
  refine ⟨hrec, ?_, hnext, callShape_positive h.positive hs, callShape_below hs h.below, ?_⟩
  · exact layerCoeffs_congr h.flags (buildLayer_coeffs (h.flags.activation.trans hdefault) hbuild)
  · exact (sameFlags_buildLayer hbuild).trans h.flags

/-- The layers before a point of a network, run on a value of the first shape, leave a value of the
shape that the next call finds recorded. -/
theorem Reached.run {ev : Evaluator K Pt Ct} {A : IntArith} {p : OptOption K} (harith : E.arith = .lp64)
    (hdefault : o.activation = .default) {pre post : List (Layer Pt)} :
    ∀ {calls : List BuildCall} {st : BuildState K} {s : Shape} {v v' : PredictState Ct},
      Reached o st s → Current v s → callShapes calls s = some s' →
      buildLayers E file calls st = .ok (pre ++ post, st') → predictLayers ev A p pre v = .ok v' →
      ∃ calls1 st1 s1, Reached o st1 s1 ∧ Current v' s1 ∧ callShapes calls1 s1 = some s' ∧
        buildLayers E file calls1 st1 = .ok (post, st') := by
  induction pre with
  | nil =>
    intro calls st s v v' h hv hs hbuild hrun
    cases hrun
    exact ⟨calls, st, s, h, hv, hs, hbuild⟩
  | cons layer pre ih =>
    intro calls st s v v' h hv hs hbuild hrun
    cases calls with
    | nil => cases hbuild
    | cons call calls =>
      obtain ⟨layer1, st1, rest, hlayer, hrest, he⟩ := buildLayers_cons hbuild
      obtain ⟨rfl, rfl⟩ := List.cons.inj he
      obtain ⟨s1, hs1, hs⟩ := Option.bind_eq_some_iff.1 hs
      obtain ⟨v1, hv1, hrun⟩ := bind_eq_ok.1 hrun
      obtain ⟨hrec, -, h1⟩ := h.step harith hdefault hlayer hs1
      exact ih h1 (current_next hrec hv hv1) hs hrest hrun

/-- The next layer after a run. -/
theorem Reached.head {calls : List BuildCall} {layer : Layer Pt} {post : List (Layer Pt)}
    {v : PredictState Ct} {ev : Evaluator K Pt Ct} (hev : ev.InRange) {A : IntArith} {p : OptOption K}
    (hp : SameFlags o p) (harith : E.arith = .lp64) (hdefault : o.activation = .default)
    (h : Reached o st s) (hv : Current v s) (hs : callShapes calls s = some s')
    (hbuild : buildLayers E file calls st = .ok (layer :: post, st')) :
    Matches layer v ∧ Avoids .outOfRange (predictLayer ev A p layer v) := by
  cases calls with
  | nil => cases hbuild
  | cons call calls =>
    obtain ⟨layer1, st1, rest, hlayer, -, he⟩ := buildLayers_cons hbuild
    obtain ⟨rfl, rfl⟩ := List.cons.inj he
    obtain ⟨s1, hs1, -⟩ := Option.bind_eq_some_iff.1 hs
    obtain ⟨hrec, hcoeffs, -⟩ := h.step harith hdefault hlayer hs1
    exact ⟨matches_of_recorded hrec hv,
      avoids_predictLayer hev.avoiding (fun p _ x => hev.multiplyPlain x p)
        (.inr (inBounds_of_recorded hrec h.positive (layerCoeffs_congr hp hcoeffs) hv))⟩

theorem Reached.final {v : PredictState Ct} {calls : List BuildCall} (hv : Current v s)
    (hs : callShapes calls s = some s') (hbuild : buildLayers E file calls st = .ok ([], st')) :
    Current v s' := by
  cases calls with
  | nil => exact Option.some.inj hs ▸ hv
  | cons call calls =>
    obtain ⟨_, _, _, -, -, he⟩ := buildLayers_cons hbuild
    cases he

omit [Field K] [LinearOrder K] in
/-- After the last dense layer the number of units stays. -/
theorem outShapes_lastDense {pre post : List LayerInfo} {info : DenseInfo}
    (hlast : ∀ info', .dense info' ∉ post)
    (hs : outShapes (pre ++ .dense info :: post) s = some s') : s' = .units info.units := by
  have hpost : ∀ {post : List LayerInfo} {n : ℕ}, (∀ info', .dense info' ∉ post) →
      outShapes post (.units n) = some s' → s' = .units n := by
    intro post
    induction post with
    | nil => exact fun _ hs => (Option.some.inj hs).symm
    | cons l post ih =>
      intro n hlast hs
      obtain ⟨s1, hs1, hs⟩ := outShapes_cons.1 hs
      have hlast' : ∀ info', .dense info' ∉ post := fun info' h =>
        hlast info' (List.mem_cons_of_mem l h)
      cases l with
      | batchNormalization name => exact ih hlast' (Option.some.inj hs1 ▸ hs)
      | activation name activation => exact ih hlast' (Option.some.inj hs1 ▸ hs)
      | dense info' => exact absurd List.mem_cons_self (hlast info')
      | _ => cases hs1
  rw [outShapes_append] at hs
  obtain ⟨s1, -, hs⟩ := Option.bind_eq_some_iff.1 hs
  obtain ⟨s2, hs2, hs⟩ := outShapes_cons.1 hs
  cases s1 with
  | image h w n => cases hs2
  | units n =>
    simp only [outShape] at hs2
    split at hs2
    · cases hs2
      exact hpost hlast hs
    · cases hs2

/-- Whenever `predict` reaches a layer, the layer records the shape of the current value and reads
inside its arrays; the vector `predict` returns is as long as the last dense layer has units. -/
theorem shapes_match (ev : Evaluator K Pt Ct) (hev : ev.InRange) (c : Define K) (file : H5File K)
    (info : Conv2DInfo) (rest : List LayerInfo) (h w n : ℕ) (s : Shape)
    (hbatch : info.batchInputShape = some (h, w, n))
    (hshapes : outShapes (.conv2D info :: rest) (.image h w n) = some s)
    (hchannels : 0 < n) (hbelow : h < 2 ^ 24 ∧ w < 2 ^ 24) (level : EOptLevel) (model : String)
    (network : List (Layer Pt)) (st : BuildState K)
    (hbuild : buildNetwork ⟨ev, .lp64, c⟩ file (.conv2D info :: rest) .fresh
      (computeOption c level .default model) = .ok (network, st)) (input : Tensor3 Ct)
    (hdims : (input.height, input.width, input.channels) = (h, w, n)) :
    (∀ pre layer post v, network = pre ++ layer :: post →
      predictLayers ev .lp64 st.option pre ⟨some input, [], 3⟩ = .ok v →
      Matches layer v ∧ Avoids .outOfRange (predictLayer ev .lp64 st.option layer v)) ∧
    ∀ output, predict ev .lp64 st.option network input = .ok output →
      ∀ pre dense post, .conv2D info :: rest = pre ++ .dense dense :: post →
        (∀ dense', .dense dense' ∉ post) → output.length = dense.units := by
  set o : OptOption K := computeOption c level .default model
  have hdefault : o.activation = .default := computeOption_activation c level .default model
  rw [buildNetwork_declared hbatch rest] at hbuild
  have hcalls : callShapes (buildCalls o.enableFuseLayers (.conv2D info :: rest)) (.image h w n) =
      some s := (callShapes_buildCalls _ _ _).trans hshapes
  have hstart : Reached o (⟨⟨h, w, n, 0⟩, o⟩ : BuildState K) (.image h w n) := by
    obtain ⟨s1, hs1, -⟩ := outShapes_cons.1 hshapes
    obtain ⟨hh, hw⟩ := outShape_conv2D_pos hs1
    exact ⟨rfl, ⟨hh, hw, hchannels⟩, hbelow, .refl o⟩
  have hflags : SameFlags o st.option := (sameFlags_buildLayers hbuild).symm
  have hinput : Current (⟨some input, [], 3⟩ : PredictState Ct) (.image h w n) :=
    ⟨(by decide : (3 : ℕ) ≠ 1), input, rfl, hdims⟩
  constructor
  · rintro pre layer post v rfl hrun
    obtain ⟨calls1, st1, s1, h1, hv, hs1, hbuild1⟩ :=
      hstart.run rfl hdefault hinput hcalls hbuild hrun
    exact h1.head hev hflags rfl hdefault hv hs1 hbuild1
  · intro output hpredict pre dense post hlayers hlast
    obtain ⟨v, hrun, he⟩ := bind_eq_ok.1 hpredict
    cases he
    rw [← List.append_nil network] at hbuild
    obtain ⟨calls1, st1, s1, -, hv, hs1, hbuild1⟩ :=
      hstart.run rfl hdefault hinput hcalls hbuild hrun
    have hfinal : Current v s := Reached.final hv hs1 hbuild1
    rw [hlayers] at hshapes
    rw [outShapes_lastDense hlast hshapes] at hfinal
    exact hfinal.2

section Sample

/-- A padded convolution with strides, a polynomial, a pooling with padding, and a normalised dense
layer. -/
def shapesSample : List LayerInfo :=
  [.conv2D {
      name := "conv2d", batchInputShape := some (3, 3, 1), filters := 1, kernelSize := (3, 3)
      strides := (2, 2), padding := "same", activation := "linear" },
    .activation "activation" "swish_rg4_deg4",
    .averagePooling2D { name := "average_pooling2d", poolSize := (2, 2), strides := (1, 1), padding := "same" },
    .flatten "flatten", unitDense "dense", .batchNormalization "batch_normalization"]

theorem shapes_match_sample : ∃ (network : List (Layer (Leveled ℚ ℚ))) (st : BuildState ℚ),
    network.length = 5 ∧ ∀ input : Tensor3 (Leveled ℚ ℚ),
    (input.height, input.width, input.channels) = (3, 3, 1) →
    (∀ pre layer post v, network = pre ++ layer :: post →
      predictLayers (.leveled ℚ sampleChain) .lp64 st.option pre ⟨some input, [], 3⟩ = .ok v →
      Matches layer v ∧
        Avoids .outOfRange (predictLayer (.leveled ℚ sampleChain) .lp64 st.option layer v)) ∧
    ∀ output, predict (.leveled ℚ sampleChain) .lp64 st.option network input = .ok output →
      ∀ pre dense post, shapesSample = pre ++ .dense dense :: post →
        (∀ dense', .dense dense' ∉ post) → output.length = dense.units := by
  have hlength : (buildNetwork ⟨.leveled ℚ sampleChain, .lp64, Define.source fun _ => 1⟩
      sampleFile shapesSample .fresh (computeOption (Define.source fun _ => 1) .allOpt .default
        "CKKS-swish_rg4_deg4")).map (fun p => p.1.length) = .ok 5 := by
    decide +kernel
  obtain ⟨⟨network, st⟩, hbuild, hlength⟩ := map_eq_ok.1 hlength
  exact ⟨network, st, hlength, fun input hdims =>
    shapes_match (.leveled ℚ sampleChain) (inRange_leveled ℚ sampleChain) (Define.source fun _ => 1)
      sampleFile _ _ 3 3 1 (.units 1) rfl (by decide) (by decide) (by decide) .allOpt
      "CKKS-swish_rg4_deg4" network st hbuild input hdims⟩

end Sample

end Cnn
