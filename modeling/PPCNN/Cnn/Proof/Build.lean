import PPCNN.Cnn.Proof.Forward
import PPCNN.Cnn.Proof.Stored

/-!
# What the builders build

One inversion lemma per builder: from a successful call, the layer's members, its plaintexts as
encodings of the values of `stored`, and the state after the call.
-/

set_option autoImplicit false

namespace Cnn.Proof

open Lib Keras

variable {K Pt Ct : Type} [Field K] {E : Env K Pt Ct} {file : H5File K} {st st' : BuildState K}

/-! ## Data sets -/

theorem data_of_read {path key : String} {group : DataSets K} {ds : List K} {n : ℕ} {f : ℕ → K}
    (hg : file.openGroup path = .ok group) (hd : group.openDataSet key = .ok ds)
    (hr : readBuffer ds n = .ok f) : f = data file path key := by
  obtain ⟨-, rfl⟩ := readBuffer_eq_ok.1 hr
  funext i
  simp [data, H5File.openGroup_eq_ok.1 hg, DataSets.openDataSet_eq_ok.1 hd]

theorem bnData_of_read {path : String} {group : DataSets K} {n : ℕ} {bn : BnData K}
    (hg : file.openGroup path = .ok group) (hr : BnData.read group n = .ok bn) :
    bn = bnData file path := by
  simp only [BnData.read, bind_eq_ok, pure_eq_ok, Except.ok.injEq] at hr
  obtain ⟨ds1, h1, ds2, h2, ds3, h3, ds4, h4, f1, hf1, f2, hf2, f3, hf3, f4, hf4, rfl⟩ := hr
  rw [data_of_read hg h1 hf1, data_of_read hg h2 hf2, data_of_read hg h3 hf3,
    data_of_read hg h4 hf4, bnData]

@[simp] theorem takeFolding_consumedLevel (o : OptOption K) :
    o.takeFolding.2.consumedLevel = o.consumedLevel := by
  unfold OptOption.takeFolding
  split
  · rfl
  · split
    · rfl
    · split <;> rfl

/-! ## Conv2D -/

variable [LinearOrder K]

/-- The members of a convolution built with a kernel and a bias. -/
structure ConvBuilt (E : Env K Pt Ct) (st : BuildState K) (info : Conv2DInfo)
    (kernel : ℕ → ℕ → ℕ → ℕ → ℕ → K) (bias : ℕ → K) (l : Conv2D Pt) (st' : BuildState K) :
    Prop where
  inShape : (l.inHeight, l.inWidth, l.inChannels) = info.inShape st.next
  filterSize : l.filterSize = info.filters
  kernelSize : (l.filterHeight, l.filterWidth) = info.kernelSize
  strides : (l.strideHeight, l.strideWidth) = info.strides
  vertical : Axis.new E.arith info.padding l.inHeight l.filterHeight l.strideHeight = .ok l.vertical
  horizontal : Axis.new E.arith info.padding l.inWidth l.filterWidth l.strideWidth =
    .ok l.horizontal
  filters : ∀ (i : Fin l.filterHeight) (j : Fin l.filterWidth) (ic : Fin l.inChannels)
    (oc : Fin l.filterSize), E.ev.encodeAt st.option.consumedLevel
      (kernel l.inChannels i j ic oc) = .ok (l.plainFilters i j ic oc)
  biases : ∀ oc : Fin l.filterSize, E.ev.encodeAt (st.option.consumedLevel + 1) (bias oc) = .ok (l.plainBiases oc)
  state : st' = {
    next := { st.next with inHeight := l.outHeight, inWidth := l.outWidth, inChannels := l.filterSize }
    option := descend st.option.takeFolding.2 1 }

theorem buildConv2D_ok {info : Conv2DInfo} {layer : Layer Pt}
    (h : buildConv2D E file info st = .ok (layer, st')) :
    ∃ l, layer = .conv2D l ∧ ConvBuilt E st info
      (fun n i j ic oc =>
        clampWeight E.define (foldedConv E.define file E.ev.float st.option info none n i j ic oc))
      (storedConvBias E.define file E.ev.float info none) l st' := by
  simp only [buildConv2D, Conv2D.new, bind_eq_ok, pure_eq_ok, Except.ok.injEq, seqFin_eq_ok,
    takeFolding_consumedLevel] at h
  obtain ⟨group, hg, kds, hk, bds, hb, f, hf, b, hb', pf, hpf, pb, hpb, q, ⟨v, hv, w, hw, rfl⟩, he⟩ := h
  cases he
  obtain rfl := data_of_read hg hk hf
  obtain rfl := data_of_read hg hb hb'
  refine ⟨_, rfl, rfl, rfl, rfl, rfl, hv, hw, hpf, hpb, ?_⟩
  rw [descend, takeFolding_consumedLevel]
  rfl

theorem buildConv2DFusedBN_ok {info : Conv2DInfo} {bnName : String} {layer : Layer Pt}
    (h : buildConv2DFusedBN E file info bnName st = .ok (layer, st')) :
    ∃ l, layer = .conv2D l ∧ ConvBuilt E st info
      (fun n i j ic oc => clampWeight E.define
        (foldedConv E.define file E.ev.float st.option info (some bnName) n i j ic oc))
      (storedConvBias E.define file E.ev.float info (some bnName)) l st' := by
  simp only [buildConv2DFusedBN, Conv2D.new, bind_eq_ok, pure_eq_ok, Except.ok.injEq, seqFin_eq_ok,
    takeFolding_consumedLevel] at h
  obtain ⟨group, hg, bgroup, hbg, kds, hk, bds, hb, f, hf, b, hb', bn, hbn, pb, hpb, pf, hpf, q,
    ⟨v, hv, w, hw, rfl⟩, he⟩ := h
  cases he
  obtain rfl := data_of_read hg hk hf
  obtain rfl := data_of_read hg hb hb'
  obtain rfl := bnData_of_read hbg hbn
  refine ⟨_, rfl, rfl, rfl, rfl, rfl, hv, hw, hpf, hpb, ?_⟩
  rw [descend, takeFolding_consumedLevel]
  rfl

/-! ## AveragePooling2D -/

structure PoolBuilt (E : Env K Pt Ct) (st : BuildState K) (info : AveragePooling2DInfo)
    (l : AveragePooling2D Pt) (st' : BuildState K) : Prop where
  inShape : (l.inHeight, l.inWidth, l.inChannels) =
    (st.next.inHeight, st.next.inWidth, st.next.inChannels)
  poolSize : (l.poolHeight, l.poolWidth) = info.poolSize
  strides : (l.strideHeight, l.strideWidth) = info.strides
  vertical : Axis.new E.arith info.padding l.inHeight l.poolHeight l.strideHeight = .ok l.vertical
  horizontal : Axis.new E.arith info.padding l.inWidth l.poolWidth l.strideWidth =
    .ok l.horizontal
  factor : st.option.enableOptimizePooling = false → ∃ p, l.plainMulFactor = some p ∧
    E.ev.encodeAt st.option.consumedLevel (poolFactor E.ev.float st.option info) = .ok p
  state : ∀ s, st' = {
    next := { st.next with inHeight := l.outHeight, inWidth := l.outWidth, inChannels := l.inChannels }
    option := optionAfter E.ev.float st.option s (.single (.averagePooling2D info)) }

omit [LinearOrder K] in
theorem poolMulFactor_ok {info : AveragePooling2DInfo} {o o' : OptOption K} {p : Option Pt}
    (h : poolMulFactor E info o = .ok (p, o')) :
    (o.enableOptimizePooling = false → ∃ p', p = some p' ∧
      E.ev.encodeAt o.consumedLevel (poolFactor E.ev.float o info) = .ok p') ∧
    ∀ s, optionAfter E.ev.float o s (.single (.averagePooling2D info)) =
      if !o'.enableOptimizePooling then descend o' 1 else o' := by
  simp only [poolMulFactor, pure_eq_ok] at h
  simp only [optionAfter, poolFactor]
  split at h
  · rename_i hpool
    cases h
    exact ⟨fun hf => absurd hpool (by simp [hf]), fun s => by simp [hpool]⟩
  · rename_i hpool
    split at h
    · rename_i hact
      obtain ⟨p', hp', he⟩ := bind_eq_ok.1 h
      cases he
      exact ⟨fun _ => ⟨p', rfl, by rw [if_pos hact]; exact hp'⟩, fun s => by
        rw [if_neg hpool, if_pos hact, if_pos (by simpa using hpool)]⟩
    · rename_i hact
      obtain ⟨p', hp', he⟩ := bind_eq_ok.1 h
      cases he
      exact ⟨fun _ => ⟨p', rfl, by rw [if_neg hact]; exact hp'⟩, fun s => by
        rw [if_neg hpool, if_neg hact, if_pos (by simpa using hpool)]⟩

omit [LinearOrder K] in
theorem buildAveragePooling2D_ok {info : AveragePooling2DInfo} {layer : Layer Pt}
    (h : buildAveragePooling2D E info st = .ok (layer, st')) :
    ∃ l, layer = .averagePooling2D l ∧ PoolBuilt E st info l st' := by
  simp only [buildAveragePooling2D, AveragePooling2D.new, bind_eq_ok, pure_eq_ok,
    Except.ok.injEq] at h
  obtain ⟨⟨p, o⟩, hp, q, ⟨v, hv, w, hw, rfl⟩, he⟩ := h
  cases he
  obtain ⟨hfactor, hoption⟩ := poolMulFactor_ok hp
  refine ⟨_, rfl, rfl, rfl, rfl, hv, hw, hfactor, fun s => ?_⟩
  rw [hoption s]
  rfl

/-! ## BatchNormalization -/

theorem readVector_ofFn {n i : ℕ} {α : Type} {f : Fin n → α} (h : i < n) :
    readVector (List.ofFn f) i = .ok (f ⟨i, h⟩) := by
  simp [readVector, h]

omit [LinearOrder K] in
theorem buildBatchNormalization_ok {name : String} {layer : Layer Pt}
    (h : buildBatchNormalization E file name st = .ok (layer, st')) :
    ∃ l, layer = .batchNormalization l ∧
      (∀ i < st.next.bnDim, ∃ p, readVector l.plainWeights i = .ok p ∧
        E.ev.encodeAt st.option.consumedLevel
          ((bnData file (groupPath name name)).weight E.ev.float E.define i) = .ok p) ∧
      (∀ i < st.next.bnDim, ∃ p, readVector l.plainBiases i = .ok p ∧
        E.ev.encodeAt (st.option.consumedLevel + 1)
          ((bnData file (groupPath name name)).bias E.ev.float E.define i) = .ok p) ∧
      st' = { st with option := descend st.option 1 } := by
  simp only [buildBatchNormalization, BatchNormalization.new, bind_eq_ok, pure_eq_ok,
    Except.ok.injEq, seqFin_eq_ok] at h
  obtain ⟨group, hg, bn, hbn, pw, hpw, pb, hpb, he⟩ := h
  cases he
  obtain rfl := bnData_of_read hg hbn
  exact ⟨_, rfl, fun i hi => ⟨_, readVector_ofFn hi, hpw ⟨i, hi⟩⟩,
    fun i hi => ⟨_, readVector_ofFn hi, hpb ⟨i, hi⟩⟩, rfl⟩

/-! ## Dense -/

/-- The members of a dense layer built with a kernel and a bias. -/
structure DenseBuilt (E : Env K Pt Ct) (st : BuildState K) (info : DenseInfo)
    (kernel : ℕ → ℕ → K) (bias : ℕ → K) (l : Dense Pt) (st' : BuildState K) : Prop where
  inUnits : l.inUnits = st.next.inUnits
  outUnits : l.outUnits = info.units
  weights : ∀ (i : Fin l.inUnits) (o : Fin l.outUnits),
    E.ev.encodeAt st.option.consumedLevel (kernel i o) = .ok (l.plainWeights i o)
  biases : ∀ o : Fin l.outUnits,
    E.ev.encodeAt (st.option.consumedLevel + 1) (bias o) = .ok (l.plainBiases o)
  state : st' = {
    next := { st.next with inUnits := l.outUnits }
    option := descend st.option.takeFolding.2 1 }

theorem buildDense_ok {info : DenseInfo} {layer : Layer Pt}
    (h : buildDense E file info st = .ok (layer, st')) :
    ∃ l, layer = .dense l ∧ DenseBuilt E st info
      (fun i ou =>
        clampWeight E.define (foldedDense E.define file E.ev.float st.option info none i ou))
      (storedDenseBias E.define file E.ev.float info none) l st' := by
  simp only [buildDense, Dense.new, bind_eq_ok, pure_eq_ok, Except.ok.injEq, seqFin_eq_ok,
    takeFolding_consumedLevel] at h
  obtain ⟨group, hg, kds, hk, bds, hb, f, hf, b, hb', pw, hpw, pb, hpb, he⟩ := h
  cases he
  obtain rfl := data_of_read hg hk hf
  obtain rfl := data_of_read hg hb hb'
  refine ⟨_, rfl, rfl, rfl, hpw, hpb, ?_⟩
  rw [descend, takeFolding_consumedLevel]

theorem buildDenseFusedBN_ok {info : DenseInfo} {bnName : String} {layer : Layer Pt}
    (h : buildDenseFusedBN E file info bnName st = .ok (layer, st')) :
    ∃ l, layer = .dense l ∧ DenseBuilt E st info
      (fun i ou => clampWeight E.define
        (foldedDense E.define file E.ev.float st.option info (some bnName) i ou))
      (storedDenseBias E.define file E.ev.float info (some bnName)) l st' := by
  simp only [buildDenseFusedBN, Dense.new, bind_eq_ok, pure_eq_ok, Except.ok.injEq, seqFin_eq_ok,
    takeFolding_consumedLevel] at h
  obtain ⟨group, hg, bgroup, hbg, kds, hk, bds, hb, f, hf, b, hb', bn, hbn, pb, hpb, pw, hpw, he⟩ := h
  cases he
  obtain rfl := data_of_read hg hk hf
  obtain rfl := data_of_read hg hb hb'
  obtain rfl := bnData_of_read hbg hbn
  refine ⟨_, rfl, rfl, rfl, hpw, hpb, ?_⟩
  rw [descend, takeFolding_consumedLevel]

/-! ## Activation -/

/-- The coefficients of a swish polynomial, each encoded for the product or sum it enters. -/
inductive SwishBuilt (E : Env K Pt Ct) (lv : ℕ) (t : SwishCoeffs K) : Bool → List Pt → Prop
  | plain {p0 p1 p2 p3 p : Pt} : E.ev.encodeAt (lv + 2) t.a = .ok p0 →
      E.ev.encodeAt (lv + 2) t.b = .ok p1 → E.ev.encodeAt (lv + 2) t.c = .ok p2 →
      E.ev.encodeAt (lv + 2) t.d = .ok p → E.ev.modSwitchPlain p = .ok p3 →
      SwishBuilt E lv t false [p0, p1, p2, p3]
  | opt {p0 p1 p2 p : Pt} : E.ev.encodeAt (lv + 1) t.b' = .ok p0 →
      E.ev.encodeAt (lv + 1) t.c' = .ok p1 → E.ev.encodeAt (lv + 1) t.d' = .ok p →
      E.ev.modSwitchPlain p = .ok p2 → SwishBuilt E lv t true [p0, p1, p2]

omit [Field K] [LinearOrder K]

theorem newSwish_ok {name activation : String} {t : SwishCoeffs K} {o o' : OptOption K}
    {l : Activation Pt} (h : Activation.newSwish E.ev name activation t o = .ok (l, o')) :
    l.activation = activation ∧
      SwishBuilt E o.consumedLevel t o.enableOptimizeActivation l.plainPolyCoeffs ∧
      o' = descend o (if o.enableOptimizeActivation then 2 else 3) := by
  unfold Activation.newSwish at h
  cases hact : o.enableOptimizeActivation with
  | false =>
    simp only [hact, SwishCoeffs.coeffs, List.mapM_cons, List.mapM_nil, bind_eq_ok, pure_eq_ok,
      Except.ok.injEq, Bool.false_eq_true, if_false] at h
    obtain ⟨_, ⟨p0, h0, _, ⟨p1, h1, _, ⟨p2, h2, _, ⟨p3, h3, _, rfl, rfl⟩, rfl⟩, rfl⟩, rfl⟩,
      _, hlast, q, hq, he⟩ := h
    cases he
    cases hlast
    exact ⟨rfl, .plain h0 h1 h2 h3 hq, by simp [descend, hact]⟩
  | true =>
    simp only [hact, SwishCoeffs.optCoeffs, List.mapM_cons, List.mapM_nil, bind_eq_ok, pure_eq_ok,
      Except.ok.injEq, if_true] at h
    obtain ⟨_, ⟨p0, h0, _, ⟨p1, h1, _, ⟨p2, h2, _, rfl, rfl⟩, rfl⟩, rfl⟩, _, hlast, q, hq, he⟩ := h
    cases he
    cases hlast
    exact ⟨rfl, .opt h0 h1 h2 hq, by simp [descend, hact]⟩

/-- The coefficients the constructor of `Activation` leaves. -/
def CoeffsBuilt (E : Env K Pt Ct) (o : OptOption K) (activation : String) (l : List Pt) : Prop :=
  if activation = squareName ∨ o.activation = .square then l = []
  else SwishBuilt E o.consumedLevel (swishTable E.define o activation) o.enableOptimizeActivation l

theorem activationNew_ok {name activation : String} {o o' : OptOption K} {l : Activation Pt}
    (h : Activation.new E.ev E.define name activation o = .ok (l, o')) :
    l.activation = activation ∧ CoeffsBuilt E o activation l.plainPolyCoeffs ∧
      o' = descend o (activationDepth o activation) := by
  unfold Activation.new at h
  unfold activationDepth CoeffsBuilt swishTable
  split at h
  · rename_i hsq
    cases h
    simp [hsq, descend]
  · rename_i hsq
    rw [if_neg hsq, if_neg hsq]
    split at h
    · rename_i h4
      rw [if_pos h4]
      exact newSwish_ok h
    · rename_i h4
      rw [if_neg h4]
      split at h
      · exact newSwish_ok h
      · cases h

theorem buildActivation_ok [Field K] {name activation : String} {layer : Layer Pt}
    (h : buildActivation E name activation st = .ok (layer, st')) :
    ∃ l, layer = .activation l ∧ l.activation = activation ∧
      CoeffsBuilt E st.option activation l.plainPolyCoeffs ∧
      ∀ s, st' = { st with
        option := optionAfter E.ev.float st.option s (.single (.activation name activation)) } := by
  simp only [buildActivation, bind_eq_ok, pure_eq_ok, Except.ok.injEq] at h
  obtain ⟨⟨l, o⟩, hnew, he⟩ := h
  cases he
  obtain ⟨hl, hb, ho⟩ := activationNew_ok hnew
  refine ⟨l, rfl, hl, ?_, fun s => ?_⟩
  · split at hb <;> exact hb
  · subst ho
    simp only [optionAfter]
    split <;> rfl

end Cnn.Proof
