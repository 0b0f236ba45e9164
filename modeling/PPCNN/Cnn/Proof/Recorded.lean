import PPCNN.Cnn.Proof.Run

/-!
# The shapes the builders record

The members of a built layer hold the shape of its input, and the file-scope variables after the
call the shape of its output (`buildLayer_recorded`), for every integer arithmetic that computes the
output sizes of the reference on the extents of the image (`SizesExact`): without bounds on all, with
64-bit integers on those below `2 ^ 24`, where also a `float` is exact.
-/

set_option autoImplicit false

namespace Cnn.Proof

open Lib Keras

variable {K Pt Ct : Type}

/-! ## Output sizes -/

/-- The arithmetic computes the output sizes of the reference for an extent. -/
def SizeExact (A : IntArith) (inSize : ℕ) : Prop :=
  ∀ (padding : String) (size stride out : ℕ) (a : Axis),
    outSize padding inSize size stride = some out → Axis.new A padding inSize size stride = .ok a →
      a.out = out

/-- For the extents of an image. -/
def SizesExact (A : IntArith) : Shape → Prop
  | .image h w _ => SizeExact A h ∧ SizeExact A w
  | .units _ => True

theorem sizeExact_of_size {A : IntArith} {inSize : ℕ} (hA : ∀ n : ℕ, n ≤ inSize → A.size n = n)
    (hq : ∀ n ≤ inSize, ∀ d, 0 < d → A.ceilQuotient n d = (n + d - 1) / d) : SizeExact A inSize := by
  intro padding size stride out a hout ha
  obtain ⟨hi, hz, hs, -⟩ := outSize_pos hout
  obtain ⟨rfl, hle, rfl⟩ | ⟨rfl, rfl⟩ := outSize_cases hout
  · rw [Axis.new, if_pos rfl] at ha
    cases ha
    have hdiff : (inSize : ℤ) - size + 1 = ((inSize - size + 1 : ℕ) : ℤ) := by omega
    have hin : inSize - size + 1 ≤ inSize := by omega
    simp only [hdiff, hA _ hin, Int.toNat_natCast, hq _ hin _ hs]
    rw [show inSize - size + 1 + stride - 1 = inSize - size + stride by omega, Nat.add_div_right _ hs]
  · rw [Axis.new, if_neg (by decide), if_pos rfl] at ha
    cases ha
    exact hq _ le_rfl _ hs

theorem sizesExact_unbounded (s : Shape) : SizesExact .unbounded s := by
  have hexact : ∀ n, SizeExact .unbounded n := fun n =>
    sizeExact_of_size (fun _ _ => rfl) fun _ _ _ _ => rfl
  cases s with
  | image h w n => exact ⟨hexact h, hexact w⟩
  | units n => trivial

theorem sizeExact_lp64 {n : ℕ} (h : n < 2 ^ 24) : SizeExact .lp64 n := by
  refine sizeExact_of_size (fun m hm => ?_) fun m hm d hd => ?_
  · simp only [IntArith.lp64]
    omega
  · exact IntArith.ceilQuotient_lp64 (hm.trans_lt h) hd

/-! ## Extents below `2 ^ 24` -/

/-- The extents of an image are below `2 ^ 24`. -/
def BelowFloat : Shape → Prop
  | .image h w _ => h < 2 ^ 24 ∧ w < 2 ^ 24
  | .units _ => True

theorem outSize_le {padding : String} {inSize size stride out : ℕ}
    (h : outSize padding inSize size stride = some out) : out ≤ inSize := by
  obtain ⟨hi, hz, hs, -⟩ := outSize_pos h
  obtain ⟨-, hle, rfl⟩ | ⟨-, rfl⟩ := outSize_cases h
  · have := Nat.div_le_self (inSize - size) stride
    omega
  · apply Nat.div_le_of_le_mul
    have := Nat.mul_le_mul_left (stride - 1) hi
    have hmul : stride * inSize = (stride - 1) * inSize + inSize := by
      rw [← Nat.succ_mul]
      congr 1
      omega
    omega

theorem outShape_below {l : LayerInfo} {s s' : Shape} (hs : outShape l s = some s')
    (hbelow : BelowFloat s) : BelowFloat s' := by
  cases s with
  | image h w n =>
    cases l with
    | conv2D info =>
      obtain ⟨oh, ow, hoh, how, rfl, -⟩ := outShape_conv2D hs
      exact ⟨(outSize_le hoh).trans_lt hbelow.1, (outSize_le how).trans_lt hbelow.2⟩
    | averagePooling2D info =>
      obtain ⟨oh, ow, hoh, how, rfl⟩ := outShape_averagePooling2D hs
      exact ⟨(outSize_le hoh).trans_lt hbelow.1, (outSize_le how).trans_lt hbelow.2⟩
    | batchNormalization name => exact Option.some.inj hs ▸ hbelow
    | activation name activation => exact Option.some.inj hs ▸ hbelow
    | flatten name => exact Option.some.inj hs ▸ trivial
    | globalAveragePooling2D name => exact Option.some.inj hs ▸ trivial
    | dense info => cases hs
    | other className => cases hs
  | units n =>
    cases l with
    | batchNormalization name => exact Option.some.inj hs ▸ hbelow
    | activation name activation => exact Option.some.inj hs ▸ hbelow
    | dense info =>
      simp only [outShape] at hs
      split at hs
      · exact Option.some.inj hs ▸ trivial
      · cases hs
    | _ => cases hs

theorem callShape_below {call : BuildCall} {s s' : Shape} (hs : callShape call s = some s')
    (hbelow : BelowFloat s) : BelowFloat s' := by
  cases call <;> exact outShape_below hs hbelow

theorem sizesExact_lp64 {s : Shape} (h : BelowFloat s) : SizesExact .lp64 s := by
  cases s with
  | image h w n => exact ⟨sizeExact_lp64 h.1, sizeExact_lp64 h.2⟩
  | units n => trivial

/-! ## Members -/

/-- The file-scope variables describe a value of the given shape. -/
def NextFor (next : NextLayer) : Shape → Prop
  | .image h w n => next = ⟨h, w, n, 0⟩
  | .units n => next.inUnits = n

/-- The members of a layer record the shapes of its input and its output. -/
def Recorded (layer : Layer Pt) (s s' : Shape) : Prop :=
  match layer with
  | .conv2D l =>
    s = .image l.inHeight l.inWidth l.inChannels ∧ s' = .image l.outHeight l.outWidth l.filterSize
  | .averagePooling2D l =>
    s = .image l.inHeight l.inWidth l.inChannels ∧ s' = .image l.outHeight l.outWidth l.inChannels
  | .batchNormalization l =>
    s' = s ∧ l.plainWeights.length = s.lastDim ∧ l.plainBiases.length = s.lastDim
  | .flatten l => s = .image l.inHeight l.inWidth l.inChannels ∧
    l.outUnits = l.inHeight * l.inWidth * l.inChannels ∧ s' = .units l.outUnits
  | .dense l => s = .units l.inUnits ∧ s' = .units l.outUnits
  | .activation _ => s' = s
  | .globalAveragePooling2D l => s = .image l.inHeight l.inWidth l.inChannels ∧
    l.outUnits = l.inChannels ∧ s' = .units l.outUnits

theorem inShape_of_next {info : Conv2DInfo} {next : NextLayer} {h w n : ℕ}
    (hnext : NextFor next (.image h w n))
    (hbatch : info.batchInputShape.getD (h, w, n) = (h, w, n)) : info.inShape next = (h, w, n) := by
  rw [Conv2DInfo.inShape, show next = ⟨h, w, n, 0⟩ from hnext, hbatch]

theorem bnDim_of_next {next : NextLayer} {s : Shape} (hpos : s.Positive) (hnext : NextFor next s) :
    next.bnDim = s.lastDim := by
  cases s with
  | image h w n =>
    rw [NextLayer.bnDim, show next = ⟨h, w, n, 0⟩ from hnext]
    rfl
  | units n =>
    have h : next.inUnits = n := hnext
    rw [NextLayer.bnDim, h, if_pos (Nat.pos_iff_ne_zero.1 hpos), Shape.lastDim]

variable [Field K] {E : Env K Pt Ct} {file : H5File K} {st st' : BuildState K} {s s' : Shape}

theorem convBuilt_recorded {info : Conv2DInfo} {kernel : ℕ → ℕ → ℕ → ℕ → ℕ → K} {bias : ℕ → K}
    {l : Conv2D Pt} (hb : ConvBuilt E st info kernel bias l st')
    (hs : outShape (.conv2D info) s = some s') (hA : SizesExact E.arith s) (hnext : NextFor st.next s) :
    Recorded (.conv2D l) s s' ∧ NextFor st'.next s' := by
  cases s with
  | units n => cases hs
  | image h w n =>
    obtain ⟨oh, ow, hoh, how, rfl, hbatch, -⟩ := outShape_conv2D hs
    have hin := hb.inShape.trans (inShape_of_next hnext hbatch)
    simp only [Prod.mk.injEq] at hin
    obtain ⟨rfl, rfl, rfl⟩ := hin
    have hv := hb.vertical
    have hh := hb.horizontal
    rw [show l.filterHeight = info.kernelSize.1 by rw [← hb.kernelSize],
      show l.strideHeight = info.strides.1 by rw [← hb.strides]] at hv
    rw [show l.filterWidth = info.kernelSize.2 by rw [← hb.kernelSize],
      show l.strideWidth = info.strides.2 by rw [← hb.strides]] at hh
    have hoh : l.outHeight = oh := hA.1 _ _ _ _ _ hoh hv
    have how : l.outWidth = ow := hA.2 _ _ _ _ _ how hh
    refine ⟨⟨rfl, by rw [hoh, how, hb.filterSize]⟩, ?_⟩
    rw [hb.state, show st.next = ⟨l.inHeight, l.inWidth, l.inChannels, 0⟩ from hnext, hoh, how,
      hb.filterSize]
    rfl

theorem poolBuilt_recorded {info : AveragePooling2DInfo} {l : AveragePooling2D Pt}
    (hb : PoolBuilt E st info l st') (hs : outShape (.averagePooling2D info) s = some s')
    (hA : SizesExact E.arith s) (hnext : NextFor st.next s) :
    Recorded (.averagePooling2D l) s s' ∧ NextFor st'.next s' := by
  cases s with
  | units n => cases hs
  | image h w n =>
    obtain ⟨oh, ow, hoh, how, rfl⟩ := outShape_averagePooling2D hs
    have hin := hb.inShape
    rw [show st.next = ⟨h, w, n, 0⟩ from hnext, Prod.mk.injEq, Prod.mk.injEq] at hin
    obtain ⟨rfl, rfl, rfl⟩ := hin
    have hv := hb.vertical
    have hh := hb.horizontal
    rw [show l.poolHeight = info.poolSize.1 by rw [← hb.poolSize],
      show l.strideHeight = info.strides.1 by rw [← hb.strides]] at hv
    rw [show l.poolWidth = info.poolSize.2 by rw [← hb.poolSize],
      show l.strideWidth = info.strides.2 by rw [← hb.strides]] at hh
    have hoh : l.outHeight = oh := hA.1 _ _ _ _ _ hoh hv
    have how : l.outWidth = ow := hA.2 _ _ _ _ _ how hh
    refine ⟨⟨rfl, by rw [hoh, how]⟩, ?_⟩
    rw [hb.state (.units 0), show st.next = ⟨l.inHeight, l.inWidth, l.inChannels, 0⟩ from hnext, hoh, how]
    rfl

theorem denseBuilt_recorded {info : DenseInfo} {kernel : ℕ → ℕ → K} {bias : ℕ → K} {l : Dense Pt}
    (hb : DenseBuilt E st info kernel bias l st') (hs : outShape (.dense info) s = some s')
    (hnext : NextFor st.next s) : Recorded (.dense l) s s' ∧ NextFor st'.next s' := by
  cases s with
  | image h w n => cases hs
  | units n =>
    have hs' : s' = .units info.units := by
      by_cases hu : 0 < info.units
      · simpa [outShape, hu, eq_comm] using hs
      · simp [outShape, hu] at hs
    subst hs'
    refine ⟨⟨?_, by rw [hb.outUnits]⟩, ?_⟩
    · rw [hb.inUnits, show st.next.inUnits = n from hnext]
    · rw [hb.state]
      exact hb.outUnits

theorem buildBatchNormalization_length {name : String} {layer : Layer Pt}
    (h : buildBatchNormalization E file name st = .ok (layer, st')) :
    ∃ l, layer = .batchNormalization l ∧ l.plainWeights.length = st.next.bnDim ∧
      l.plainBiases.length = st.next.bnDim := by
  simp only [buildBatchNormalization, BatchNormalization.new, bind_eq_ok, pure_eq_ok,
    Except.ok.injEq] at h
  obtain ⟨group, -, bn, -, pw, -, pb, -, he⟩ := h
  cases he
  exact ⟨_, rfl, List.length_ofFn, List.length_ofFn⟩

variable [LinearOrder K]

/-- A call records the shape of its input in the layer and the shape of its output in the
variables. -/
theorem buildLayer_recorded {call : BuildCall} {layer : Layer Pt}
    (hbuild : buildLayer E file call st = .ok (layer, st')) (hs : callShape call s = some s')
    (hA : SizesExact E.arith s) (hpos : s.Positive) (hnext : NextFor st.next s) :
    Recorded layer s s' ∧ NextFor st'.next s' := by
  cases call with
  | conv2DFusedBN info bn =>
    obtain ⟨l, rfl, hb⟩ := buildConv2DFusedBN_ok hbuild
    exact convBuilt_recorded hb hs hA hnext
  | denseFusedBN info bn =>
    obtain ⟨l, rfl, hb⟩ := buildDenseFusedBN_ok hbuild
    exact denseBuilt_recorded hb hs hnext
  | single l =>
    cases l with
    | conv2D info =>
      obtain ⟨l, rfl, hb⟩ := buildConv2D_ok hbuild
      exact convBuilt_recorded hb hs hA hnext
    | averagePooling2D info =>
      obtain ⟨l, rfl, hb⟩ := buildAveragePooling2D_ok hbuild
      exact poolBuilt_recorded hb hs hA hnext
    | batchNormalization name =>
      obtain ⟨l, -, -, -, rfl⟩ := buildBatchNormalization_ok hbuild
      obtain ⟨l, rfl, hw, hb⟩ := buildBatchNormalization_length hbuild
      obtain rfl : s = s' := Option.some.inj hs
      rw [bnDim_of_next hpos hnext] at hw hb
      exact ⟨⟨rfl, hw, hb⟩, hnext⟩
    | flatten name =>
      cases hbuild
      cases s with
      | units n => cases hs
      | image h w n =>
        cases hs
        rw [show st.next = ⟨h, w, n, 0⟩ from hnext]
        exact ⟨⟨rfl, rfl, rfl⟩, rfl⟩
    | dense info =>
      obtain ⟨l, rfl, hb⟩ := buildDense_ok hbuild
      exact denseBuilt_recorded hb hs hnext
    | activation name activation =>
      obtain ⟨l, rfl, -, -, hst⟩ := buildActivation_ok hbuild
      obtain rfl : s = s' := Option.some.inj hs
      rw [hst (.units 0)]
      exact ⟨rfl, hnext⟩
    | globalAveragePooling2D name =>
      cases hbuild
      cases s with
      | units n => cases hs
      | image h w n =>
        cases hs
        rw [show st.next = ⟨h, w, n, 0⟩ from hnext]
        exact ⟨⟨rfl, rfl, rfl⟩, rfl⟩
    | other className => cases hbuild

end Cnn.Proof
