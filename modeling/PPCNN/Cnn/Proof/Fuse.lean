import PPCNN.Cnn.Proof.Complete
import PPCNN.Cnn.Proof.Pending

/-!
# One fused layer

In exact slotwise arithmetic the layer of `buildConv2DFusedBN` computes what the layers of
`buildConv2D` and `buildBatchNormalization` compute one after the other, for any integer arithmetic
and also where a window leaves the image: every tap of the fused kernel is a tap of the kernel times
the weight of its channel (`conv2D_forward_affine`). The builders agree as well
(`agree_conv2DFusedBN`).
-/

set_option autoImplicit false

namespace Cnn.Proof

open Lib Keras

variable {K V : Type} [Field K] [CommRing V] [Algebra K V]

/-! ## Forward -/

theorem build_mapChannels {α β : Type} {h w n : ℕ} (f : Fin h → Fin w → Fin n → Except Error α)
    (g : ℕ → α → β) :
    Tensor3.build h w n (fun i j k => g k <$> f i j k) =
      (fun t => t.mapChannels g) <$> Tensor3.build h w n f := by
  simp only [Tensor3.build, seqFin_map]
  cases seqFin fun i => seqFin fun j => seqFin fun k => f i j k <;> rfl

/-- The value of an accumulator with the weight of its channel. -/
def scaleAcc (weight : K) (acc : ℕ × Option V) : ℕ × Option V :=
  (acc.1, acc.2.map fun x => weight • x)

/-- The convolution with a weight and a shift for each channel. -/
def affineConv (l : Conv2D K) (name : String) (weight shift : ℕ → K) : Conv2D K :=
  { l with
    name
    plainFilters := fun i j ic oc => l.plainFilters i j ic oc * weight oc
    plainBiases := fun oc => l.plainBiases oc * weight oc + shift oc }

variable {A : IntArith} {l : Conv2D K} {name : String} {weight shift : ℕ → K}

theorem assignOrAdd_smul (f : K) (first : Bool) (out : Option V) (x : V) :
    (Evaluator.exact (K := K) V).assignOrAdd first (out.map fun y => f • y) (f • x) =
      Option.map (fun y => f • y) <$> (Evaluator.exact (K := K) V).assignOrAdd first out x := by
  cases first with
  | true => rfl
  | false =>
    cases out with
    | none => rfl
    | some y => simp [Evaluator.assignOrAdd, Evaluator.addInplace, Evaluator.exact]

/-- The loop over the channels of a tap. -/
def tapChannels (input : Tensor3 V) (y x : ℤ) {n : ℕ} (plain : Fin n → K) (counter : ℕ)
    (out : Option V) : Except Error (Option V) :=
  (List.finRange n).foldlM (fun out (ic : Fin n) => do
    let weightedPixel ← (Evaluator.exact V).multiplyPlain (← input.read y x ic) (plain ic)
    (Evaluator.exact (K := K) V).assignOrAdd (counter == 1 && ic.val == 0) out weightedPixel) out

theorem tapChannels_smul (input : Tensor3 V) (y x : ℤ) {n : ℕ} (plain : Fin n → K) (f : K)
    (counter : ℕ) (out : Option V) :
    tapChannels input y x (fun ic => plain ic * f) counter (out.map fun x => f • x) =
      Option.map (fun x => f • x) <$> tapChannels input y x plain counter out := by
  refine foldlM_map (fun out ic => ?_) _ _
  cases input.read y x ic with
  | error e => rfl
  | ok p =>
    show (Evaluator.exact (K := K) V).assignOrAdd _ _ ((plain ic * f) • p) = _
    rw [mul_comm, ← smul_smul]
    exact assignOrAdd_smul f _ out _

theorem tap_affine (input : Tensor3 V) (targetTop targetLeft : ℤ) (oc : Fin l.filterSize)
    (acc : ℕ × Option V) (p : Fin l.filterHeight × Fin l.filterWidth) :
    (affineConv l name weight shift).tap (.exact V) A input targetTop targetLeft oc
        (scaleAcc (weight oc) acc) p =
      scaleAcc (weight oc) <$> l.tap (.exact V) A input targetTop targetLeft oc acc p := by
  let y := A.int (targetTop + (p.1 : ℕ))
  let x := A.int (targetLeft + (p.2 : ℕ))
  show (if isOutOfRangeInput l.inHeight l.inWidth x y then _
    else do
      let out ← tapChannels input y x (fun ic => l.plainFilters p.1 p.2 ic oc * weight oc) (acc.1 + 1)
        (acc.2.map fun x => weight oc • x)
      return (acc.1 + 1, out)) = scaleAcc (weight oc) <$> (if isOutOfRangeInput l.inHeight l.inWidth x y
    then (.ok acc : Except Error (ℕ × Option V))
    else do
      let out ← tapChannels input y x (fun ic => l.plainFilters p.1 p.2 ic oc) (acc.1 + 1) acc.2
      return (acc.1 + 1, out))
  split
  · rfl
  · rw [tapChannels_smul]
    cases tapChannels input y x (fun ic => l.plainFilters p.1 p.2 ic oc) (acc.1 + 1) acc.2 <;> rfl

theorem finishLinear_affine (f b s : K) (out : Option V) :
    finishLinear (.exact V) (out.map fun x => f • x) (b * f + s) =
      (fun x => f • x + algebraMap K V s) <$> finishLinear (.exact V) out b := by
  cases out with
  | none => rfl
  | some x =>
    refine congrArg Except.ok ?_
    simp only [Evaluator.exact, map_add, map_mul, Algebra.smul_def]
    ring

/-- The weights and shifts of the channels may move into the convolution. -/
theorem conv2D_forward_affine (input : Tensor3 V) :
    (affineConv l name weight shift).forward (.exact V) A input =
      (fun t => t.mapChannels (affine weight shift)) <$> l.forward (.exact V) A input := by
  rw [Conv2D.forward, Conv2D.forward, ← build_mapChannels]
  refine congrArg (Tensor3.build l.outHeight l.outWidth l.filterSize) ?_
  funext (oh : Fin l.outHeight) (ow : Fin l.outWidth) (oc : Fin l.filterSize)
  let top := A.int ((oh : ℕ) * l.strideHeight - l.padTop)
  let left := A.int ((ow : ℕ) * l.strideWidth - l.padLeft)
  have hfold : (windowTaps l.filterHeight l.filterWidth).foldlM
      ((affineConv l name weight shift).tap (.exact V) A input top left oc) (0, none) =
      scaleAcc (weight oc) <$> (windowTaps l.filterHeight l.filterWidth).foldlM
        (l.tap (.exact V) A input top left oc) (0, none) :=
    foldlM_map (tap_affine input top left oc) _ (0, none)
  show (do
    let acc ← (windowTaps l.filterHeight l.filterWidth).foldlM
      ((affineConv l name weight shift).tap (.exact V) A input top left oc) (0, none)
    finishLinear (.exact V) acc.2 (l.plainBiases oc * weight oc + shift oc)) = _
  rw [hfold]
  show _ = _ <$> (do
    let acc ← (windowTaps l.filterHeight l.filterWidth).foldlM
      (l.tap (.exact V) A input top left oc) (0, none)
    finishLinear (.exact V) acc.2 (l.plainBiases oc))
  cases (windowTaps l.filterHeight l.filterWidth).foldlM
      (l.tap (.exact V) A input top left oc) (0, none) with
  | error e => rfl
  | ok acc => exact finishLinear_affine _ _ _ acc.2

/-- A batch normalisation with a weight and a bias for each channel of the image. -/
theorem forward3D_exact {m : BatchNormalization K} {n : ℕ}
    (hw : ∀ i < n, readVector m.plainWeights i = .ok (weight i))
    (hb : ∀ i < n, readVector m.plainBiases i = .ok (shift i)) {t : Tensor3 V} (ht : t.channels = n) :
    m.forward3D (.exact V) t = .ok (t.mapChannels (affine weight shift)) := by
  obtain ⟨height, width, channels, cell⟩ := t
  obtain rfl : channels = n := ht
  have happly : ∀ (i : Fin channels) (x : V),
      m.apply (.exact V) i x = .ok (affine weight shift i x) := by
    intro i x
    simp [BatchNormalization.apply, hw i i.isLt, hb i i.isLt, Evaluator.exact, affine]
  simp only [BatchNormalization.forward3D, Tensor3.build, happly, seqFin_pure, ok_bind]
  rfl

/-! ## Builders and levels -/

/-- The option on level zero, with layers not fused. -/
def unlevel (o : OptOption K) : OptOption K := { o with enableFuseLayers := false, consumedLevel := 0 }

/-- The result of a builder without the level. -/
def unlevelResult {α : Type} (p : α × BuildState K) : α × BuildState K :=
  (p.1, ⟨p.2.next, unlevel p.2.option⟩)

theorem takeFolding_unlevel (o : OptOption K) :
    (unlevel o).takeFolding = (o.takeFolding.1, unlevel o.takeFolding.2) := by
  obtain ⟨_, act, pool, coeff, multiply, _, _, _, _⟩ := o
  cases act <;> cases pool <;> cases coeff <;> cases multiply <;> rfl

section Unlevel

variable [LinearOrder K] {c : Define K} {file : H5File K} {A : IntArith}

theorem buildConv2D_unlevel (info : Conv2DInfo) (next : NextLayer) (o : OptOption K) :
    unlevelResult <$> buildConv2D ⟨.exact V, A, c⟩ file info ⟨next, unlevel o⟩ =
      unlevelResult <$> buildConv2D ⟨.exact V, A, c⟩ file info ⟨next, o⟩ := by
  simp only [buildConv2D, Conv2D.new, takeFolding_unlevel, encodeAt_exact, seqFin_pure, ok_bind,
    bind_assoc, map_bind, map_pure, pure_bind]
  rfl

omit [LinearOrder K] in
theorem buildAveragePooling2D_unlevel (info : AveragePooling2DInfo) (next : NextLayer) (o : OptOption K) :
    unlevelResult <$> buildAveragePooling2D ⟨.exact V, A, c⟩ info ⟨next, unlevel o⟩ =
      unlevelResult <$> buildAveragePooling2D ⟨.exact V, A, c⟩ info ⟨next, o⟩ := by
  obtain ⟨_, act, pool, coeff, multiply, _, _, _, _⟩ := o
  cases act <;> cases pool <;> cases coeff <;>
    simp [buildAveragePooling2D, poolMulFactor, AveragePooling2D.new, unlevel, unlevelResult]

omit [LinearOrder K] in
theorem buildBatchNormalization_unlevel (name : String) (next : NextLayer) (o : OptOption K) :
    unlevelResult <$> buildBatchNormalization ⟨.exact V, A, c⟩ file name ⟨next, unlevel o⟩ =
      unlevelResult <$> buildBatchNormalization ⟨.exact V, A, c⟩ file name ⟨next, o⟩ := by
  simp only [buildBatchNormalization, encodeAt_exact, seqFin_pure, ok_bind, map_bind, map_pure]
  rfl

theorem buildDense_unlevel (info : DenseInfo) (next : NextLayer) (o : OptOption K) :
    unlevelResult <$> buildDense ⟨.exact V, A, c⟩ file info ⟨next, unlevel o⟩ =
      unlevelResult <$> buildDense ⟨.exact V, A, c⟩ file info ⟨next, o⟩ := by
  simp only [buildDense, takeFolding_unlevel, encodeAt_exact, seqFin_pure, ok_bind, map_bind, map_pure]
  rfl

omit [LinearOrder K] in
theorem newSwish_unlevel (name activation : String) (t : SwishCoeffs K) (o : OptOption K) :
    (fun p => (p.1, unlevel p.2)) <$> Activation.newSwish (.exact V) name activation t (unlevel o) =
      (fun p => (p.1, unlevel p.2)) <$> Activation.newSwish (.exact V) name activation t o := by
  obtain ⟨_, act, _, _, _, _, _, _, _⟩ := o
  cases act <;>
    simp [Activation.newSwish, SwishCoeffs.coeffs, SwishCoeffs.optCoeffs, readVector, unlevel]

omit [LinearOrder K] in
theorem activationNew_unlevel (name activation : String) (o : OptOption K) :
    (fun p => (p.1, unlevel p.2)) <$> Activation.new (.exact V) c name activation (unlevel o) =
      (fun p => (p.1, unlevel p.2)) <$> Activation.new (.exact V) c name activation o := by
  simp only [Activation.new, show (unlevel o).activation = o.activation from rfl]
  split
  · rfl
  · split
    · exact newSwish_unlevel name activation _ o
    · split
      · exact newSwish_unlevel name activation _ o
      · rfl

omit [LinearOrder K] in
theorem buildActivation_unlevel (name activation : String) (next : NextLayer) (o : OptOption K) :
    unlevelResult <$> buildActivation ⟨.exact V, A, c⟩ name activation ⟨next, unlevel o⟩ =
      unlevelResult <$> buildActivation ⟨.exact V, A, c⟩ name activation ⟨next, o⟩ := by
  have hbuild : ∀ o : OptOption K,
      unlevelResult <$> buildActivation ⟨.exact V, A, c⟩ name activation ⟨next, o⟩ =
        (fun p => (Layer.activation p.1, (⟨next, p.2⟩ : BuildState K))) <$>
          (fun p => (p.1, unlevel p.2)) <$> Activation.new (.exact V) c name activation
            (if o.enableOptimizeActivation then { o with shouldMultiplyCoeff := true } else o) := by
    intro o
    rw [buildActivation]
    cases Activation.new (Evaluator.exact V) c name activation
      (if o.enableOptimizeActivation then { o with shouldMultiplyCoeff := true } else o) <;> rfl
  have hmark : (if (unlevel o).enableOptimizeActivation then { unlevel o with shouldMultiplyCoeff := true }
      else unlevel o) =
      unlevel (if o.enableOptimizeActivation then { o with shouldMultiplyCoeff := true } else o) := by
    obtain ⟨_, act, _, _, _, _, _, _, _⟩ := o
    cases act <;> rfl
  rw [hbuild, hbuild, hmark, activationNew_unlevel]

/-- A builder takes from the option only the level and whether layers are fused without effect on
the layer it builds. -/
theorem buildSingle_unlevel (layer : LayerInfo) (next : NextLayer) (o : OptOption K) :
    unlevelResult <$> buildSingle ⟨.exact V, A, c⟩ file layer ⟨next, unlevel o⟩ =
      unlevelResult <$> buildSingle ⟨.exact V, A, c⟩ file layer ⟨next, o⟩ := by
  cases layer with
  | conv2D info => exact buildConv2D_unlevel info next o
  | averagePooling2D info => exact buildAveragePooling2D_unlevel info next o
  | batchNormalization name => exact buildBatchNormalization_unlevel name next o
  | flatten name => rfl
  | dense info => exact buildDense_unlevel info next o
  | activation name activation => exact buildActivation_unlevel name activation next o
  | globalAveragePooling2D name => rfl
  | other className => rfl

end Unlevel

/-! ## The fused builder -/

/-- States that differ in the level and in whether layers are fused. -/
def SameButLevel (st st' : BuildState K) : Prop :=
  st.next = st'.next ∧ unlevel st.option = unlevel st'.option

/-- On images, a layer computes what two layers compute one after the other. -/
def Composes (A : IntArith) (fused first second : Layer K) : Prop :=
  ∀ (o : OptOption K) (s : PredictState V), s.inputDim ≠ 1 →
    predictLayer (.exact V) A o fused s = (do
      let s ← predictLayer (.exact V) A o first s
      predictLayer (.exact V) A o second s)

theorem composes_affineConv (name : String) {l : Conv2D K} {m : BatchNormalization K}
    {weight shift : ℕ → K} (hw : ∀ i < l.filterSize, readVector m.plainWeights i = .ok (weight i))
    (hb : ∀ i < l.filterSize, readVector m.plainBiases i = .ok (shift i)) :
    Composes (V := V) A (.conv2D (affineConv l name weight shift)) (.conv2D l)
      (.batchNormalization m) := by
  intro o s hs
  simp only [predictLayer, conv2D_forward_affine]
  cases Evaluator.assigned s.encrypted3d with
  | error e => rfl
  | ok t =>
    simp only [ok_bind]
    cases ht : l.forward (.exact V) A t with
    | error e => rfl
    | ok t' =>
      have hchannels : t'.channels = l.filterSize := by
        unfold Conv2D.forward Tensor3.build at ht
        obtain ⟨cells, -, he⟩ := bind_eq_ok.1 ht
        cases he
        rfl
      simp only [map_ok, ok_bind, pure_eq_ok, if_neg hs, Evaluator.assigned,
        forward3D_exact hw hb hchannels]

theorem SameButLevel.takeFolding {o o' : OptOption K} (h : unlevel o = unlevel o') :
    o.takeFolding.1 = o'.takeFolding.1 ∧ unlevel o.takeFolding.2 = unlevel o'.takeFolding.2 := by
  have heq := congrArg OptOption.takeFolding h
  rw [takeFolding_unlevel, takeFolding_unlevel] at heq
  exact Prod.mk.inj heq

/-- `Flatten` and `GlobalAveragePooling2D` end the images. -/
def EndsImage {Pt : Type} : Layer Pt → Prop
  | .flatten _ | .globalAveragePooling2D _ => True
  | _ => False

variable (V A) in
/-- A fused layer, and the two layers built in its place. -/
structure FusedPair (p : (Layer K × Layer K) × BuildState K) (p' : Layer K × BuildState K) : Prop where
  composes : Composes (V := V) A p'.1 p.1.1 p.1.2
  same : SameButLevel p.2 p'.2
  inUnits : p.2.next.inUnits = 0
  first : ¬EndsImage p.1.1
  second : ¬EndsImage p.1.2

/-- The two builders, one after the other. -/
def buildConv2DThenBN [LinearOrder K] {Pt Ct : Type} (env : Env K Pt Ct) (file : H5File K)
    (info : Conv2DInfo) (bn : String) (st : BuildState K) : Except Error ((Layer Pt × Layer Pt) × BuildState K) := do
  let (first, st) ← buildConv2D env file info st
  let (second, st) ← buildBatchNormalization env file bn st
  return ((first, second), st)

/-- The fused builder throws where one of the two builders throws. -/
theorem agree_conv2DFusedBN [LinearOrder K] [IsStrictOrderedRing K] {c : Define K} (hε : c.epsilon = 0)
    {file : H5File K} (info : Conv2DInfo) (bn : String) {st st' : BuildState K}
    (hst : SameButLevel st st') (hunits : st.next.inUnits = 0) :
    Agree (FusedPair V A) (buildConv2DThenBN ⟨.exact V, A, c⟩ file info bn st)
      (buildConv2DFusedBN ⟨.exact V, A, c⟩ file info bn st') := by
  obtain ⟨next, o⟩ := st
  obtain ⟨next', o'⟩ := st'
  obtain ⟨rfl, ho⟩ := hst
  obtain ⟨hfold, hoption⟩ := SameButLevel.takeFolding ho
  have hunits : next.inUnits = 0 := hunits
  simp only [buildConv2DThenBN, buildConv2D, buildConv2DFusedBN, buildBatchNormalization, Conv2D.new, encodeAt_exact,
    seqFin_pure, ok_bind, bind_assoc, pure_bind]
  cases file.openGroup (groupPath info.name info.name) with
  | error e => trivial
  | ok group =>
    simp only [ok_bind]
    cases file.openGroup (groupPath bn bn) with
    | error e =>
      exact .bind_error fun _ => .bind_error fun _ => .bind_error fun _ => .bind_error fun _ =>
        .bind_error fun _ => .bind_error fun _ => trivial
    | ok bnGroup =>
      simp only [ok_bind]
      refine .bind_same fun kernelDs _ => .bind_same fun biasDs _ => .bind_same fun filters _ =>
        .bind_same fun biases _ => ?_
      have hdim : ∀ h w, NextLayer.bnDim ⟨h, w, info.filters, next.inUnits⟩ = info.filters := by
        intro h w
        simp [NextLayer.bnDim, hunits]
      simp only [Conv2D.outChannels, hdim, clampWeight_zero hε]
      cases BnData.read bnGroup info.filters with
      | error e => exact .bind_error fun _ => .bind_error fun _ => trivial
      | ok bnData =>
        simp only [ok_bind]
        refine .bind_same fun vertical _ => .bind_same fun horizontal _ => ?_
        have hread : ∀ f : ℕ → K, ∀ i < info.filters,
            readVector (List.ofFn fun i : Fin info.filters => f i) i = .ok (f i) :=
          fun f i hi => readVector_ofFn hi
        refine ⟨?_, ⟨rfl, hoption⟩, hunits, id, id⟩
        have hcomposes := composes_affineConv (V := V) (A := A) (info.name ++ "-fused-with-" ++ bn)
          (l := ⟨info.name, (info.inShape next).1, (info.inShape next).2.1, (info.inShape next).2.2,
            info.filters, info.kernelSize.1, info.kernelSize.2, info.strides.1, info.strides.2,
            info.padding, info.activation, vertical, horizontal, fun i j ic oc => o.takeFolding.1 *
              filters (kernelIndex info.kernelSize.2 (info.inShape next).2.2 info.filters i j ic oc),
            fun oc => biases oc⟩)
          (m := ⟨bn, _, _⟩) (hread (bnData.weight id c)) (hread (bnData.bias id c))
        simp only [affineConv] at hcomposes
        rw [← hfold]
        exact hcomposes

end Cnn.Proof
