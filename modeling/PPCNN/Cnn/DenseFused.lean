import PPCNN.Cnn.Proof.Fuse
import Mathlib.RingTheory.SimpleRing.DivisionRing

/-!
# A fused dense layer (`buildDenseFusedBN`)

`buildDenseFusedBN` opens the group of the dense layer under the name of the fused layer. So the fused
layer is the dense layer and the batch normalisation after it only if the file has the weights there as
well (`denseFusedBN_iff`).
-/

set_option autoImplicit false

namespace Cnn.Proof

open Lib Keras

variable {K V : Type} [Field K] [CommRing V] [Algebra K V]

/-! ## Forward -/

/-- The dense layer with a weight and a shift for each unit. -/
def affineDense (l : Dense K) (name : String) (weight shift : ℕ → K) : Dense K :=
  { l with
    name
    plainWeights := fun iu ou => l.plainWeights iu ou * weight ou
    plainBiases := fun ou => l.plainBiases ou * weight ou + shift ou }

/-- What `Dense::forward` computes for one unit. -/
def denseUnit (input : List V) {n : ℕ} (plain : Fin n → K) (bias : K) : Except Error V := do
  let out ← (List.finRange n).foldlM (fun out (iu : Fin n) => do
    let weightedUnit ← (Evaluator.exact V).multiplyPlain (← readVector input iu) (plain iu)
    (Evaluator.exact (K := K) V).assignOrAdd (iu.val == 0) out weightedUnit) none
  finishLinear (.exact V) out bias

theorem dense_forward_eq (l : Dense K) (input : List V) :
    l.forward (.exact V) input = List.ofFn <$> seqFin fun ou : Fin l.outUnits =>
      denseUnit input (fun iu => l.plainWeights iu ou) (l.plainBiases ou) := rfl

theorem denseUnit_affine (input : List V) {n : ℕ} (plain : Fin n → K) (bias : K) (weight shift : ℕ → K)
    (ou : ℕ) : denseUnit input (fun iu => plain iu * weight ou) (bias * weight ou + shift ou) =
      affine weight shift ou <$> denseUnit input plain bias := by
  let step : (Fin n → K) → Option V → Fin n → Except Error (Option V) := fun plain out iu => do
    let weightedUnit ← (Evaluator.exact V).multiplyPlain (← readVector input iu) (plain iu)
    (Evaluator.exact (K := K) V).assignOrAdd (iu.val == 0) out weightedUnit
  have hstep : ∀ out iu, step (fun iu => plain iu * weight ou) (out.map fun x => weight ou • x) iu =
      Option.map (fun x => weight ou • x) <$> step plain out iu := by
    intro out iu
    simp only [step]
    cases readVector input iu with
    | error e => rfl
    | ok x =>
      show (Evaluator.exact (K := K) V).assignOrAdd _ _ ((plain iu * weight ou) • x) = _
      rw [mul_comm, ← smul_smul]
      exact assignOrAdd_smul (weight ou) _ out _
  have hfold : (List.finRange n).foldlM (step fun iu => plain iu * weight ou) none =
      Option.map (fun x => weight ou • x) <$> (List.finRange n).foldlM (step plain) none :=
    foldlM_map hstep _ none
  show ((List.finRange n).foldlM (step fun iu => plain iu * weight ou) none >>= fun out =>
    finishLinear (.exact V) out (bias * weight ou + shift ou)) =
      affine weight shift ou <$> ((List.finRange n).foldlM (step plain) none >>=
        fun out => finishLinear (.exact V) out bias)
  rw [hfold]
  cases (List.finRange n).foldlM (step plain) none with
  | error e => rfl
  | ok out => exact finishLinear_affine (weight ou) bias (shift ou) out

/-- The weights and shifts of the units may move into the dense layer. -/
theorem dense_forward_affine (l : Dense K) (name : String) (weight shift : ℕ → K) (input : List V) :
    (affineDense l name weight shift).forward (.exact V) input =
      List.mapIdx (affine weight shift) <$> l.forward (.exact V) input := by
  rw [dense_forward_eq, dense_forward_eq]
  simp only [affineDense, denseUnit_affine]
  rw [seqFin_map (fun ou : Fin l.outUnits =>
    denseUnit input (fun iu => l.plainWeights iu ou) (l.plainBiases ou)) fun ou => affine weight shift ou]
  cases seqFin fun ou : Fin l.outUnits =>
      denseUnit input (fun iu => l.plainWeights iu ou) (l.plainBiases ou) with
  | error e => rfl
  | ok xs => exact congrArg Except.ok (List.ext_getElem (by simp) fun i h1 h2 => by simp)

/-- A batch normalisation with a weight and a bias for each unit. -/
theorem forwardUnits_exact {m : BatchNormalization K} {weight shift : ℕ → K} {u : List V}
    (hw : ∀ i < u.length, readVector m.plainWeights i = .ok (weight i))
    (hb : ∀ i < u.length, readVector m.plainBiases i = .ok (shift i)) :
    m.forwardUnits (.exact V) u = .ok (u.mapIdx (affine weight shift)) := by
  have happly : ∀ i : Fin u.length,
      m.apply (.exact V) i u[i] = .ok (affine weight shift i u[i]) := by
    intro i
    simp [BatchNormalization.apply, hw i i.isLt, hb i i.isLt, Evaluator.exact, affine]
  simp only [BatchNormalization.forwardUnits, happly, seqFin_pure, ok_bind, pure_eq_ok]
  exact congrArg Except.ok (List.ext_getElem (by simp) fun i h1 h2 => by simp)

/-! ## Layers that compute the same -/

/-- The dense layer with this kernel and this bias. -/
def denseOf (name activation : String) (inUnits outUnits : ℕ) (kernel : ℕ → ℕ → K) (bias : ℕ → K) :
    Dense K where
  name
  inUnits
  outUnits
  activation
  plainWeights iu ou := kernel iu ou
  plainBiases ou := bias ou

variable {name name' activation activation' : String} {inUnits outUnits : ℕ}
  {kernel kernel' : ℕ → ℕ → K} {bias bias' : ℕ → K}

theorem denseOf_forward (hpos : 0 < inUnits) {v : List V} (hlen : v.length = inUnits) :
    (denseOf name activation inUnits outUnits kernel bias).forward (.exact V) v =
      .ok (dense outUnits kernel bias v) := by
  have hinput : (exactInterp K V).RepUnits 0 1 v v := List.forall₂_same.2 fun _ _ => rfl
  have hforward : ∃ u, (denseOf name activation inUnits outUnits kernel bias).forward (.exact V) v = .ok u ∧
      (exactInterp K V).RepUnits 1 1 u (dense outUnits kernel bias v) :=
    dense_rep hinput hlen.symm (by omega) (fun _ _ => rfl) (fun _ => rfl) trivial
  obtain ⟨u, hu, hrep⟩ := hforward
  rw [hu, repUnits_exact hrep]

theorem getElem_dense {v : List V} {o : ℕ} (ho : o < outUnits) :
    (dense outUnits kernel bias v)[o]? =
      some ((∑ i ∈ Finset.range v.length, kernel i o • v.getD i 0) + algebraMap K V (bias o)) := by
  simp [dense, ho]

/-- The input of which only unit `i` is not zero, and of `inUnits` none is. -/
def unitInput (V : Type) [CommRing V] (inUnits i : ℕ) : List V :=
  List.ofFn fun j : Fin inUnits => if j.val = i then 1 else 0

theorem sum_unitInput (f : ℕ → K) (i : ℕ) :
    ∑ j ∈ Finset.range (unitInput V inUnits i).length, f j • (unitInput V inUnits i).getD j 0 =
      if i < inUnits then algebraMap K V (f i) else 0 := by
  have hterm : ∀ j ∈ Finset.range inUnits,
      f j • (unitInput V inUnits i).getD j 0 = if j = i then algebraMap K V (f i) else 0 := by
    intro j hj
    have hj := Finset.mem_range.1 hj
    have hget : (unitInput V inUnits i).getD j 0 = if j = i then 1 else 0 := by
      simp [unitInput, List.getD_eq_getElem?_getD, hj]
    rw [hget]
    split
    · rename_i heq
      rw [heq, Algebra.smul_def, mul_one]
    · rw [smul_zero]
  have hlen : (unitInput V inUnits i).length = inUnits := by simp [unitInput]
  simp only [hlen, Finset.sum_congr rfl hterm, Finset.sum_ite_eq', Finset.mem_range]

/-- Two dense layers of the same extents compute the same exactly if their weights agree, or if there is
no input to start a sum with. -/
theorem denseOf_forward_eq_iff [Nontrivial V] :
    (∀ input : List V, (denseOf name activation inUnits outUnits kernel bias).forward (.exact V) input =
      (denseOf name' activation' inUnits outUnits kernel' bias').forward (.exact V) input) ↔
    (inUnits ≠ 0 → ∀ o < outUnits, bias o = bias' o ∧ ∀ i < inUnits, kernel i o = kernel' i o) := by
  constructor
  · intro h hne o ho
    have hpos : 0 < inUnits := Nat.pos_of_ne_zero hne
    have hvalue : ∀ v : List V, v.length = inUnits →
        (∑ i ∈ Finset.range v.length, kernel i o • v.getD i 0) + algebraMap K V (bias o) =
          (∑ i ∈ Finset.range v.length, kernel' i o • v.getD i 0) + algebraMap K V (bias' o) := by
      intro v hv
      have heq := h v
      rw [denseOf_forward hpos hv, denseOf_forward hpos hv] at heq
      have hcell := congrArg (fun u => u[o]?) (Except.ok.inj heq)
      simpa only [getElem_dense ho, Option.some.injEq] using hcell
    have hunit : ∀ i, (if i < inUnits then algebraMap K V (kernel i o) else 0) + algebraMap K V (bias o) =
        (if i < inUnits then algebraMap K V (kernel' i o) else 0) + algebraMap K V (bias' o) := by
      intro i
      have heq := hvalue (unitInput V inUnits i) (by simp [unitInput])
      rwa [sum_unitInput (fun i => kernel i o), sum_unitInput (fun i => kernel' i o)] at heq
    have hbias := hunit inUnits
    rw [if_neg (lt_irrefl _), if_neg (lt_irrefl _), zero_add, zero_add] at hbias
    refine ⟨(algebraMap K V).injective hbias, fun i hi => (algebraMap K V).injective ?_⟩
    have hkernel := hunit i
    rw [if_pos hi, if_pos hi, hbias] at hkernel
    exact add_right_cancel hkernel
  · intro h input
    by_cases hne : inUnits = 0
    · subst hne
      rfl
    · refine congrArg (fun xs => List.ofFn <$> seqFin xs) (funext fun ou : Fin outUnits => ?_)
      obtain ⟨hbias, hkernel⟩ := h hne ou ou.isLt
      have hplain : (fun iu : Fin inUnits => kernel iu ou) = fun iu : Fin inUnits => kernel' iu ou :=
        funext fun iu => hkernel iu iu.isLt
      show denseUnit input (fun iu : Fin inUnits => kernel iu ou) (bias ou) =
        denseUnit input (fun iu : Fin inUnits => kernel' iu ou) (bias' ou)
      rw [hplain, hbias]

/-! ## The builders -/

/-- A data set of at most `n` elements is in the file. -/
def DataFits (file : H5File K) (path key : String) (n : ℕ) : Prop :=
  ∃ group ds, file path = some group ∧ group key = some ds ∧ ds.length ≤ n

/-- `layer_name` of a fused layer. -/
def fusedName (dense bn : String) : String := dense ++ "-fused-with-" ++ bn

variable [LinearOrder K] {file : H5File K} {info : DenseInfo} {bn : String} {A : IntArith} {c : Define K}
  {st st1 st2 : BuildState K} {l : Dense K} {m : BatchNormalization K}

/-- What `buildDenseFusedBN` reads. -/
structure FusedReads (file : H5File K) (info : DenseInfo) (bn : String) (inUnits : ℕ) : Prop where
  kernel : DataFits file (groupPath info.name (fusedName info.name bn)) kernelKey (inUnits * info.units)
  bias : DataFits file (groupPath info.name (fusedName info.name bn)) biasKey info.units
  beta : DataFits file (groupPath bn bn) betaKey info.units
  gamma : DataFits file (groupPath bn bn) gammaKey info.units
  movingMean : DataFits file (groupPath bn bn) movingMeanKey info.units
  movingVariance : DataFits file (groupPath bn bn) movingVarianceKey info.units

omit [LinearOrder K] in
theorem DataFits.read {path key : String} {n : ℕ} (h : DataFits file path key n) {group : DataSets K}
    (hgroup : file path = some group) :
    ∃ ds f, group.openDataSet key = .ok ds ∧ readBuffer ds n = .ok f := by
  obtain ⟨group', ds, hgroup', hds, hlen⟩ := h
  obtain rfl := Option.some.inj (hgroup'.symm.trans hgroup)
  exact ⟨ds, _, DataSets.openDataSet_eq_ok.2 hds, readBuffer_eq_ok.2 ⟨hlen, rfl⟩⟩

omit [LinearOrder K] in
theorem dataFits_of_read {path key : String} {n : ℕ} {group : DataSets K} {ds : List K} {f : ℕ → K}
    (hgroup : file.openGroup path = .ok group) (hds : group.openDataSet key = .ok ds)
    (hread : readBuffer ds n = .ok f) : DataFits file path key n :=
  ⟨group, ds, H5File.openGroup_eq_ok.1 hgroup, DataSets.openDataSet_eq_ok.1 hds,
    (readBuffer_eq_ok.1 hread).1⟩

/-- The fused builder succeeds exactly if it can read its data. -/
theorem succeeds_buildDenseFusedBN :
    Succeeds (buildDenseFusedBN ⟨.exact V, A, c⟩ file info bn st) ↔
      FusedReads file info bn st.next.inUnits := by
  constructor
  · rintro ⟨⟨layer, st'⟩, h⟩
    simp only [buildDenseFusedBN, BnData.read, bind_eq_ok, pure_eq_ok, Except.ok.injEq] at h
    obtain ⟨group, hg, bgroup, hbg, kds, hk, bds, hb, f, hf, b, hb', bn, ⟨ds1, h1, ds2, h2, ds3, h3, ds4,
      h4, f1, hf1, f2, hf2, f3, hf3, f4, hf4, -⟩, -⟩ := h
    exact ⟨dataFits_of_read hg hk hf, dataFits_of_read hg hb hb', dataFits_of_read hbg h1 hf1,
      dataFits_of_read hbg h2 hf2, dataFits_of_read hbg h3 hf3, dataFits_of_read hbg h4 hf4⟩
  · intro h
    obtain ⟨group, -, hgroup, -⟩ := h.kernel
    obtain ⟨bgroup, -, hbgroup, -⟩ := h.beta
    obtain ⟨kds, f, hk, hf⟩ := h.kernel.read hgroup
    obtain ⟨bds, b, hb, hb'⟩ := h.bias.read hgroup
    obtain ⟨ds1, f1, h1, hf1⟩ := h.beta.read hbgroup
    obtain ⟨ds2, f2, h2, hf2⟩ := h.gamma.read hbgroup
    obtain ⟨ds3, f3, h3, hf3⟩ := h.movingMean.read hbgroup
    obtain ⟨ds4, f4, h4, hf4⟩ := h.movingVariance.read hbgroup
    have hbn : BnData.read bgroup info.units = .ok ⟨f1, f2, f3, f4⟩ := by
      simp only [BnData.read, h1, h2, h3, h4, hf1, hf2, hf3, hf4, ok_bind, pure_eq_ok]
    simp only [fusedName] at hgroup
    simp only [buildDenseFusedBN, H5File.openGroup_eq_ok.2 hgroup, H5File.openGroup_eq_ok.2 hbgroup, hk, hb,
      hf, hb', hbn, ok_bind, encodeAt_exact, seqFin_pure, pure_eq_ok]
    exact succeeds_ok _

omit [LinearOrder K] in
/-- A built dense layer in exact arithmetic. -/
theorem DenseBuilt.exact {kernel : ℕ → ℕ → K} {bias : ℕ → K}
    (h : DenseBuilt ⟨.exact V, A, c⟩ st info kernel bias l st1) :
    l = denseOf l.name l.activation st.next.inUnits info.units kernel bias := by
  obtain ⟨name, inUnits, outUnits, activation, plainWeights, plainBiases⟩ := l
  obtain ⟨hin, hout, hweights, hbiases, -⟩ := h
  dsimp only at hin hout hweights hbiases
  subst hin hout
  simp only [encodeAt_exact, Except.ok.injEq] at hweights hbiases
  rw [denseOf]
  congr
  · funext i o
    exact (hweights i o).symm
  · funext o
    exact (hbiases o).symm

omit [LinearOrder K] in
/-- The dense layer and then the batch normalisation, as one dense layer. -/
theorem forward_bn {weight shift : ℕ → K}
    (hw : ∀ i < l.outUnits, readVector m.plainWeights i = .ok (weight i))
    (hb : ∀ i < l.outUnits, readVector m.plainBiases i = .ok (shift i)) (name : String) (input : List V) :
    (do m.forwardUnits (.exact V) (← l.forward (.exact V) input)) =
      (affineDense l name weight shift).forward (.exact V) input := by
  rw [dense_forward_affine]
  cases hforward : l.forward (.exact V) input with
  | error e => rfl
  | ok u =>
    have hlen : u.length = l.outUnits := by
      obtain ⟨xs, -, hu⟩ := bind_eq_ok.1 hforward
      cases hu
      simp
    exact forwardUnits_exact (by rwa [hlen]) (by rwa [hlen])

section Builders

variable [IsStrictOrderedRing K] (hε : c.epsilon = 0)

include hε

/-- The layers that are built apart. -/
theorem forward_apart (hdense : buildDense ⟨.exact V, A, c⟩ file info st = .ok (.dense l, st1))
    (hbn : buildBatchNormalization ⟨.exact V, A, c⟩ file bn st1 = .ok (.batchNormalization m, st2)) :
    (∀ input : List V, (do m.forwardUnits (.exact V) (← l.forward (.exact V) input)) =
      (denseOf bn l.activation st.next.inUnits info.units
        (fun i o => st.option.takeFolding.1 * denseKernel file (groupPath info.name info.name) info i o *
          (bnData file (groupPath bn bn)).weight id c o)
        (fun o => data file (groupPath info.name info.name) biasKey o *
          (bnData file (groupPath bn bn)).weight id c o + (bnData file (groupPath bn bn)).bias id c o)).forward
        (.exact V) input) ∧ st2.next.inUnits = info.units := by
  obtain ⟨l0, hl0, hbuilt⟩ := buildDense_ok hdense
  cases hl0
  obtain ⟨m0, hm0, hw, hb, hst2⟩ := buildBatchNormalization_ok hbn
  cases hm0
  have hunits := hbuilt.outUnits
  have hnext : st1.next.inUnits = info.units := by rw [hbuilt.state, ← hunits]
  have hread : ∀ {v : List K} {f : ℕ → K}, (∀ i < st1.next.bnDim, ∃ p, readVector v i = .ok p ∧
      .ok (f i) = (.ok p : Except Error K)) → ∀ i < l.outUnits, readVector v i = .ok (f i) := by
    intro v f h i hi
    rw [hunits] at hi
    obtain ⟨p, hp, he⟩ := h i (by rw [NextLayer.bnDim, hnext, if_pos (by omega)]; exact hi)
    rw [hp, ← he]
  simp only [encodeAt_exact] at hw hb
  refine ⟨fun input => ?_, by rw [hst2]; exact hnext⟩
  rw [forward_bn (hread hw) (hread hb) bn]
  have hexact := hbuilt.exact
  simp only [clampWeight_zero hε] at hexact
  rw [hexact]
  rfl

/-- The fused layer. -/
theorem forward_fused {layer : Layer K} {st' : BuildState K}
    (h : buildDenseFusedBN ⟨.exact V, A, c⟩ file info bn st = .ok (layer, st')) :
    ∃ l', layer = .dense l' ∧ (∀ input : List V, l'.forward (.exact V) input =
      (denseOf l'.name l'.activation st.next.inUnits info.units
        (fun i o => st.option.takeFolding.1 *
          denseKernel file (groupPath info.name (fusedName info.name bn)) info i o *
          (bnData file (groupPath bn bn)).weight id c o)
        (fun o => data file (groupPath info.name (fusedName info.name bn)) biasKey o *
          (bnData file (groupPath bn bn)).weight id c o + (bnData file (groupPath bn bn)).bias id c o)).forward
        (.exact V) input) ∧ st'.next.inUnits = info.units := by
  obtain ⟨l', hl', hbuilt⟩ := buildDenseFusedBN_ok h
  have hexact := hbuilt.exact
  simp only [clampWeight_zero hε] at hexact
  refine ⟨l', hl', fun input => ?_, by rw [hbuilt.state, ← hbuilt.outUnits]⟩
  rw [hexact]
  rfl

end Builders

/-- The fused builder reads, under the name of the fused layer, the weights of the dense layer, wherever
the weight of the batch normalisation lets them through. -/
structure FusedAgrees (c : Define K) (file : H5File K) (info : DenseInfo) (bn : String)
    (st : BuildState K) : Prop where
  reads : FusedReads file info bn st.next.inUnits
  bias_eq : st.next.inUnits ≠ 0 → ∀ ou < info.units, (bnData file (groupPath bn bn)).weight id c ou ≠ 0 →
    data file (groupPath info.name (fusedName info.name bn)) biasKey ou =
      data file (groupPath info.name info.name) biasKey ou
  kernel_eq : st.option.takeFolding.1 ≠ 0 → ∀ iu < st.next.inUnits, ∀ ou < info.units,
    (bnData file (groupPath bn bn)).weight id c ou ≠ 0 →
    denseKernel file (groupPath info.name (fusedName info.name bn)) info iu ou =
      denseKernel file (groupPath info.name info.name) info iu ou

/-- Factors that are zero hide what they multiply. -/
theorem scaled_eq_iff {f k k' w : K} : f * k * w = f * k' * w ↔ (f ≠ 0 → w ≠ 0 → k = k') := by
  rw [mul_eq_mul_right_iff, mul_eq_mul_left_iff]
  tauto

/-- For a dense layer and a batch normalisation that can be built apart, the fused layer can be built and
computes what the two compute exactly if its own group has the same weights. -/
theorem denseFusedBN_iff [Nontrivial V] [IsStrictOrderedRing K] (A : IntArith) {c : Define K}
    (hε : c.epsilon = 0) {file : H5File K} {info : DenseInfo} {bn : String} {st st1 st2 : BuildState K}
    {l : Dense K} {m : BatchNormalization K}
    (hdense : buildDense ⟨.exact V, A, c⟩ file info st = .ok (.dense l, st1))
    (hbn : buildBatchNormalization ⟨.exact V, A, c⟩ file bn st1 = .ok (.batchNormalization m, st2)) :
    (∃ l' st', buildDenseFusedBN ⟨.exact V, A, c⟩ file info bn st = .ok (.dense l', st') ∧
      (∀ input : List V, l'.forward (.exact V) input = (do
        m.forwardUnits (.exact V) (← l.forward (.exact V) input))) ∧
      st'.next.inUnits = st2.next.inUnits) ↔ FusedAgrees c file info bn st := by
  obtain ⟨hapart, hunits⟩ := forward_apart hε hdense hbn
  constructor
  · rintro ⟨l', st', hfused, hsame, -⟩
    obtain ⟨l0, hl0, hforward, -⟩ := forward_fused hε hfused
    cases hl0
    have hagree := denseOf_forward_eq_iff.1 fun input =>
      (hforward input).symm.trans ((hsame input).trans (hapart input))
    refine ⟨succeeds_buildDenseFusedBN.1 ⟨_, hfused⟩, fun hne ou hou hw => ?_, fun hf iu hiu ou hou hw => ?_⟩
    · have hbias := (hagree hne ou hou).1
      rwa [add_left_inj, mul_eq_mul_right_iff, or_iff_left hw] at hbias
    · exact scaled_eq_iff.1 ((hagree (by omega) ou hou).2 iu hiu) hf hw
  · intro h
    obtain ⟨⟨layer, st'⟩, hfused⟩ := (succeeds_buildDenseFusedBN (V := V) (A := A)).2 h.reads
    obtain ⟨l', rfl, hforward, hunits'⟩ := forward_fused hε hfused
    refine ⟨l', st', hfused, fun input => ?_, hunits'.trans hunits.symm⟩
    rw [hforward, hapart]
    refine denseOf_forward_eq_iff.2 (fun hne ou hou => ⟨?_, fun iu hiu => ?_⟩) input
    · rw [add_left_inj, mul_eq_mul_right_iff, or_iff_not_imp_right]
      exact h.bias_eq hne ou hou
    · exact scaled_eq_iff.2 fun hf hw => h.kernel_eq hf iu hiu ou hou hw

/-- One unit, with the weights of the dense layer also under `fused` if there is such a name. -/
def denseBnFile (fused : Option String) : H5File ℚ := fun path =>
  if path = "/dense/dense" ∨ some path = fused then some fun key =>
    if key = kernelKey then some [2] else if key = biasKey then some [1] else none
  else if path = "/bn/bn" then some fun key =>
    if key = betaKey then some [1] else if key = gammaKey then some [3]
    else if key = movingMeanKey then some [1] else if key = movingVarianceKey then some [4] else none
  else none

def oneUnit : BuildState ℚ := ⟨⟨0, 0, 0, 1⟩, .new .fuseLayers .default⟩

def denseBnEnv : Env ℚ ℚ ℚ :=
  ⟨.exact ℚ, .lp64, { (Define.source fun x => x) with epsilon := 0 }⟩

/-- The weights file of a Keras model has no group with the name of the fused layer. -/
theorem denseFusedBN_iff_differs :
    ∃ first second, buildDense denseBnEnv (denseBnFile none) ⟨"dense", 1, "linear"⟩ oneUnit = .ok first ∧
      buildBatchNormalization denseBnEnv (denseBnFile none) "bn" first.2 = .ok second ∧
      buildDenseFusedBN denseBnEnv (denseBnFile none) ⟨"dense", 1, "linear"⟩ "bn" oneUnit =
        .error (.h5 "/dense/dense-fused-with-bn") :=
  ⟨_, _, rfl, rfl, rfl⟩

theorem denseFusedBN_iff_sample :
    ∃ l st1 m st2,
      (buildDense denseBnEnv (denseBnFile (some "/dense/dense-fused-with-bn")) ⟨"dense", 1, "linear"⟩
          oneUnit = .ok (.dense l, st1) ∧
        buildBatchNormalization denseBnEnv (denseBnFile (some "/dense/dense-fused-with-bn")) "bn" st1 =
          .ok (.batchNormalization m, st2)) ∧
      ∃ l' st', buildDenseFusedBN denseBnEnv (denseBnFile (some "/dense/dense-fused-with-bn"))
          ⟨"dense", 1, "linear"⟩ "bn" oneUnit = .ok (.dense l', st') ∧
        ∀ input : List ℚ, l'.forward (.exact ℚ) input = (do
          m.forwardUnits (.exact ℚ) (← l.forward (.exact ℚ) input)) := by
  obtain ⟨l, st1, m, st2, hdense, hbn⟩ : ∃ l st1 m st2,
      buildDense denseBnEnv (denseBnFile (some "/dense/dense-fused-with-bn")) ⟨"dense", 1, "linear"⟩
          oneUnit = .ok (.dense l, st1) ∧
        buildBatchNormalization denseBnEnv (denseBnFile (some "/dense/dense-fused-with-bn")) "bn" st1 =
          .ok (.batchNormalization m, st2) := ⟨_, _, _, _, rfl, rfl⟩
  have hdata : ∀ path key ds, (denseBnFile (some "/dense/dense-fused-with-bn") path).bind
      (fun group => group key) = some [ds] → DataFits (denseBnFile (some "/dense/dense-fused-with-bn"))
        path key 1 := by
    intro path key ds h
    obtain ⟨group, hgroup, hkey⟩ := Option.bind_eq_some_iff.1 h
    exact ⟨group, _, hgroup, hkey, le_rfl⟩
  obtain ⟨l', st', hfused, hsame, -⟩ := (denseFusedBN_iff .lp64 rfl hdense hbn).2
    ⟨⟨hdata _ _ 2 rfl, hdata _ _ 1 rfl, hdata _ _ 1 rfl, hdata _ _ 3 rfl, hdata _ _ 1 rfl, hdata _ _ 4 rfl⟩,
      fun _ _ _ _ => rfl, fun _ _ _ _ _ _ => rfl⟩
  exact ⟨l, st1, m, st2, ⟨hdense, hbn⟩, l', st', hfused, hsame⟩

end Cnn.Proof
