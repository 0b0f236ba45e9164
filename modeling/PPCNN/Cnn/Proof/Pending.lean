import PPCNN.Cnn.Proof.Network

/-!
# Pending factors

The optimisations defer factors: the leading coefficient of an activation and the divisor of a
pooling wait in the option until a linear layer takes them into its weights. The invariant is

    true value = pending factor • stored value

where the true value is the one of the model under `effective`, the semantics the flags give to
activations and global averages. `stored_pending` is the step, `storedRun_pending` the run; the
steps that would break the invariant are excluded by `SafeCall`.
-/

set_option autoImplicit false

namespace Cnn.Proof

open Lib Keras
open Finset (range)

variable {K V : Type} [Field K]

/-! ## The factors of an option -/

def coeffPart (o : OptOption K) : K :=
  if o.enableOptimizeActivation && o.shouldMultiplyCoeff then o.highestDegCoeff else 1

def poolPart (o : OptOption K) : K :=
  if o.enableOptimizePooling && o.shouldMultiplyPool then o.currentPoolingMulFactor else 1

/-- The factor that is still to be multiplied into a later layer. -/
def pending (o : OptOption K) : K := coeffPart o * poolPart o

/-- A linear builder folds exactly the pending factor, and leaves none. -/
theorem takeFolding_fst (o : OptOption K) : o.takeFolding.1 = pending o := by
  unfold OptOption.takeFolding pending coeffPart poolPart
  cases o.enableOptimizeActivation <;> cases o.shouldMultiplyCoeff <;>
    cases o.enableOptimizePooling <;> cases o.shouldMultiplyPool <;> simp

theorem parts_takeFolding (o : OptOption K) :
    coeffPart o.takeFolding.2 = 1 ∧ poolPart o.takeFolding.2 = 1 := by
  unfold OptOption.takeFolding coeffPart poolPart
  cases h1 : o.enableOptimizeActivation <;> cases h2 : o.shouldMultiplyCoeff <;>
    cases h3 : o.enableOptimizePooling <;> cases h4 : o.shouldMultiplyPool <;> simp [h1, h2, h3, h4]

@[simp] theorem coeffPart_descend (o : OptOption K) (n : ℕ) :
    coeffPart (descend o n) = coeffPart o := rfl
@[simp] theorem poolPart_descend (o : OptOption K) (n : ℕ) : poolPart (descend o n) = poolPart o := rfl
@[simp] theorem pending_descend (o : OptOption K) (n : ℕ) : pending (descend o n) = pending o := rfl

theorem pending_takeFolding (o : OptOption K) : pending o.takeFolding.2 = 1 := by
  obtain ⟨h1, h2⟩ := parts_takeFolding o
  rw [pending, h1, h2, one_mul]

theorem coeffPart_one {o : OptOption K} (h : o.enableOptimizeActivation = false) :
    coeffPart o = 1 := by
  rw [coeffPart, h, Bool.false_and]
  rfl

/-! ## The model a network computes -/

variable [LinearOrder K] [CommRing V] [Algebra K V] (c : Define K) (file : H5File K)

/-- The semantics the flags give to activations and global averages: an optimised activation is
completed by the coefficient that the option holds, and a global average is divided only if pooling
is optimised. -/
def effective (o : OptOption K) : Semantics K V where
  samePad := samePadAxis
  activation activation x :=
    if o.enableOptimizeActivation then o.highestDegCoeff • storedActivation c o activation x
    else storedActivation c o activation x
  average n := if o.enableOptimizePooling then 1 / (n : K) else 1

variable (V) in
/-- The reference with the padding of the program, which is the one of Keras where no stride exceeds
its window (`windows_samePadAxis`). -/
def reference : Semantics K V := { Semantics.keras V c with samePad := samePadAxis }

/-- The value of the layers of a call in the model. -/
def callValue (sem : Semantics K V) : BuildCall → Value V → Value V
  | .single l, v => layer c sem file l v
  | .conv2DFusedBN info bn, v =>
    layer c sem file (.batchNormalization bn) (layer c sem file (.conv2D info) v)
  | .denseFusedBN info bn, v =>
    layer c sem file (.batchNormalization bn) (layer c sem file (.dense info) v)

/-- A call that keeps the invariant. A pooling overwrites a pooling factor that waits; a batch
normalisation and an activation are not linear. A fused `Dense` reads its weights under the name of
the fused layer. -/
def SafeCall (o : OptOption K) : BuildCall → Prop
  | .single (.averagePooling2D _) => o.enableOptimizePooling = true → poolPart o = 1
  | .single (.batchNormalization _) | .single (.activation _ _) =>
    coeffPart o = 1 ∧ poolPart o = 1
  | .denseFusedBN _ _ => False
  | _ => True

/-- No folded weight of a call is below `EPSILON` in magnitude. -/
def Unclamped (o : OptOption K) : BuildCall → Shape → Prop
  | .single (.conv2D info), .image _ _ n =>
    ∀ i < info.kernelSize.1, ∀ j < info.kernelSize.2, ∀ ic < n, ∀ oc < info.filters,
      c.epsilon ≤ |foldedConv c file id o info none n i j ic oc|
  | .conv2DFusedBN info bn, .image _ _ n =>
    ∀ i < info.kernelSize.1, ∀ j < info.kernelSize.2, ∀ ic < n, ∀ oc < info.filters,
      c.epsilon ≤ |foldedConv c file id o info (some bn) n i j ic oc|
  | .single (.dense info), .units n =>
    ∀ i < n, ∀ ou < info.units, c.epsilon ≤ |foldedDense c file id o info none i ou|
  | _, _ => True

variable {c file} {o : OptOption K} {call : BuildCall}

theorem clampWeight_eq {weight : K} (h : c.epsilon ≤ |weight|) : clampWeight c weight = weight :=
  if_neg (not_lt.2 h)

theorem clampWeight_zero [IsOrderedAddMonoid K] (h : c.epsilon = 0) (weight : K) :
    clampWeight c weight = weight :=
  clampWeight_eq (h.trans_le (abs_nonneg weight))

omit [LinearOrder K] in
theorem effective_congr {o o' : OptOption K} (h : SameFlags o o') :
    effective (V := V) c o = effective c o' := by
  unfold effective storedActivation swishTable
  rw [h.optimizeActivation, h.optimizePooling, h.activation, h.highestDegCoeff]

/-! ## One call -/

omit [LinearOrder K] in
/-- A convolution takes the factor that waits on its input into its kernel. -/
theorem convImage_pending {info : Conv2DInfo} {t : Tensor3 V} {s : Shape} {f : K}
    {kernel folded : ℕ → ℕ → ℕ → ℕ → ℕ → K} {bias : ℕ → K}
    (hs : outShape (.conv2D info) (Value.image t).shape = some s)
    (hk : ∀ i < info.kernelSize.1, ∀ j < info.kernelSize.2, ∀ ic < t.channels, ∀ oc < info.filters,
      f * kernel t.channels i j ic oc = folded t.channels i j ic oc) (pad : SamePad) :
    convImage pad info kernel bias (scale f t) = convImage pad info folded bias t := by
  obtain ⟨oh, ow, hoh, how, -, -, -⟩ := outShape_conv2D hs
  obtain ⟨win, hwin, heq, -, -⟩ := onWindows_eq hoh how pad
    fun win t => win.conv2D info.filters (folded t.channels) bias t
  obtain ⟨-, -, hsize, -⟩ := windows_eq_some.1 hwin
  have heq' : convImage pad info kernel bias (scale f t) =
      win.conv2D info.filters (kernel t.channels) bias (scale f t) := by
    simp only [convImage, onWindows, scale_height, scale_width, hwin, scale_channels]
  rw [heq', convImage, heq, Windows.conv2D_smul]
  exact Windows.conv2D_congr (hsize ▸ hk)

omit [LinearOrder K] in
theorem affine_convImage {info : Conv2DInfo} {t : Tensor3 V} {s : Shape}
    (hs : outShape (.conv2D info) (Value.image t).shape = some s) (pad : SamePad)
    (kernel : ℕ → ℕ → ℕ → ℕ → ℕ → K) (bias weight shift : ℕ → K) :
    (convImage pad info kernel bias t).mapChannels (affine weight shift) =
      convImage pad info (fun n i j ic oc => kernel n i j ic oc * weight oc)
        (fun oc => bias oc * weight oc + shift oc) t := by
  obtain ⟨oh, ow, hoh, how, -, -, -⟩ := outShape_conv2D hs
  obtain ⟨win, hwin, -, -, -⟩ := windows_of_outSize hoh how pad
  simp only [convImage, onWindows, hwin]
  exact win.conv2D_affine _ _ _ _ _ t

theorem conv2D_pending {info : Conv2DInfo} {t : Tensor3 V} {s : Shape}
    (hs : outShape (.conv2D info) (Value.image t).shape = some s)
    (hu : Unclamped c file o (.single (.conv2D info)) (Value.image t).shape) :
    callValue c file (effective c o) (.single (.conv2D info)) ((Value.image t).scale (pending o)) =
      stored c file o (.single (.conv2D info)) (.image t) := by
  refine congrArg Value.image (convImage_pending hs (fun i hi j hj ic hic oc hoc => ?_) _)
  rw [clampWeight_eq (hu i hi j hj ic hic oc hoc), foldedConv_single, takeFolding_fst]

theorem conv2DFusedBN_pending {info : Conv2DInfo} {bn : String} {t : Tensor3 V} {s : Shape}
    (hs : outShape (.conv2D info) (Value.image t).shape = some s)
    (hu : Unclamped c file o (.conv2DFusedBN info bn) (Value.image t).shape) :
    callValue c file (effective c o) (.conv2DFusedBN info bn) ((Value.image t).scale (pending o)) =
      stored c file o (.conv2DFusedBN info bn) (.image t) := by
  let bnd := bnData file (groupPath bn bn)
  have hbn : callValue c file (effective c o) (.conv2DFusedBN info bn)
      ((Value.image t).scale (pending o)) =
      .image ((convImage samePadAxis info (convKernel file (groupPath info.name info.name) info)
        (data file (groupPath info.name info.name) biasKey) (scale (pending o) t)).mapChannels
          (affine (bnd.weight id c) (bnd.bias id c))) := by
    rw [← batchNorm_eq]
    rfl
  rw [hbn, affine_convImage (t := scale (pending o) t) hs]
  refine congrArg Value.image (convImage_pending hs (fun i hi j hj ic hic oc hoc => ?_) _)
  rw [clampWeight_eq (hu i hi j hj ic hic oc hoc), foldedConv_fused, takeFolding_fst, mul_assoc]

theorem dense_pending {info : DenseInfo} {u : List V}
    (hu : Unclamped c file o (.single (.dense info)) (Value.units u).shape) :
    callValue c file (effective c o) (.single (.dense info)) ((Value.units u).scale (pending o)) =
      stored c file o (.single (.dense info)) (.units u) := by
  refine congrArg Value.units ((dense_smul _ _ _ _ u).trans (dense_congr fun i hi ou hou => ?_))
  rw [clampWeight_eq (hu i hi ou hou), foldedDense_single, takeFolding_fst]

omit [LinearOrder K] in
/-- Both ways to divide a window sum: by the option, or by the factor of the layer. -/
theorem pool_pending {info : AveragePooling2DInfo} (hsafe : SafeCall o (.single (.averagePooling2D info))) (s : Shape) :
    (if o.enableOptimizePooling then 1 else poolFactor id o info) *
      pending (optionAfter id o s (.single (.averagePooling2D info))) =
      1 / ((info.poolSize.1 * info.poolSize.2 : ℕ) : K) * pending o := by
  simp only [optionAfter, poolFactor]
  cases hpool : o.enableOptimizePooling with
  | true =>
    rw [pending, pending, hsafe hpool]
    simp [coeffPart, poolPart, mul_comm]
  | false =>
    cases hact : (o.enableOptimizeActivation && o.shouldMultiplyCoeff) with
    | true => simp [descend, pending, coeffPart, poolPart, hpool, hact, div_eq_inv_mul]
    | false => simp [descend, pending, coeffPart, poolPart, hpool, hact]

theorem averagePooling2D_pending {info : AveragePooling2DInfo} {t : Tensor3 V} {s : Shape}
    (hs : outShape (.averagePooling2D info) (Value.image t).shape = some s)
    (hvalid : info.padding = "valid") (hsafe : SafeCall o (.single (.averagePooling2D info)))
    (s' : Shape) : callValue c file (effective c o) (.single (.averagePooling2D info))
        ((Value.image t).scale (pending o)) =
      (stored c file o (.single (.averagePooling2D info)) (.image t)).scale
        (pending (optionAfter id o s' (.single (.averagePooling2D info)))) := by
  obtain ⟨oh, ow, hoh, how, -⟩ := outShape_averagePooling2D hs
  obtain ⟨win, hwin, -, -⟩ := windows_of_outSize hoh how samePadAxis
  have hmodel : callValue c file (effective c o) (.single (.averagePooling2D info))
      ((Value.image t).scale (pending o)) =
      .image (scale (1 / ((info.poolSize.1 * info.poolSize.2 : ℕ) : K) * pending o)
        (win.windowSum t)) := by
    have hwindows : windows samePadAxis "valid" (scale (pending o) t).height
        (scale (pending o) t).width info.poolSize info.strides = some win := by
      rw [scale_height, scale_width, ← hvalid, hwin]
    rw [← scale_scale, ← Windows.windowSum_smul, ← Windows.averagePool_valid hwindows]
    refine congrArg Value.image ?_
    show onWindows samePadAxis info.padding info.poolSize info.strides _ (scale (pending o) t) = _
    rw [onWindows, scale_height, scale_width, hwin]
  have hstored : stored c file o (.single (.averagePooling2D info)) (.image t) =
      .image (scale (if o.enableOptimizePooling then 1 else poolFactor id o info) (win.windowSum t)) := by
    simp only [stored, poolImage, onWindows, hwin]
    split <;> simp
  rw [hmodel, hstored, ← pool_pending hsafe s', mul_comm, ← scale_scale]
  rfl

theorem activation_pending {name activation : String} {v : Value V} (s : Shape)
    (hsafe : SafeCall o (.single (.activation name activation))) :
    callValue c file (effective c o) (.single (.activation name activation)) (v.scale (pending o)) =
      (stored c file o (.single (.activation name activation)) v).scale
        (pending (optionAfter id o s (.single (.activation name activation)))) := by
  obtain ⟨hcoeff, hpool⟩ := hsafe
  rw [pending, hcoeff, hpool, one_mul, Value.scale_one]
  cases hact : o.enableOptimizeActivation with
  | true =>
    have hp : pending (optionAfter id o s (.single (.activation name activation))) =
        o.highestDegCoeff := by
      rw [optionAfter, if_pos hact, pending_descend, pending]
      have hc : coeffPart { o with shouldMultiplyCoeff := true } = o.highestDegCoeff := by
        simp [coeffPart, hact]
      rw [hc]
      exact (congrArg _ hpool).trans (mul_one _)
    rw [hp]
    cases v <;> simp [callValue, layer, stored, effective, hact, Value.map, Value.scale,
      Tensor3.map_map, Function.comp_def]
  | false =>
    have hp : pending (optionAfter id o s (.single (.activation name activation))) = 1 := by
      rw [optionAfter, if_neg (by simp [hact]), pending_descend, pending, hcoeff, hpool, one_mul]
    rw [hp, Value.scale_one]
    simp [callValue, layer, stored, effective, hact]

omit [LinearOrder K] in
theorem globalAveragePooling2D_pending {name : String} (t : Tensor3 V) :
    callValue c file (effective c o) (.single (.globalAveragePooling2D name))
        ((Value.image t).scale (pending o)) =
      (Value.units (channelSum t)).scale
        (pending (optionAfter id o (Value.image t).shape (.single (.globalAveragePooling2D name)))) := by
  have hp : pending (optionAfter id o (Value.image t).shape (.single (.globalAveragePooling2D name))) =
      (effective (V := V) c o).average (t.height * t.width) * pending o := by
    have hcoeff : coeffPart (optionAfter id o (Value.image t).shape
        (.single (.globalAveragePooling2D name))) = coeffPart o := rfl
    have hpool : poolPart (optionAfter id o (Value.image t).shape
        (.single (.globalAveragePooling2D name))) =
        (effective (V := V) c o).average (t.height * t.width) * poolPart o := by
      obtain ⟨_, _, pool, _, multiply, _, _, _, _⟩ := o
      cases pool <;> cases multiply <;> simp [optionAfter, Value.shape, effective, poolPart, mul_comm]
    rw [pending, pending, hcoeff, hpool, mul_left_comm]
  rw [hp]
  refine congrArg Value.units ?_
  show scaleUnits ((effective c o).average (t.height * t.width)) (channelSum (scale (pending o) t)) =
    scaleUnits _ (channelSum t)
  rw [channelSum_smul, scaleUnits_scaleUnits]

/-- The invariant is kept: the factor that waits on the input, put through the layer of the model,
is the factor that waits on the output of the built layer. -/
theorem stored_pending {v : Value V} {s : Shape} (hs : callShape call v.shape = some s)
    (hvalid : CallValid call) (hsafe : SafeCall o call) (hu : Unclamped c file o call v.shape) :
    callValue c file (effective c o) call (v.scale (pending o)) =
      (stored c file o call v).scale (pending (optionAfter id o v.shape call)) := by
  have hlinear : pending (descend o.takeFolding.2 1) = 1 := pending_takeFolding o
  cases call with
  | conv2DFusedBN info bn =>
    cases v with
    | image t => rw [conv2DFusedBN_pending hs hu, optionAfter, hlinear, Value.scale_one]
    | units u => cases hs
  | denseFusedBN info bn => exact absurd hsafe id
  | single l =>
    cases l with
    | conv2D info =>
      cases v with
      | image t => rw [conv2D_pending hs hu, optionAfter, hlinear, Value.scale_one]
      | units u => cases hs
    | averagePooling2D info =>
      cases v with
      | image t =>
        exact averagePooling2D_pending hs hvalid hsafe _
      | units u => cases hs
    | batchNormalization name =>
      obtain ⟨hcoeff, hpool⟩ := hsafe
      have hp : pending o = 1 := by rw [pending, hcoeff, hpool, one_mul]
      rw [optionAfter, pending_descend, hp, Value.scale_one, Value.scale_one, callValue, layer,
        batchNorm_eq, stored]
    | flatten name =>
      cases v with
      | image t => exact congrArg Value.units (toUnits_scale _ t)
      | units u => cases hs
    | dense info =>
      cases v with
      | image t => cases hs
      | units u => rw [dense_pending hu, optionAfter, hlinear, Value.scale_one]
    | activation name activation => exact activation_pending _ hsafe
    | globalAveragePooling2D name =>
      cases v with
      | image t => exact globalAveragePooling2D_pending t
      | units u => cases hs
    | other className => cases v <;> cases hs

/-! ## Runs -/

variable (c file) in
def callRun (sem : Semantics K V) (calls : List BuildCall) (v : Value V) : Value V :=
  calls.foldl (fun v call => callValue c file sem call v) v

/-- A property of every call, with the option and the shape the call finds. -/
def Along (P : OptOption K → BuildCall → Shape → Prop) : OptOption K → List BuildCall → Shape → Prop
  | _, [], _ => True
  | o, call :: calls, s =>
    P o call s ∧ ∀ s', callShape call s = some s' → Along P (optionAfter id o s call) calls s'

def SafeCalls (o : OptOption K) (calls : List BuildCall) (s : Shape) : Prop :=
  Along (fun o call _ => SafeCall o call) o calls s

omit [LinearOrder K] in
theorem along_of_sameFlags {P : OptOption K → BuildCall → Shape → Prop} {o : OptOption K}
    {calls : List BuildCall} (h : ∀ o' s, SameFlags o' o → ∀ call ∈ calls, P o' call s) :
    ∀ {o' : OptOption K} {s : Shape}, SameFlags o' o → Along P o' calls s := by
  induction calls with
  | nil => exact fun _ => trivial
  | cons call calls ih =>
    intro o' s hflags
    exact ⟨h o' s hflags call List.mem_cons_self, fun s' _ =>
      ih (fun o s hf call' hm => h o s hf call' (List.mem_cons_of_mem _ hm))
        ((sameFlags_optionAfter o' s call).trans hflags)⟩

omit [LinearOrder K] in
theorem along_append {P : OptOption K → BuildCall → Shape → Prop} {calls calls' : List BuildCall} :
    ∀ {o : OptOption K} {s : Shape}, Along P o calls s →
      (∀ o' s', SameFlags o' o → Along P o' calls' s') → Along P o (calls ++ calls') s := by
  induction calls with
  | nil => exact fun {o s} _ h => h o s (.refl o)
  | cons call calls ih =>
    intro o s h h'
    exact ⟨h.1, fun s' hs' => ih (h.2 s' hs') fun o'' s'' hf =>
      h' o'' s'' (hf.trans (sameFlags_optionAfter _ _ _))⟩

/-- Without rounding of small weights, no weight is small. -/
theorem unclamped_zero [IsOrderedAddMonoid K] (hε : c.epsilon = 0) (o : OptOption K)
    (calls : List BuildCall) (s : Shape) : Along (Unclamped c file) o calls s := by
  have hle : ∀ weight : K, c.epsilon ≤ |weight| := fun weight => hε.trans_le (abs_nonneg weight)
  refine along_of_sameFlags (fun o s _ call _ => ?_) (.refl o)
  unfold Unclamped
  split
  · exact fun _ _ _ _ _ _ _ _ => hle _
  · exact fun _ _ _ _ _ _ _ _ => hle _
  · exact fun _ _ _ _ => hle _
  · trivial

theorem storedRun_pending {calls : List BuildCall} :
    ∀ {o : OptOption K} {v : Value V} {s : Shape}, callShapes calls v.shape = some s →
      (∀ call ∈ calls, CallValid call) → SafeCalls o calls v.shape →
      Along (Unclamped c file) o calls v.shape →
      callRun c file (effective c o) calls (v.scale (pending o)) =
        (storedRun c file calls o v).2.scale (pending (storedRun c file calls o v).1) := by
  induction calls with
  | nil => exact fun _ _ _ _ => rfl
  | cons call calls ih =>
    intro o v s hs hvalid hsafe hu
    obtain ⟨s1, hs1, hs⟩ := Option.bind_eq_some_iff.1 hs
    have hshape : (stored c file o call v).shape = s1 := stored_shape o hs1
    have hstep := stored_pending hs1 (hvalid call List.mem_cons_self) hsafe.1 hu.1
    rw [storedRun_cons, ← ih (o := optionAfter id o v.shape call) (hshape ▸ hs)
      (fun call' h => hvalid call' (List.mem_cons_of_mem _ h)) (hshape ▸ hsafe.2 s1 hs1)
      (hshape ▸ hu.2 s1 hs1), ← hstep, effective_congr (sameFlags_optionAfter o v.shape call)]
    rfl

omit [LinearOrder K] in
theorem callRun_fusedCalls (sem : Semantics K V) (layers : List LayerInfo) (v : Value V) :
    callRun c file sem (fusedCalls layers) v = Keras.run c sem file layers v := by
  fun_induction fusedCalls layers generalizing v with
  | case1 => rfl
  | case2 layer => rfl
  | case3 conv2d bn layers ih => exact ih _
  | case4 dense bn layers ih => exact ih _
  | case5 layer next layers _ _ ih => exact ih _

omit [LinearOrder K] in
/-- The layers of the calls are the layers of the model. -/
theorem callRun_buildCalls (sem : Semantics K V) (fuse : Bool) (layers : List LayerInfo)
    (v : Value V) : callRun c file sem (buildCalls fuse layers) v = Keras.run c sem file layers v := by
  cases fuse with
  | true => exact callRun_fusedCalls sem layers v
  | false => simp [buildCalls, callRun, Keras.run, List.foldl_map, callValue]

/-! ## Networks in exact arithmetic -/

omit [LinearOrder K] in
theorem repImage_exact (t : Tensor3 V) (lv : ℕ) (σ : K) : (exactInterp K V).RepImage lv σ t t :=
  ⟨rfl, rfl, rfl, fun _ _ _ => rfl⟩

omit [LinearOrder K] in
theorem eq_of_repImage_exact {t v : Tensor3 V} {lv : ℕ} {σ : K}
    (h : (exactInterp K V).RepImage lv σ t v) : t = v := by
  obtain ⟨th, tw, tc, cell⟩ := t
  obtain ⟨vh, vw, vc, vcell⟩ := v
  obtain ⟨hh, hw, hc, hcell⟩ := h
  dsimp only at hh hw hc hcell
  subst hh hw hc
  exact congrArg (Tensor3.mk _ _ _) (funext fun i => funext fun j => funext fun k => hcell i j k)

omit [LinearOrder K] in
theorem repUnits_exact {u v : List V} {lv : ℕ} {σ : K} (h : (exactInterp K V).RepUnits lv σ u v) :
    u = v :=
  List.forall₂_eq_eq_eq ▸ h

/-- A network built in a fresh process at safe flags computes the model under `effective`. -/
theorem predict_effective {layers : List LayerInfo} {h w n units : ℕ} {network : List (Layer K)}
    {st' : BuildState K} {t : Tensor3 V} (hm : IsModel layers h w n units)
    (hbuild : buildNetwork ⟨.exact V, .unbounded, c⟩ file layers .fresh o = .ok (network, st'))
    (ht : (t.height, t.width, t.channels) = (h, w, n)) (hdisp : AllDispatch o layers)
    (hstart : pending o = 1)
    (hsafe : SafeCalls o (buildCalls o.enableFuseLayers layers) (.image h w n))
    (hu : Along (Unclamped c file) o (buildCalls o.enableFuseLayers layers) (.image h w n))
    (hend : pending st'.option = 1) :
    predict (.exact V) .unbounded st'.option network t =
      .ok (Keras.predict c (effective c o) file layers t) := by
  obtain ⟨ho, y, u, σ, hy, hunits, hrep⟩ := predict_stored (I := exactInterp K V) hm hbuild ht
    (repImage_exact t _ 1) hdisp fun _ _ => trivial
  have hshape : (Value.image t).shape = .image h w n := by
    simp only [Prod.mk.injEq] at ht
    simp [Value.shape, ht]
  have hrun : callRun c file (effective c o) (buildCalls o.enableFuseLayers layers)
      ((Value.image t).scale (pending o)) = _ := storedRun_pending
    (hshape ▸ callShapes_buildCalls o.enableFuseLayers layers _ ▸ hm.shapes)
    (fun call hcall => callValid_of_model hm hcall) (hshape ▸ hsafe) (hshape ▸ hu)
  rw [← ho, hend, hstart, hunits, Value.scale_one, Value.scale_one, callRun_buildCalls] at hrun
  rw [hy, repUnits_exact hrep, Keras.predict, hrun]

end Cnn.Proof
