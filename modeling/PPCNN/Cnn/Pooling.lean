import PPCNN.Cnn.Architecture

/-!
# Optimised pooling

At `OPT_POOLING` a pooling adds up, and its divisor waits in the option for the next linear layer.
The slot holds one divisor, and only linear layers may come in between: `PoolsTaken` is the condition
on a layer list, `optPooling_preserves` says that it is enough.
-/

set_option autoImplicit false

namespace Cnn

open Lib Keras Proof

/-! ## The condition -/

/-- The next layer is linear, a `Flatten` aside. -/
def takesPool : List LayerInfo → Bool
  | .flatten _ :: layers => takesPool layers
  | .conv2D _ :: _ | .dense _ :: _ => true
  | _ => false

/-- The divisor of every pooling is one, or a linear layer takes it at once. -/
def PoolsTaken : List LayerInfo → Prop
  | [] => True
  | .averagePooling2D info :: layers =>
    (info.poolSize.1 * info.poolSize.2 = 1 ∨ takesPool layers = true) ∧ PoolsTaken layers
  | _ :: layers => PoolsTaken layers

variable {K V : Type} [Field K]

/-! ## The invariant -/

/-- Before the layers, a divisor waits only for a linear layer that comes at once. -/
structure PoolInv (o : OptOption K) (layers : List LayerInfo) : Prop where
  optimizeActivation : o.enableOptimizeActivation = false
  taken : PoolsTaken layers
  noGlobalAverage : NoGlobalAverage layers
  pool : poolPart o = 1 ∨ takesPool layers = true

theorem PoolInv.step {o : OptOption K} {l : LayerInfo} {layers : List LayerInfo}
    (h : PoolInv o (l :: layers)) (s : Shape) :
    SafeCall o (.single l) ∧ PoolInv (optionAfter id o s (.single l)) layers := by
  obtain ⟨hopt, htaken, hgap, hpool⟩ := h
  have hgap' : NoGlobalAverage layers := fun name hmem => hgap name (List.mem_cons_of_mem _ hmem)
  have hopt' : (optionAfter id o s (.single l)).enableOptimizeActivation = false :=
    (sameFlags_optionAfter o s (.single l)).optimizeActivation.trans hopt
  have hfolded : poolPart (descend o.takeFolding.2 1) = 1 := (parts_takeFolding o).2
  cases l with
  | conv2D info => exact ⟨trivial, hopt', htaken, hgap', .inl hfolded⟩
  | dense info => exact ⟨trivial, hopt', htaken, hgap', .inl hfolded⟩
  | averagePooling2D info =>
    have hone : poolPart o = 1 := hpool.resolve_right (by simp [takesPool])
    refine ⟨fun _ => hone, hopt', htaken.2, hgap', ?_⟩
    rcases htaken.1 with harea | htakes
    · left
      simp only [optionAfter, hopt, Bool.false_and, Bool.false_eq_true, if_false]
      split
      · simp [poolPart, harea]
      · exact hone
    · exact .inr htakes
  | batchNormalization name =>
    have hone : poolPart o = 1 := hpool.resolve_right (by simp [takesPool])
    exact ⟨⟨coeffPart_one hopt, hone⟩, hopt', htaken, hgap', .inl hone⟩
  | flatten name => exact ⟨trivial, hopt', htaken, hgap', hpool⟩
  | activation name activation =>
    have hone : poolPart o = 1 := hpool.resolve_right (by simp [takesPool])
    refine ⟨⟨coeffPart_one hopt, hone⟩, hopt', htaken, hgap', .inl ?_⟩
    simp only [optionAfter, hopt, Bool.false_eq_true, if_false]
    exact hone
  | globalAveragePooling2D name => exact absurd List.mem_cons_self (hgap name)
  | other className =>
    exact ⟨trivial, hopt', htaken, hgap', .inl (hpool.resolve_right (by simp [takesPool]))⟩

/-- In the end nothing waits. -/
theorem PoolInv.pending {o : OptOption K} (h : PoolInv o []) : pending o = 1 := by
  rw [Proof.pending, coeffPart_one h.optimizeActivation, h.pool.resolve_right (by simp [takesPool]),
    one_mul]

/-! ## Two networks of one model -/

section Levels

variable (K) in
/-- The flags under which activations are not optimised and layers not fused. -/
structure PoolingOnly (o : OptOption K) : Prop where
  optimizeActivation : o.enableOptimizeActivation = false
  fuseLayers : o.enableFuseLayers = false
  multiplyPool : o.shouldMultiplyPool = false

theorem poolingOnly_computeOption (c : Define K) {level : EOptLevel}
    (hlevel : level = .noOpt ∨ level = .optPooling) (act : EActivation) (model : String) :
    PoolingOnly K (computeOption c level act model) := by
  obtain ⟨coeff, h⟩ := computeOption_eq c level act model
  rw [h]
  rcases hlevel with rfl | rfl <;> exact ⟨rfl, rfl, rfl⟩

variable [LinearOrder K] [IsStrictOrderedRing K] [CommRing V] [Algebra K V]

/-- A network without optimised activations computes the model under `effective`, if it is built. -/
theorem predict_poolsTaken {c : Define K} (hε : c.epsilon = 0) {file : H5File K}
    {layers : List LayerInfo} {h w n units : ℕ} (hm : IsModel layers h w n units)
    (hgap : NoGlobalAverage layers) (htaken : PoolsTaken layers) {o : OptOption K}
    (ho : PoolingOnly K o) {network : List (Layer K)} {st : BuildState K}
    (hbuild : buildNetwork ⟨.exact V, .unbounded, c⟩ file layers .fresh o = .ok (network, st))
    (hdisp : AllDispatch o layers) {input : Tensor3 V}
    (hdims : (input.height, input.width, input.channels) = (h, w, n)) :
    predict (.exact V) .unbounded st.option network input =
      .ok (Keras.predict c (effective c o) file layers input) := by
  obtain ⟨hopt, hfuse, hpool⟩ := ho
  have hpart : poolPart o = 1 := by
    rw [poolPart, hpool, Bool.and_false]
    rfl
  have hinv : PoolInv o layers := ⟨hopt, htaken, hgap, .inl hpart⟩
  have hstart : pending o = 1 := by rw [Proof.pending, coeffPart_one hopt, hpart, one_mul]
  exact predict_unfused hε hm hfuse hstart (safeCalls_of_step PoolInv PoolInv.step hinv _) hbuild
    hdisp hdims (storedRun_of_step PoolInv (fun h s => (h.step s).2) hinv _).pending

omit [LinearOrder K] [IsStrictOrderedRing K] in
theorem effective_agreeOn {c : Define K} {o o' : OptOption K} (ho : PoolingOnly K o)
    (ho' : PoolingOnly K o') (hact : o.activation = o'.activation) {layers : List LayerInfo}
    (hgap : NoGlobalAverage layers) :
    ∀ l ∈ layers, (effective (V := V) c o).AgreeOn (effective c o') l := by
  intro l hl
  cases l with
  | conv2D info => exact fun _ _ => rfl
  | averagePooling2D info => exact fun _ _ => rfl
  | activation name activation =>
    funext x
    simp [effective, storedActivation, swishTable, ho.optimizeActivation, ho'.optimizeActivation, hact]
  | globalAveragePooling2D name => exact absurd hl (hgap name)
  | _ => trivial

/-- If a linear layer takes the divisor of every pooling, optimised poolings do not change what the
network returns. -/
theorem optPooling_preserves {c : Define K} (hε : c.epsilon = 0) {file : H5File K}
    {layers : List LayerInfo} {h w n units : ℕ} (hm : IsModel layers h w n units)
    (hgap : NoGlobalAverage layers) (htaken : PoolsTaken layers) {act : EActivation} {model : String}
    {network network' : List (Layer K)} {st st' : BuildState K}
    (hbuild : buildNetwork ⟨.exact V, .unbounded, c⟩ file layers .fresh
      (computeOption c .noOpt act model) = .ok (network, st))
    (hbuild' : buildNetwork ⟨.exact V, .unbounded, c⟩ file layers .fresh
      (computeOption c .optPooling act model) = .ok (network', st')) {input : Tensor3 V}
    (hdims : (input.height, input.width, input.channels) = (h, w, n)) :
    predict (.exact V) .unbounded st'.option network' input =
      predict (.exact V) .unbounded st.option network input := by
  have ho := poolingOnly_computeOption c (.inl rfl : EOptLevel.noOpt = .noOpt ∨ _) act model
  have ho' := poolingOnly_computeOption c (.inr rfl : EOptLevel.optPooling = .noOpt ∨ _) act model
  have hact : (computeOption c .optPooling act model).activation =
      (computeOption c .noOpt act model).activation := by simp
  have hdisp : AllDispatch (computeOption c .optPooling act model) layers ↔
      AllDispatch (computeOption c .noOpt act model) layers := by
    simp only [AllDispatch, Dispatches, hact]
  by_cases hd : AllDispatch (computeOption c .noOpt act model) layers
  · rw [predict_poolsTaken hε hm hgap htaken ho hbuild hd hdims,
      predict_poolsTaken hε hm hgap htaken ho' hbuild' (hdisp.2 hd) hdims,
      predict_congr (effective_agreeOn ho' ho hact hgap)]
  · rw [predict_error (I := exactInterp K V) hm hbuild hdims (repImage_exact input _ 1) hd
        fun _ => trivial,
      predict_error (I := exactInterp K V) hm hbuild' hdims (repImage_exact input _ 1)
        (fun h => hd (hdisp.1 h)) fun _ => trivial]

end Levels

end Cnn
