import PPCNN.Cnn.AllOpt
import PPCNN.Cnn.Proof.Ratio
import Mathlib.Algebra.Order.Ring.Abs

/-!
# The coefficient of an activation on one variable

As `LeadRatio` for poolings: on neutral weights the network with optimised activations and the one
without are polynomials, and a leading coefficient that is not taken by the layer after its
activation leaves a ratio other than one. A convolution, a dense layer and a pooling take it.
-/

set_option autoImplicit false

namespace Cnn.Proof

open Lib Keras Polynomial

variable {K : Type} [Field K]

/-! ## One layer -/

/-- Options that differ in the optimisation of activations only, with the coefficient `a`. -/
structure CoeffPair (a : K) (o o' : OptOption K) : Prop where
  activation : o.activation = o'.activation
  optimizeActivation : o.enableOptimizeActivation = false
  optimizeActivation' : o'.enableOptimizeActivation = true
  optimizePooling : o.enableOptimizePooling = false
  optimizePooling' : o'.enableOptimizePooling = false
  highestDegCoeff' : o'.highestDegCoeff = a

/-- The coefficient that waits after a layer, if `f` waits before it. -/
def coeffWaits (a f : K) : LayerInfo → K
  | .conv2D _ | .dense _ | .averagePooling2D _ => 1
  | .activation _ _ => a
  | _ => f

/-- The ratio after a layer. -/
def CoeffTurn (a f ρ ρ' : K) : LayerInfo → Prop
  | .conv2D _ | .dense _ | .averagePooling2D _ => ρ' = f * ρ
  | .activation _ _ => ρ' = a⁻¹ * ρ ^ 4
  | _ => ρ' = ρ

/-- The product of what waits after a layer and the ratio there. -/
def coeffProduct (f ρ : K) : LayerInfo → K
  | .activation _ _ => ρ ^ 4
  | _ => f * ρ

/-- The activations of a list are the swish polynomial `t`. -/
def AllSwish (c : Define K) (act : EActivation) (t : SwishCoeffs K) (layers : List LayerInfo) : Prop :=
  ∀ name activation, .activation name activation ∈ layers → ChoosesSwish c act activation t

variable {c : Define K} {a : K} {t : SwishCoeffs K} {o o' : OptOption K}

theorem CoeffPair.after (h : CoeffPair a o o') (s s' : Shape) (call : BuildCall) :
    CoeffPair a (optionAfter id o s call) (optionAfter id o' s' call) := by
  have hf : SameFlags (optionAfter id o s call) o := sameFlags_optionAfter o s call
  have hf' : SameFlags (optionAfter id o' s' call) o' := sameFlags_optionAfter o' s' call
  exact ⟨hf.activation.trans (h.activation.trans hf'.activation.symm),
    hf.optimizeActivation.trans h.optimizeActivation,
    hf'.optimizeActivation.trans h.optimizeActivation',
    hf.optimizePooling.trans h.optimizePooling, hf'.optimizePooling.trans h.optimizePooling',
    hf'.highestDegCoeff.trans h.highestDegCoeff'⟩

theorem CoeffPair.pending_left (h : CoeffPair a o o') : pending o = 1 := by
  rw [pending, coeffPart_one h.optimizeActivation, poolPart, h.optimizePooling]
  simp

theorem CoeffPair.pending_right (h : CoeffPair a o o') : pending o' = coeffPart o' := by
  rw [pending, poolPart, h.optimizePooling']
  simp

/-- Without optimised pooling, the factor of a pooling is its divisor and the coefficient that
waits. -/
theorem poolFactor_eq (o : OptOption K) (info : AveragePooling2DInfo) :
    poolFactor id o info = coeffPart o / (info.poolSize.1 * info.poolSize.2 : ℕ) := by
  unfold poolFactor id coeffPart
  split <;> rfl

theorem CoeffPair.waits (h : CoeffPair a o o') {l : LayerInfo} (hl : Cellwise l) (s : Shape) :
    coeffPart (optionAfter id o' s (.single l)) = coeffWaits a (coeffPart o') l := by
  cases l with
  | conv2D info => exact (parts_takeFolding o').1
  | dense info => exact (parts_takeFolding o').1
  | averagePooling2D info =>
    simp only [optionAfter, h.optimizePooling', Bool.false_eq_true, if_false, coeffWaits]
    split
    · rw [coeffPart_descend]
      simp [coeffPart]
    · rename_i hflag
      rw [coeffPart_descend, coeffPart, if_neg hflag]
  | activation name activation =>
    simp only [optionAfter, h.optimizeActivation', if_true, coeffWaits, coeffPart_descend]
    simp [coeffPart, h.highestDegCoeff']
  | globalAveragePooling2D name => exact absurd hl id
  | other className => exact absurd hl id
  | _ => rfl

section Swish

variable {V : Type} [CommRing V] [Algebra K V]

theorem storedActivation_swish {act : EActivation} {activation : String}
    (hc : ChoosesSwish c act activation t) (ho : o.activation = act)
    (hopt : o.enableOptimizeActivation = false) (x : V) :
    storedActivation c o activation x = swish t x := by
  obtain ⟨htable, hsquare⟩ := hc.swishTable ho
  simp only [storedActivation, if_neg hsquare, htable, hopt, Bool.false_eq_true, if_false]

/-- An optimised activation is the swish polynomial without its leading coefficient. -/
theorem storedActivation_opt {act : EActivation} {activation : String}
    (hc : ChoosesSwish c act activation t) (ht : t.Exact) (ho : o.activation = act)
    (hopt : o.enableOptimizeActivation = true) (x : V) :
    storedActivation c o activation x = t.a⁻¹ • swish t x := by
  obtain ⟨htable, hsquare⟩ := hc.swishTable ho
  simp only [storedActivation, if_neg hsquare, htable, hopt, if_true]
  rw [← swish_exact ht, smul_smul, inv_mul_cancel₀ ht.ne_zero, one_smul]

end Swish

theorem natDegree_swish (ht : t.Exact) : (swish t (X : K[X])).natDegree = 4 := by
  have ha := ht.ne_zero
  simp only [swish, algebraMap_eq, smul_eq_C_mul]
  compute_degree!

theorem swish_comp (P : K[X]) : swish t P = (swish t X).comp P := by
  simp [swish, smul_eq_C_mul]

theorem LeadRatio.coeffTurn [CharZero K] {act : EActivation} (ht : t.Exact)
    (h : CoeffPair t.a o o') (ho : o.activation = act) {l : LayerInfo}
    (hswish : AllSwish c act t [l]) {s s' : Shape} (hs : outShape l s = some s') (hl : Cellwise l)
    {ρ : K} {P Q : K[X]} (hr : LeadRatio ρ P Q) (hf : coeffPart o' ≠ 0) :
    ∃ ρ', LeadRatio ρ' (scalarLayer c o l P) (scalarLayer c o' l Q) ∧
      CoeffTurn t.a (coeffPart o') ρ ρ' l := by
  cases l with
  | conv2D info =>
    refine ⟨coeffPart o' * ρ, ?_, rfl⟩
    rw [scalarLayer, scalarLayer, h.pending_left, h.pending_right, one_smul]
    exact hr.smul hf
  | dense info =>
    refine ⟨coeffPart o' * ρ, ?_, rfl⟩
    rw [scalarLayer, scalarLayer, h.pending_left, h.pending_right, one_smul]
    exact hr.smul hf
  | averagePooling2D info =>
    have harea : ((info.poolSize.1 * info.poolSize.2 : ℕ) : K) ≠ 0 :=
      Nat.cast_ne_zero.2 (poolCells_pos hs).ne'
    refine ⟨coeffPart o' * ρ, ?_, rfl⟩
    rw [scalarLayer, scalarLayer, h.optimizePooling, h.optimizePooling', if_neg (by decide),
      if_neg (by decide), poolFactor_eq, poolFactor_eq, coeffPart_one h.optimizeActivation, smul_smul,
      smul_smul, div_mul_cancel₀ _ harea, div_mul_cancel₀ _ harea, one_smul]
    exact hr.smul hf
  | activation name activation =>
    have hc := hswish name activation List.mem_cons_self
    have hdegree : (swish t (X : K[X])).natDegree = 4 := natDegree_swish ht
    refine ⟨t.a⁻¹ * ρ ^ 4, ?_, rfl⟩
    rw [scalarLayer, scalarLayer, storedActivation_swish hc ho h.optimizeActivation,
      storedActivation_opt hc ht (h.activation.symm.trans ho) h.optimizeActivation', swish_comp P,
      swish_comp Q]
    have hcomp := hr.comp (p := swish t (X : K[X])) (by omega)
    rw [hdegree] at hcomp
    exact hcomp.smul (inv_ne_zero ht.ne_zero)
  | globalAveragePooling2D name => exact absurd hl id
  | other className => exact absurd hl id
  | _ => exact ⟨ρ, hr, rfl⟩

/-! ## A list of layers -/

/-- A coefficient is lost, if `f` waits before the layers: before another activation, or at the
end. -/
def CoeffLoses (a f : K) : List LayerInfo → Prop
  | [] => f ≠ 1
  | .activation _ _ :: layers => f ≠ 1 ∨ CoeffLoses a a layers
  | l :: layers => CoeffLoses a (coeffWaits a f l) layers

/-- What waits is nothing, or a coefficient smaller than one. -/
def Small [LinearOrder K] (f : K) : Prop := f = 1 ∨ f ≠ 0 ∧ |f| < 1

section Ordered

variable [LinearOrder K] [IsStrictOrderedRing K]

theorem Small.ne_zero {f : K} (h : Small f) : f ≠ 0 := by
  rcases h with rfl | h
  · exact one_ne_zero
  · exact h.1

theorem Small.abs_mul_le {f : K} (h : Small f) (ρ : K) : |f * ρ| ≤ |ρ| := by
  rcases h with rfl | h
  · rw [one_mul]
  · rw [abs_mul]
    exact mul_le_of_le_one_left (abs_nonneg ρ) h.2.le

theorem Small.abs_mul_lt {f ρ : K} (h : Small f) (hne : f ≠ 1) (hρ : ρ ≠ 0) : |f * ρ| < |ρ| := by
  rw [abs_mul]
  exact mul_lt_of_lt_one_left (abs_pos.2 hρ) (h.resolve_left hne).2

omit [IsStrictOrderedRing K] in
theorem small_coeffWaits {a f : K} (ha : Small a) (hf : Small f) (l : LayerInfo) :
    Small (coeffWaits a f l) := by
  cases l with
  | activation name activation => exact ha
  | conv2D info => exact .inl rfl
  | dense info => exact .inl rfl
  | averagePooling2D info => exact .inl rfl
  | _ => exact hf

omit [LinearOrder K] [IsStrictOrderedRing K] in
/-- The product of what waits and the ratio changes at an activation only. -/
theorem coeffTurn_product {a f ρ ρ' : K} (ha : a ≠ 0) {l : LayerInfo} (ht : CoeffTurn a f ρ ρ' l) :
    coeffWaits a f l * ρ' = coeffProduct f ρ l := by
  cases l with
  | activation name activation =>
    rw [coeffWaits, show ρ' = a⁻¹ * ρ ^ 4 from ht, mul_inv_cancel_left₀ ha, coeffProduct]
  | conv2D info =>
    rw [coeffWaits, one_mul]
    exact ht
  | dense info =>
    rw [coeffWaits, one_mul]
    exact ht
  | averagePooling2D info =>
    rw [coeffWaits, one_mul]
    exact ht
  | _ =>
    obtain rfl : ρ' = ρ := ht
    rfl

section Run

variable {layers : List LayerInfo} {s s' : Shape} {act : EActivation}

/-- The first layer of both networks. -/
theorem LeadRatio.coeffStep {l : LayerInfo} (ht : t.Exact) (ha : Small t.a) (hl : Cellwise l)
    (hswish : AllSwish c act t (l :: layers)) (hs : outShapes (l :: layers) s = some s')
    (h : CoeffPair t.a o o') (ho : o.activation = act) {ρ : K} {P Q : K[X]} (hr : LeadRatio ρ P Q)
    (hf : Small (coeffPart o')) :
    ∃ s1 ρ', outShapes layers s1 = some s' ∧
      LeadRatio ρ' (scalarLayer c o l P) (scalarLayer c o' l Q) ∧
      (optionAfter id o (.units 0) (.single l)).activation = act ∧
      Small (coeffPart (optionAfter id o' (.units 0) (.single l))) ∧
      coeffPart (optionAfter id o' (.units 0) (.single l)) = coeffWaits t.a (coeffPart o') l ∧
      coeffPart (optionAfter id o' (.units 0) (.single l)) * ρ' = coeffProduct (coeffPart o') ρ l := by
  obtain ⟨s1, hs1, hs⟩ := outShapes_cons.1 hs
  have hswish1 : AllSwish c act t [l] := fun name activation hmem =>
    hswish name activation (List.mem_singleton.1 hmem ▸ List.mem_cons_self)
  obtain ⟨ρ', hr', hturn⟩ := hr.coeffTurn ht h ho hswish1 hs1 hl hf.ne_zero
  have hw := h.waits hl (.units 0)
  refine ⟨s1, ρ', hs, hr', ?_, ?_, hw, ?_⟩
  · exact (sameFlags_optionAfter o (.units 0) (.single l)).activation.trans ho
  · rw [hw]
    exact small_coeffWaits ha hf l
  · rw [hw]
    exact coeffTurn_product ht.ne_zero hturn

/-- If a coefficient is lost, the two networks are different polynomials. -/
theorem coeffRatio_of_loses (ht : t.Exact) (ha : Small t.a) (hcell : ∀ l ∈ layers, Cellwise l)
    (hswish : AllSwish c act t layers) (hs : outShapes layers s = some s') (h : CoeffPair t.a o o')
    (ho : o.activation = act) {ρ : K} {P Q : K[X]} (hr : LeadRatio ρ P Q)
    (hf : Small (coeffPart o')) (hρ : 1 ≤ |coeffPart o' * ρ|)
    (hlost : 1 < |coeffPart o' * ρ| ∨ CoeffLoses t.a (coeffPart o') layers) :
    (scalarRun c layers o P).2 ≠ (scalarRun c layers o' Q).2 := by
  induction layers generalizing o o' ρ P Q s with
  | nil =>
    have hρ0 : ρ ≠ 0 := by
      rintro rfl
      rw [mul_zero, abs_zero] at hρ
      exact absurd hρ (not_le.2 zero_lt_one)
    have hgt : 1 < |ρ| := by
      rcases hlost with hlt | hne
      · exact hlt.trans_le (hf.abs_mul_le ρ)
      · exact hρ.trans_lt (hf.abs_mul_lt hne hρ0)
    refine hr.ne fun hone => ?_
    rw [hone, abs_one] at hgt
    exact lt_irrefl 1 hgt
  | cons l layers ih =>
    obtain ⟨s1, ρ', hs1, hr', ho', hf', hw, hprod⟩ :=
      hr.coeffStep ht ha (hcell l List.mem_cons_self) hswish hs h ho hf
    have hnext := ih (fun l' hl' => hcell l' (List.mem_cons_of_mem _ hl'))
      (fun name activation hmem => hswish name activation (List.mem_cons_of_mem _ hmem)) hs1
      (h.after _ _ _) ho' hr' hf'
    rw [hprod, hw] at hnext
    cases l with
    | activation name activation =>
      have hge : 1 ≤ |ρ| := hρ.trans (hf.abs_mul_le ρ)
      rw [coeffProduct, abs_pow] at hnext
      refine hnext (one_le_pow₀ hge) ?_
      rcases hlost with hlt | hne | hlater
      · exact .inl (one_lt_pow₀ (hlt.trans_le (hf.abs_mul_le ρ)) (by decide))
      · have hρ0 : ρ ≠ 0 := abs_pos.1 (zero_lt_one.trans_le hge)
        exact .inl (one_lt_pow₀ (hρ.trans_lt (hf.abs_mul_lt hne hρ0)) (by decide))
      · exact .inr hlater
    | _ => exact hnext hρ hlost

/-- If no coefficient is lost from here on, but the ratio is below the one that waits, the two
networks are different polynomials. -/
theorem coeffRatio_of_below (ht : t.Exact) (ha : Small t.a) (hcell : ∀ l ∈ layers, Cellwise l)
    (hswish : AllSwish c act t layers) (hs : outShapes layers s = some s') (h : CoeffPair t.a o o')
    (ho : o.activation = act) {ρ : K} {P Q : K[X]} (hr : LeadRatio ρ P Q)
    (hf : Small (coeffPart o')) (hlt : |coeffPart o' * ρ| < 1)
    (hkept : ¬CoeffLoses t.a (coeffPart o') layers) :
    (scalarRun c layers o P).2 ≠ (scalarRun c layers o' Q).2 := by
  induction layers generalizing o o' ρ P Q s with
  | nil =>
    rw [show coeffPart o' = 1 from not_not.1 hkept, one_mul] at hlt
    refine hr.ne fun hone => ?_
    rw [hone, abs_one] at hlt
    exact lt_irrefl 1 hlt
  | cons l layers ih =>
    obtain ⟨s1, ρ', hs1, hr', ho', hf', hw, hprod⟩ :=
      hr.coeffStep ht ha (hcell l List.mem_cons_self) hswish hs h ho hf
    have hnext := ih (fun l' hl' => hcell l' (List.mem_cons_of_mem _ hl'))
      (fun name activation hmem => hswish name activation (List.mem_cons_of_mem _ hmem)) hs1
      (h.after _ _ _) ho' hr' hf'
    rw [hprod, hw] at hnext
    cases l with
    | activation name activation =>
      obtain ⟨hone, hlater⟩ := not_or.1 hkept
      rw [show coeffPart o' = 1 from not_not.1 hone, one_mul] at hlt
      rw [coeffProduct, abs_pow] at hnext
      exact hnext (pow_lt_one₀ (abs_nonneg ρ) hlt (by decide)) hlater
    | _ => exact hnext hlt hkept

end Run

end Ordered

end Cnn.Proof
