import PPCNN.Cnn.Proof.Neutral
import Mathlib.Algebra.Polynomial.Roots
import Mathlib.Algebra.Polynomial.AlgebraMap
import Mathlib.Tactic.ComputeDegree

/-!
# Two networks on one variable

On neutral weights the network without optimised poolings and the one with them are polynomials in
the cell of the input. `LeadRatio` compares their leading coefficients, `Turn` is what one layer does
to the ratio and to the divisor that waits. A divisor that is lost leaves a ratio other than one, so
the polynomials differ (`ratio_of_loses`, `ratio_of_below`).
-/

set_option autoImplicit false

namespace Cnn.Proof

open Lib Keras Polynomial

variable {K : Type} [Field K]

/-! ## Leading coefficients -/

/-- Polynomials of one positive degree, the leading coefficients in the given ratio. -/
structure LeadRatio (ρ : K) (P Q : K[X]) : Prop where
  degree_pos : 0 < P.natDegree
  degree_eq : Q.natDegree = P.natDegree
  lead : Q.leadingCoeff = ρ * P.leadingCoeff

theorem LeadRatio.var : LeadRatio (1 : K) X X := ⟨by simp, rfl, (one_mul _).symm⟩

theorem LeadRatio.smul {ρ f : K} {P Q : K[X]} (h : LeadRatio ρ P Q) (hf : f ≠ 0) :
    LeadRatio (f * ρ) P (f • Q) := by
  rw [smul_eq_C_mul]
  refine ⟨h.degree_pos, (natDegree_C_mul hf).trans h.degree_eq, ?_⟩
  rw [leadingCoeff_mul, leadingCoeff_C, h.lead, mul_assoc]

theorem LeadRatio.comp {ρ : K} {P Q : K[X]} (h : LeadRatio ρ P Q) {p : K[X]}
    (hp : 0 < p.natDegree) : LeadRatio (ρ ^ p.natDegree) (p.comp P) (p.comp Q) := by
  refine ⟨?_, ?_, ?_⟩
  · rw [natDegree_comp]
    exact Nat.mul_pos hp h.degree_pos
  · rw [natDegree_comp, natDegree_comp, h.degree_eq]
  · rw [leadingCoeff_comp (h.degree_eq ▸ h.degree_pos.ne'), leadingCoeff_comp h.degree_pos.ne', h.lead,
      mul_pow, mul_left_comm]

theorem LeadRatio.ne {ρ : K} {P Q : K[X]} (h : LeadRatio ρ P Q) (hρ : ρ ≠ 1) : P ≠ Q := by
  rintro rfl
  have hP : P.leadingCoeff ≠ 0 := leadingCoeff_ne_zero.2 fun h0 => by
    have := h.degree_pos
    rw [h0, natDegree_zero] at this
    exact lt_irrefl 0 this
  exact hρ (mul_right_cancel₀ hP (h.lead.symm.trans (one_mul _).symm))

theorem exists_eval_ne [Infinite K] {P Q : K[X]} (h : P ≠ Q) : ∃ x, P.eval x ≠ Q.eval x := by
  by_contra hall
  push Not at hall
  exact h (Polynomial.funext hall)

/-! ## Activations -/

variable {c : Define K}

/-- The tables have degree four. -/
structure Quartic (c : Define K) : Prop where
  rg4 : c.swishRg4Deg4.a ≠ 0
  rg6 : c.swishRg6Deg4.a ≠ 0

theorem storedActivation_comp (o : OptOption K) (activation : String) (P : K[X]) :
    storedActivation c o activation P = (storedActivation c o activation X).comp P := by
  have h := map_scalarLayer c (aeval P) o (.activation "" activation) (X : K[X])
  rw [aeval_X] at h
  exact h.trans (comp_eq_aeval ..).symm

theorem two_le_natDegree (hq : Quartic c) {o : OptOption K}
    (ho : o.enableOptimizeActivation = false) (activation : String) :
    2 ≤ (storedActivation c o activation (X : K[X])).natDegree := by
  unfold storedActivation
  split
  · rw [natDegree_mul X_ne_zero X_ne_zero, natDegree_X]
  · have hdegree : ∀ s : SwishCoeffs K, s.a ≠ 0 → (swish s (X : K[X])).natDegree = 4 := by
      intro s hs
      simp only [swish, algebraMap_eq, smul_eq_C_mul]
      compute_degree!
    have ha : (swishTable c o activation).a ≠ 0 := by
      unfold swishTable
      split
      · exact hq.rg4
      · exact hq.rg6
    simp only [ho, Bool.false_eq_true, if_false, hdegree _ ha]
    omega

/-! ## One layer -/

/-- Options that differ in the optimisation of poolings only. -/
structure PoolPair (o o' : OptOption K) : Prop where
  activation : o.activation = o'.activation
  optimizeActivation : o.enableOptimizeActivation = false
  optimizeActivation' : o'.enableOptimizeActivation = false
  optimizePooling : o.enableOptimizePooling = false
  optimizePooling' : o'.enableOptimizePooling = true

/-- The divisor that waits after a layer. -/
def waits (f : K) : LayerInfo → K
  | .conv2D _ | .dense _ => 1
  | .averagePooling2D info => 1 / (info.poolSize.1 * info.poolSize.2 : ℕ)
  | _ => f

/-- The ratio after a layer, if `f` waits before it. -/
def Turn (f ρ ρ' : K) : LayerInfo → Prop
  | .conv2D _ | .dense _ => ρ' = f * ρ
  | .averagePooling2D info => ρ' = (info.poolSize.1 * info.poolSize.2 : ℕ) * ρ
  | .activation _ _ => ∃ d, 2 ≤ d ∧ ρ' = ρ ^ d
  | _ => ρ' = ρ

variable {o o' : OptOption K}

theorem PoolPair.after (h : PoolPair o o') (s s' : Shape) (call : BuildCall) :
    PoolPair (optionAfter id o s call) (optionAfter id o' s' call) := by
  have hf : SameFlags (optionAfter id o s call) o := sameFlags_optionAfter o s call
  have hf' : SameFlags (optionAfter id o' s' call) o' := sameFlags_optionAfter o' s' call
  exact ⟨hf.activation.trans (h.activation.trans hf'.activation.symm),
    hf.optimizeActivation.trans h.optimizeActivation,
    hf'.optimizeActivation.trans h.optimizeActivation',
    hf.optimizePooling.trans h.optimizePooling, hf'.optimizePooling.trans h.optimizePooling'⟩

theorem PoolPair.pending_left (h : PoolPair o o') : pending o = 1 := by
  rw [pending, coeffPart_one h.optimizeActivation, poolPart, h.optimizePooling]
  simp

theorem PoolPair.pending_right (h : PoolPair o o') : pending o' = poolPart o' := by
  rw [pending, coeffPart_one h.optimizeActivation', one_mul]

theorem PoolPair.waits (h : PoolPair o o') {l : LayerInfo} (hl : Cellwise l) (s : Shape) :
    poolPart (optionAfter id o' s (.single l)) = waits (poolPart o') l := by
  cases l with
  | conv2D info => exact (parts_takeFolding o').2
  | dense info => exact (parts_takeFolding o').2
  | averagePooling2D info => simp [optionAfter, poolPart, h.optimizePooling', Proof.waits]
  | activation name activation =>
    simp only [optionAfter, h.optimizeActivation', Bool.false_eq_true, if_false]
    rfl
  | globalAveragePooling2D name => exact absurd hl id
  | other className => exact absurd hl id
  | _ => rfl

theorem LeadRatio.turn [CharZero K] (hq : Quartic c) (h : PoolPair o o') {l : LayerInfo}
    {s s' : Shape} (hs : outShape l s = some s') (hl : Cellwise l) {ρ : K} {P Q : K[X]}
    (hr : LeadRatio ρ P Q) (hf : poolPart o' ≠ 0) :
    ∃ ρ', LeadRatio ρ' (scalarLayer c o l P) (scalarLayer c o' l Q) ∧ Turn (poolPart o') ρ ρ' l := by
  cases l with
  | conv2D info =>
    refine ⟨poolPart o' * ρ, ?_, rfl⟩
    rw [scalarLayer, scalarLayer, h.pending_left, h.pending_right, one_smul]
    exact hr.smul hf
  | dense info =>
    refine ⟨poolPart o' * ρ, ?_, rfl⟩
    rw [scalarLayer, scalarLayer, h.pending_left, h.pending_right, one_smul]
    exact hr.smul hf
  | averagePooling2D info =>
    have harea : ((info.poolSize.1 * info.poolSize.2 : ℕ) : K) ≠ 0 :=
      Nat.cast_ne_zero.2 (poolCells_pos hs).ne'
    refine ⟨(info.poolSize.1 * info.poolSize.2 : ℕ) * ρ, ?_, rfl⟩
    have hfactor : poolFactor id o info = 1 / ((info.poolSize.1 * info.poolSize.2 : ℕ) : K) := by
      simp [poolFactor, h.optimizeActivation]
    rw [scalarLayer, scalarLayer, h.optimizePooling, h.optimizePooling', if_neg (by decide),
      if_pos rfl, hfactor, smul_smul, one_div_mul_cancel harea, one_smul, one_smul]
    exact hr.smul harea
  | activation name activation =>
    refine ⟨_, ?_, _, two_le_natDegree hq h.optimizeActivation activation, rfl⟩
    have hsame : storedActivation c o' activation Q = storedActivation c o activation Q := by
      simp only [storedActivation, swishTable, h.activation, h.optimizeActivation,
        h.optimizeActivation']
    rw [scalarLayer, scalarLayer, hsame, storedActivation_comp o activation P,
      storedActivation_comp o activation Q]
    exact hr.comp (lt_of_lt_of_le Nat.zero_lt_two
      (two_le_natDegree hq h.optimizeActivation activation))
  | globalAveragePooling2D name => exact absurd hl id
  | other className => exact absurd hl id
  | _ => exact ⟨ρ, hr, rfl⟩

/-! ## A list of layers -/

/-- The layer is not linear in what waits, or puts another divisor in its place. -/
def Breaks : LayerInfo → Prop
  | .averagePooling2D _ | .activation _ _ => True
  | _ => False

/-- A divisor is lost, if `f` waits before the layers: before a layer that breaks it, or at the
end. -/
def Loses (f : K) : List LayerInfo → Prop
  | [] => f ≠ 1
  | l :: layers => (Breaks l ∧ f ≠ 1) ∨ Loses (waits f l) layers

section Ordered

variable [LinearOrder K] [IsStrictOrderedRing K]

theorem waits_bounds {f : K} (hf : 0 < f ∧ f ≤ 1) {l : LayerInfo} {s s' : Shape}
    (hs : outShape l s = some s') : 0 < waits f l ∧ waits f l ≤ 1 := by
  cases l with
  | averagePooling2D info =>
    have harea : (1 : K) ≤ ((info.poolSize.1 * info.poolSize.2 : ℕ) : K) := by
      exact_mod_cast poolCells_pos hs
    exact ⟨one_div_pos.2 (zero_lt_one.trans_le harea),
      (div_le_one (zero_lt_one.trans_le harea)).2 harea⟩
  | conv2D info => exact ⟨zero_lt_one, le_rfl⟩
  | dense info => exact ⟨zero_lt_one, le_rfl⟩
  | _ => exact hf

/-- A pooling takes its own divisor off the ratio. -/
theorem waits_pool {info : AveragePooling2DInfo} {f ρ : K} {s s' : Shape}
    (hs : outShape (.averagePooling2D info) s = some s') :
    waits f (.averagePooling2D info) * ((info.poolSize.1 * info.poolSize.2 : ℕ) * ρ) = ρ := by
  have harea : ((info.poolSize.1 * info.poolSize.2 : ℕ) : K) ≠ 0 :=
    Nat.cast_ne_zero.2 (poolCells_pos hs).ne'
  rw [waits, ← mul_assoc, one_div_mul_cancel harea, one_mul]

/-- A ratio of at least one stays, and a lost divisor makes it larger. -/
theorem turn_above {f ρ ρ' : K} (hf : 0 < f ∧ f ≤ 1) (h : 1 ≤ f * ρ) {l : LayerInfo} {s s' : Shape}
    (hs : outShape l s = some s') (ht : Turn f ρ ρ' l) :
    1 ≤ waits f l * ρ' ∧ (1 < f * ρ ∨ Breaks l ∧ f ≠ 1 → 1 < waits f l * ρ') := by
  have hρ : 0 < ρ := pos_of_mul_pos_right (zero_lt_one.trans_le h) hf.1.le
  have hle : f * ρ ≤ ρ := mul_le_of_le_one_left hρ.le hf.2
  have hlt : f ≠ 1 → f * ρ < ρ := fun hne =>
    mul_lt_of_lt_one_left hρ (lt_of_le_of_ne hf.2 hne)
  cases l with
  | averagePooling2D info =>
    obtain rfl : ρ' = _ := ht
    rw [waits_pool hs]
    exact ⟨h.trans hle, fun hor => hor.elim (fun h' => h'.trans_le hle) fun h' => h.trans_lt (hlt h'.2)⟩
  | activation name activation =>
    obtain ⟨d, hd, rfl⟩ := ht
    have hone : 1 ≤ ρ := h.trans hle
    have hpow : ρ * ρ ≤ ρ ^ d := by
      rw [← pow_two]
      exact pow_le_pow_right₀ hone hd
    have hgrow : f * ρ * ρ ≤ f * ρ ^ d := by
      rw [mul_assoc]
      exact mul_le_mul_of_nonneg_left hpow hf.1.le
    have hstay : f * ρ ≤ f * ρ * ρ := le_mul_of_one_le_right (zero_le_one.trans h) hone
    refine ⟨h.trans (hstay.trans hgrow), fun hor => ?_⟩
    rcases hor with h' | ⟨-, hne⟩
    · exact h'.trans_le (hstay.trans hgrow)
    · have hstrict : 1 < f * ρ * ρ := by
        calc 1 < ρ := h.trans_lt (hlt hne)
          _ = 1 * ρ := (one_mul ρ).symm
          _ ≤ f * ρ * ρ := mul_le_mul_of_nonneg_right h hρ.le
      exact hstrict.trans_le hgrow
  | conv2D info =>
    obtain rfl : ρ' = _ := ht
    simpa [waits, Breaks] using h
  | dense info =>
    obtain rfl : ρ' = _ := ht
    simpa [waits, Breaks] using h
  | _ =>
    obtain rfl : ρ' = _ := ht
    simpa [waits, Breaks] using h

/-- A ratio below one stays below one where no divisor is lost. -/
theorem turn_below {f ρ ρ' : K} (hf : 0 < f) (hρ : 0 < ρ) (h : f * ρ < 1) {l : LayerInfo}
    {s s' : Shape} (hs : outShape l s = some s') (hkept : ¬(Breaks l ∧ f ≠ 1)) (ht : Turn f ρ ρ' l) :
    0 < ρ' ∧ waits f l * ρ' < 1 := by
  have hone : Breaks l → f = 1 := fun hb => not_not.1 fun hne => hkept ⟨hb, hne⟩
  cases l with
  | averagePooling2D info =>
    obtain rfl : ρ' = _ := ht
    have hρ' := waits_pool (f := f) (ρ := ρ) hs
    have hw : 0 ≤ waits f (.averagePooling2D info) := by
      rw [waits]
      positivity
    rw [hρ']
    refine ⟨pos_of_mul_pos_right (hρ.trans_eq hρ'.symm) hw, ?_⟩
    rwa [hone trivial, one_mul] at h
  | activation name activation =>
    obtain ⟨d, hd, rfl⟩ := ht
    rw [hone trivial, one_mul] at h
    refine ⟨pow_pos hρ d, ?_⟩
    show f * ρ ^ d < 1
    rw [hone trivial, one_mul]
    exact pow_lt_one₀ hρ.le h (by omega)
  | conv2D info =>
    obtain rfl : ρ' = _ := ht
    exact ⟨mul_pos hf hρ, by rwa [waits, one_mul]⟩
  | dense info =>
    obtain rfl : ρ' = _ := ht
    exact ⟨mul_pos hf hρ, by rwa [waits, one_mul]⟩
  | _ =>
    obtain rfl : ρ' = _ := ht
    exact ⟨hρ, h⟩

section Run

variable {layers : List LayerInfo} {s s' : Shape}

/-- If a divisor is lost, the two networks are different polynomials. -/
theorem ratio_of_loses (hq : Quartic c) (hcell : ∀ l ∈ layers, Cellwise l)
    (hs : outShapes layers s = some s') (h : PoolPair o o') {ρ : K} {P Q : K[X]}
    (hr : LeadRatio ρ P Q) (hf : 0 < poolPart o' ∧ poolPart o' ≤ 1) (hρ : 1 ≤ poolPart o' * ρ)
    (hlost : 1 < poolPart o' * ρ ∨ Loses (poolPart o') layers) :
    (scalarRun c layers o P).2 ≠ (scalarRun c layers o' Q).2 := by
  induction layers generalizing o o' ρ P Q s with
  | nil =>
    have hpos : 0 < ρ := pos_of_mul_pos_right (zero_lt_one.trans_le hρ) hf.1.le
    have hle : poolPart o' * ρ ≤ ρ := mul_le_of_le_one_left hpos.le hf.2
    refine hr.ne (ne_of_gt ?_)
    rcases hlost with hlt | hne
    · exact hlt.trans_le hle
    · exact hρ.trans_lt (mul_lt_of_lt_one_left hpos (lt_of_le_of_ne hf.2 hne))
  | cons l layers ih =>
    obtain ⟨s1, hs1, hs⟩ := outShapes_cons.1 hs
    have hl := hcell l List.mem_cons_self
    obtain ⟨ρ', hr', ht⟩ := hr.turn hq h hs1 hl hf.1.ne'
    obtain ⟨hρ', hstrict⟩ := turn_above hf hρ hs1 ht
    have hw := h.waits hl (.units 0)
    refine ih (fun l' hl' => hcell l' (List.mem_cons_of_mem _ hl')) hs (h.after _ _ _) hr'
      (hw ▸ waits_bounds hf hs1) (hw ▸ hρ') ?_
    rw [hw]
    rcases hlost with hlt | hbreak | hlater
    · exact .inl (hstrict (.inl hlt))
    · exact .inl (hstrict (.inr hbreak))
    · exact .inr hlater

/-- If no divisor is lost from here on, but the ratio is below the one that waits, the two networks
are different polynomials. -/
theorem ratio_of_below (hq : Quartic c) (hcell : ∀ l ∈ layers, Cellwise l)
    (hs : outShapes layers s = some s') (h : PoolPair o o') {ρ : K} {P Q : K[X]}
    (hr : LeadRatio ρ P Q) (hf : 0 < poolPart o' ∧ poolPart o' ≤ 1) (hρ : 0 < ρ)
    (hlt : poolPart o' * ρ < 1) (hkept : ¬Loses (poolPart o') layers) :
    (scalarRun c layers o P).2 ≠ (scalarRun c layers o' Q).2 := by
  induction layers generalizing o o' ρ P Q s with
  | nil =>
    have hone : poolPart o' = 1 := not_not.1 hkept
    rw [hone, one_mul] at hlt
    exact hr.ne hlt.ne
  | cons l layers ih =>
    obtain ⟨s1, hs1, hs⟩ := outShapes_cons.1 hs
    have hl := hcell l List.mem_cons_self
    obtain ⟨hb, hlater⟩ := not_or.1 hkept
    obtain ⟨ρ', hr', ht⟩ := hr.turn hq h hs1 hl hf.1.ne'
    obtain ⟨hρ', hlt'⟩ := turn_below hf.1 hρ hlt hs1 hb ht
    have hw := h.waits hl (.units 0)
    exact ih (fun l' hl' => hcell l' (List.mem_cons_of_mem _ hl')) hs (h.after _ _ _) hr'
      (hw ▸ waits_bounds hf hs1) hρ' (hw ▸ hlt') (hw ▸ hlater)

end Run

end Ordered

end Cnn.Proof
