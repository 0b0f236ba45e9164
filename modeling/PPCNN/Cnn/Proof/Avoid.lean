import PPCNN.Cnn.Network
import PPCNN.Cnn.Proof.Forward

/-!
# Errors that `predict` does not end with

A layer ends with an error only if one of its accesses is outside its array, or an operation of SEAL
ends with it (`avoids_predictLayer`). The plaintexts a layer passes to `multiply_plain` are its
`Multiplicand`s; what its accesses need of the current value is `InBounds`.
-/

set_option autoImplicit false

namespace Cnn.Proof

open Lib

variable {K Pt Ct : Type}

/-- The plaintexts the `forward` of a layer passes to `multiply_plain`. -/
def Multiplicand (o : OptOption K) (layer : Layer Pt) (p : Pt) : Prop :=
  match layer with
  | .conv2D l => ∃ i j ic oc, p = l.plainFilters i j ic oc
  | .averagePooling2D l => o.enableOptimizePooling = false ∧ l.plainMulFactor = some p
  | .batchNormalization l => p ∈ l.plainWeights
  | .flatten _ => False
  | .dense l => ∃ i ou, p = l.plainWeights i ou
  | .activation l => l.activation ≠ squareName ∧
    ∃ i < if o.enableOptimizeActivation then 2 else 3, l.plainPolyCoeffs[i]? = some p
  | .globalAveragePooling2D _ => False

/-- The coefficients the branch of `activate` reads are there. -/
def CoeffsFit (o : OptOption K) (l : Activation Pt) : Prop :=
  l.activation = squareName ∨
    l.plainPolyCoeffs.length = if o.enableOptimizeActivation then 3 else 4

/-- The accesses of a layer are inside the current value and the layer's own vectors. -/
def InBounds (o : OptOption K) (layer : Layer Pt) (v : PredictState Ct) : Prop :=
  match layer with
  | .conv2D l => ∀ t, v.encrypted3d = some t →
    (l.inHeight, l.inWidth, l.inChannels) = (t.height, t.width, t.channels)
  | .averagePooling2D l => ∀ t, v.encrypted3d = some t →
    (l.inHeight, l.inWidth, l.inChannels) = (t.height, t.width, t.channels)
  | .batchNormalization l =>
    (v.inputDim = 1 → ∀ i < v.encryptedUnits.length,
      i < l.plainWeights.length ∧ i < l.plainBiases.length) ∧
    (v.inputDim ≠ 1 → ∀ t, v.encrypted3d = some t → ∀ i < t.channels,
      i < l.plainWeights.length ∧ i < l.plainBiases.length)
  | .flatten l => ∀ t, v.encrypted3d = some t →
    (l.inHeight, l.inWidth, l.inChannels) = (t.height, t.width, t.channels)
  | .dense l => v.encryptedUnits.length = l.inUnits
  | .activation l => CoeffsFit o l
  | .globalAveragePooling2D l => l.outUnits = l.inChannels ∧ ∀ t, v.encrypted3d = some t →
    (l.inHeight, l.inWidth, l.inChannels) = (t.height, t.width, t.channels) ∧
      0 < t.height ∧ 0 < t.width

/-- The operations of SEAL do not end with the error, apart from `multiply_plain`. -/
structure Avoiding (e : Error) (ev : Evaluator K Pt Ct) : Prop where
  unassigned : Error.unassigned ≠ e
  modSwitch : ∀ x, Avoids e (ev.modSwitch x)
  add : ∀ x y, Avoids e (ev.add x y)
  addPlain : ∀ x p, Avoids e (ev.addPlain x p)
  square : ∀ x, Avoids e (ev.square x)
  relinearize : ∀ x, Avoids e (ev.relinearize x)
  rescale : ∀ x, Avoids e (ev.rescale x)

/-! ## Accesses -/

section Accesses

variable {e : Error} {α : Type}

theorem avoids_readVector {v : List α} {i : ℕ} (h : Error.outOfRange ≠ e ∨ i < v.length) :
    Avoids e (readVector v i) := by
  unfold readVector
  cases hi : v[i]? with
  | some x => exact avoids_ok e x
  | none =>
    rw [List.getElem?_eq_none_iff] at hi
    exact avoids_error (h.resolve_right (by omega))

theorem mem_of_readVector {v : List α} {i : ℕ} {x : α} (h : readVector v i = .ok x) : x ∈ v := by
  unfold readVector at h
  split at h
  · rename_i y hy
    cases h
    exact List.mem_of_getElem? hy
  · cases h

theorem avoids_read {t : Tensor3 α} {y x : ℤ} {c : ℕ} (h : Error.outOfRange ≠ e ∨
      ((0 ≤ y ∧ y.toNat < t.height) ∧ (0 ≤ x ∧ x.toNat < t.width) ∧ c < t.channels)) :
    Avoids e (t.read y x c) := by
  unfold Tensor3.read
  split
  · exact avoids_ok e _
  · rename_i hin
    exact avoids_error (h.resolve_right hin)

theorem avoids_build {h w n : ℕ} {f : Fin h → Fin w → Fin n → Except Error α}
    (hf : ∀ i j k, Avoids e (f i j k)) : Avoids e (Tensor3.build h w n f) :=
  (avoids_seqFin fun i => avoids_seqFin fun j => avoids_seqFin fun k => hf i j k).bind
    fun _ _ => avoids_ok _ _

end Accesses

section Operations

variable {e : Error} {ev : Evaluator K Pt Ct} (hev : Avoiding e ev)
include hev

theorem avoids_assigned {α : Type} (out : Option α) : Avoids e (Evaluator.assigned out) := by
  cases out with
  | none => exact avoids_error hev.unassigned
  | some y => exact avoids_ok _ y

theorem avoids_assignOrAdd (first : Bool) (out : Option Ct) (x : Ct) :
    Avoids e (ev.assignOrAdd first out x) := by
  unfold Evaluator.assignOrAdd Evaluator.addInplace
  split
  · exact avoids_ok _ _
  · cases out with
    | none => exact avoids_error hev.unassigned
    | some y => exact (hev.add y x).bind fun _ _ => avoids_ok _ _

theorem avoids_finishLinear (out : Option Ct) (p : Pt) : Avoids e (finishLinear ev out p) :=
  (avoids_assigned hev out).bind fun y _ => (hev.rescale y).bind fun _ _ => hev.addPlain _ p

/-! ## Layers -/

theorem avoids_conv2D {A : IntArith} {l : Conv2D Pt} {t : Tensor3 Ct}
    (hmul : ∀ i j ic oc x, Avoids e (ev.multiplyPlain x (l.plainFilters i j ic oc)))
    (h : Error.outOfRange ≠ e ∨
      (l.inHeight, l.inWidth, l.inChannels) = (t.height, t.width, t.channels)) :
    Avoids e (l.forward ev A t) := by
  refine avoids_build fun oh ow oc => (avoids_foldlM (fun acc p => ?_) _ _).bind fun acc _ =>
    avoids_finishLinear hev _ _
  unfold Conv2D.tap
  dsimp only
  split
  · exact avoids_ok _ _
  · rename_i hin
    have hin := isOutOfRangeInput_iff.1 (Bool.not_eq_true _ ▸ hin)
    refine (avoids_foldlM (fun out ic => ?_) _ _).bind fun _ _ => avoids_ok _ _
    refine (avoids_read (h.imp_right fun h => ?_)).bind fun x _ =>
      (hmul p.1 p.2 ic oc x).bind fun y _ => avoids_assignOrAdd hev _ out y
    simp only [Prod.mk.injEq] at h
    obtain ⟨hh, hw, hc⟩ := h
    exact ⟨hh ▸ hin.1, hw ▸ hin.2, hc ▸ ic.isLt⟩

theorem avoids_averagePooling2D {A : IntArith} {l : AveragePooling2D Pt} {o : OptOption K}
    {t : Tensor3 Ct}
    (hmul : ∀ p, o.enableOptimizePooling = false → l.plainMulFactor = some p →
      ∀ x, Avoids e (ev.multiplyPlain x p))
    (h : Error.outOfRange ≠ e ∨
      (l.inHeight, l.inWidth, l.inChannels) = (t.height, t.width, t.channels)) :
    Avoids e (l.forward ev A o t) := by
  refine avoids_build fun oh ow oc => (avoids_foldlM (fun out p => ?_) _ _).bind fun out _ => ?_
  · unfold AveragePooling2D.tap
    dsimp only
    split
    · exact avoids_ok _ _
    · rename_i hin
      have hin := isOutOfRangeInput_iff.1 (Bool.not_eq_true _ ▸ hin)
      refine (avoids_read (h.imp_right fun h => ?_)).bind fun x _ =>
        avoids_assignOrAdd hev _ out x
      simp only [Prod.mk.injEq] at h
      obtain ⟨hh, hw, hc⟩ := h
      exact ⟨hh ▸ hin.1, hw ▸ hin.2, hc ▸ oc.isLt⟩
  · split
    · exact avoids_assigned hev out
    · rename_i hopt
      refine (avoids_assigned hev out).bind fun x _ => ?_
      cases hfactor : l.plainMulFactor with
      | none => exact avoids_error hev.unassigned
      | some p =>
        exact (hmul p (Bool.not_eq_true _ ▸ hopt) hfactor x).bind fun y _ => hev.rescale y

theorem avoids_batchNormalization {l : BatchNormalization Pt} {i : ℕ}
    (hmul : ∀ p ∈ l.plainWeights, ∀ x, Avoids e (ev.multiplyPlain x p))
    (h : Error.outOfRange ≠ e ∨ i < l.plainWeights.length ∧ i < l.plainBiases.length) (x : Ct) :
    Avoids e (l.apply ev i x) := by
  refine (avoids_readVector (h.imp_right And.left)).bind fun p hp => ?_
  exact (hmul p (mem_of_readVector hp) x).bind fun y _ => (hev.rescale y).bind fun _ _ =>
    (avoids_readVector (h.imp_right And.right)).bind fun b _ => hev.addPlain _ b

theorem avoids_dense {l : Dense Pt} {u : List Ct}
    (hmul : ∀ i ou x, Avoids e (ev.multiplyPlain x (l.plainWeights i ou)))
    (h : Error.outOfRange ≠ e ∨ u.length = l.inUnits) : Avoids e (l.forward ev u) := by
  refine (avoids_seqFin fun ou => (avoids_foldlM (fun out iu => ?_) _ _).bind fun out _ =>
    avoids_finishLinear hev _ _).bind fun _ _ => avoids_ok _ _
  exact (avoids_readVector (h.imp_right fun h => h.symm ▸ iu.isLt)).bind fun x _ =>
    (hmul iu ou x).bind fun y _ => avoids_assignOrAdd hev _ out y

theorem avoids_globalAverage {l : GlobalAveragePooling2D} {t : Tensor3 Ct}
    (h : Error.outOfRange ≠ e ∨ l.outUnits = l.inChannels ∧
      (l.inHeight, l.inWidth, l.inChannels) = (t.height, t.width, t.channels) ∧
        0 < t.height ∧ 0 < t.width) :
    Avoids e (l.flatten ev t) := by
  refine (avoids_seqFin fun ou => ?_).bind fun _ _ => avoids_ok _ _
  have hread : ∀ i j : ℕ, i < l.inHeight ∨ i = 0 → j < l.inWidth ∨ j = 0 →
      Avoids e (t.read (i : ℕ) (j : ℕ) ou) := by
    intro i j hi hj
    refine avoids_read (h.imp_right fun h => ?_)
    obtain ⟨hunits, hdims, hpos⟩ := h
    simp only [Prod.mk.injEq] at hdims
    have hou := ou.isLt
    omega
  refine (hread 0 0 (.inr rfl) (.inr rfl)).bind fun first _ => avoids_foldlM (fun out p => ?_) _ _
  split
  · exact (hread p.1 p.2 (.inl p.1.isLt) (.inl p.2.isLt)).bind fun x _ => hev.add out x
  · exact avoids_ok _ _

theorem avoids_activate {l : Activation Pt} {o : OptOption K}
    (hmul : ∀ p, Multiplicand o (.activation l) p → ∀ x, Avoids e (ev.multiplyPlain x p))
    (h : Error.outOfRange ≠ e ∨ CoeffsFit o l) (x : Ct) : Avoids e (l.activate ev o x) := by
  have hsquare : ∀ x, Avoids e (Activation.squareRelin ev x) := fun x =>
    (hev.square x).bind fun y _ => hev.relinearize y
  unfold Activation.activate
  split
  · exact (hsquare x).bind fun y _ => hev.rescale y
  · rename_i hname
    -- a coefficient is read, and the product with it does not end with the error
    have hcoeff : ∀ i < (if o.enableOptimizeActivation then 3 else 4),
        Avoids e (readVector l.plainPolyCoeffs i) := fun i hi =>
      avoids_readVector (h.imp_right fun h => by rw [h.resolve_left hname]; exact hi)
    have hproduct : ∀ i < (if o.enableOptimizeActivation then 2 else 3), ∀ p,
        readVector l.plainPolyCoeffs i = .ok p → ∀ x, Avoids e (ev.multiplyPlain x p) := by
      intro i hi p hp
      refine hmul p ⟨hname, i, hi, ?_⟩
      unfold readVector at hp
      split at hp
      · rename_i q hq
        cases hp
        exact hq
      · cases hp
    split
    · rename_i hopt
      rw [if_pos hopt] at hcoeff hproduct
      exact (hsquare x).bind fun x2 _ => (hev.rescale _).bind fun x2 _ => (hsquare x2).bind fun x4 _ =>
        (hev.modSwitch x).bind fun x _ => (hcoeff 0 (by decide)).bind fun b hb =>
        (hproduct 0 (by decide) b hb _).bind fun bx2 _ => (hcoeff 1 (by decide)).bind fun c hc =>
        (hproduct 1 (by decide) c hc _).bind fun cx _ => (hev.add _ _).bind fun y _ =>
        (hev.add y _).bind fun y _ => (hev.rescale y).bind fun y _ =>
        (hcoeff 2 (by decide)).bind fun d _ => hev.addPlain _ d
    · rename_i hopt
      rw [if_neg hopt] at hcoeff hproduct
      exact (hsquare x).bind fun x2 _ => (hev.rescale _).bind fun x2 _ => (hsquare x2).bind fun x4 _ =>
        (hev.rescale _).bind fun x4 _ => (hev.modSwitch x2).bind fun x2 _ =>
        (hev.modSwitch x).bind fun x _ => (hev.modSwitch x).bind fun x _ =>
        (hcoeff 0 (by decide)).bind fun a ha => (hproduct 0 (by decide) a ha _).bind fun ax4 _ =>
        (hcoeff 1 (by decide)).bind fun b hb => (hproduct 1 (by decide) b hb _).bind fun bx2 _ =>
        (hcoeff 2 (by decide)).bind fun c hc => (hproduct 2 (by decide) c hc _).bind fun cx _ =>
        (hev.add _ _).bind fun y _ => (hev.add y _).bind fun y _ => (hev.rescale y).bind fun y _ =>
        (hcoeff 3 (by decide)).bind fun d _ => hev.addPlain _ d

end Operations

theorem avoids_flatten {e : Error} {l : Flatten} {t : Tensor3 Ct} (h : Error.outOfRange ≠ e ∨
      (l.inHeight, l.inWidth, l.inChannels) = (t.height, t.width, t.channels)) :
    Avoids e (l.flatten t) := by
  refine (avoids_build fun i j k => avoids_read (h.imp_right fun h => ?_)).bind
    fun _ _ => avoids_ok _ _
  simp only [Prod.mk.injEq] at h
  have hi := i.isLt
  have hj := j.isLt
  have hk := k.isLt
  omega

/-! ## The loop of `predict` -/

theorem assigned_eq_ok {α : Type} {out : Option α} {x : α} (h : Evaluator.assigned out = .ok x) :
    out = some x := by
  cases out with
  | none => cases h
  | some y =>
    cases h
    rfl

/-- A layer whose accesses are in bounds avoids an error that its operations avoid. -/
theorem avoids_predictLayer {e : Error} {ev : Evaluator K Pt Ct} (hev : Avoiding e ev)
    {A : IntArith} {o : OptOption K} {layer : Layer Pt} {v : PredictState Ct}
    (hmul : ∀ p, Multiplicand o layer p → ∀ x, Avoids e (ev.multiplyPlain x p))
    (h : Error.outOfRange ≠ e ∨ InBounds o layer v) : Avoids e (predictLayer ev A o layer v) := by
  cases layer with
  | conv2D l =>
    refine (avoids_assigned hev _).bind fun t ht => (avoids_conv2D hev ?_ ?_).bind
      fun _ _ => avoids_ok _ _
    · exact fun i j ic oc => hmul _ ⟨i, j, ic, oc, rfl⟩
    · exact h.imp_right fun h => h t (assigned_eq_ok ht)
  | averagePooling2D l =>
    refine (avoids_assigned hev _).bind fun t ht => (avoids_averagePooling2D hev ?_ ?_).bind
      fun _ _ => avoids_ok _ _
    · exact fun p hopt hp => hmul p ⟨hopt, hp⟩
    · exact h.imp_right fun h => h t (assigned_eq_ok ht)
  | batchNormalization l =>
    simp only [predictLayer]
    split
    · rename_i hdim
      exact ((avoids_seqFin fun i => avoids_batchNormalization hev hmul
        (h.imp_right fun h => h.1 hdim i i.isLt) _).bind fun _ _ => avoids_ok _ _).bind
          fun _ _ => avoids_ok _ _
    · rename_i hdim
      refine (avoids_assigned hev _).bind fun t ht => (avoids_build fun i j k => ?_).bind
        fun _ _ => avoids_ok _ _
      exact avoids_batchNormalization hev hmul
        (h.imp_right fun h => h.2 hdim t (assigned_eq_ok ht) k k.isLt) _
  | flatten l =>
    exact (avoids_assigned hev _).bind fun t ht => (avoids_flatten
      (h.imp_right fun h => h t (assigned_eq_ok ht))).bind fun _ _ => avoids_ok _ _
  | dense l =>
    exact (avoids_dense hev (fun i ou => hmul _ ⟨i, ou, rfl⟩) h).bind fun _ _ => avoids_ok _ _
  | activation l =>
    simp only [predictLayer]
    split
    · exact ((avoids_seqFin fun i => avoids_activate hev hmul h _).bind
        fun _ _ => avoids_ok _ _).bind fun _ _ => avoids_ok _ _
    · exact (avoids_assigned hev _).bind fun t _ =>
        (avoids_build fun i j k => avoids_activate hev hmul h _).bind fun _ _ => avoids_ok _ _
  | globalAveragePooling2D l =>
    exact (avoids_assigned hev _).bind fun t ht => (avoids_globalAverage hev
      (h.imp_right fun h => ⟨h.1, h.2 t (assigned_eq_ok ht)⟩)).bind fun _ _ => avoids_ok _ _

/-- A network avoids an error that is no array access and that its operations avoid. -/
theorem avoids_predict {e : Error} {ev : Evaluator K Pt Ct} (hev : Avoiding e ev)
    (hrange : Error.outOfRange ≠ e) (A : IntArith) {o : OptOption K} {network : List (Layer Pt)}
    (hmul : ∀ layer ∈ network, ∀ p, Multiplicand o layer p → ∀ x, Avoids e (ev.multiplyPlain x p))
    (input : Tensor3 Ct) : Avoids e (predict ev A o network input) := by
  have hlayers : ∀ v : PredictState Ct, Avoids e (predictLayers ev A o network v) := by
    induction network with
    | nil => exact fun v => avoids_ok _ v
    | cons layer network ih =>
      intro v
      exact (avoids_predictLayer hev (hmul layer List.mem_cons_self) (.inl hrange)).bind
        fun v' _ => ih (fun l hl => hmul l (List.mem_cons_of_mem layer hl)) v'
  exact (hlayers _).bind fun _ _ => avoids_ok _ _

end Cnn.Proof
