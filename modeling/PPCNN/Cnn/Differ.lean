import PPCNN.Cnn.Architecture
import PPCNN.Cnn.Proof.MachineNetwork
import PPCNN.Cnn.Proof.WeightFile
import PPCNN.Cnn.Proof.Ratio
import Mathlib.Algebra.CharZero.Infinite

/-!
# Weights that tell two networks apart

Two networks of one model, built with different options, are different as soon as their polynomials
on neutral weights are (`differ_of_scalar`), or those of the layers after a batch normalisation that
gives every cell its bias (`differ_of_reset`). `not_preserved_of_differ` takes such weights to
`BuildNetwork` and `predict`.
-/

set_option autoImplicit false

namespace Cnn

open Lib Keras Proof Polynomial

variable {K V : Type} [Field K]

/-! ## The option along a list -/

/-- The option after a list of layers without a global average. -/
def optionAlong (o : OptOption K) (layers : List LayerInfo) : OptOption K :=
  layers.foldl (fun o l => optionAfter id o (.units 0) (.single l)) o

theorem storedRun_option [LinearOrder K] [CommRing V] [Algebra K V] {c : Define K} {file : H5File K}
    {o : OptOption K} {layers : List LayerInfo} (hcell : ∀ l ∈ layers, Cellwise l) (v : Value V) :
    (storedRun c file (layers.map .single) o v).1 = optionAlong o layers := by
  induction layers generalizing o v with
  | nil => rfl
  | cons l layers ih =>
    rw [List.map_cons, storedRun_cons, optionAfter_cellwise (hcell l List.mem_cons_self) o _ (.units 0)]
    exact ih (fun l' h => hcell l' (List.mem_cons_of_mem _ h)) _

theorem cellwise_of_model {layers : List LayerInfo} {h w n units : ℕ}
    (hm : IsModel layers h w n units) (hgap : NoGlobalAverage layers) : ∀ l ∈ layers, Cellwise l := by
  intro l hl
  obtain ⟨pre, post, rfl⟩ := List.append_of_mem hl
  have hs := hm.shapes
  rw [outShapes_append] at hs
  obtain ⟨s1, -, hs⟩ := Option.bind_eq_some_iff.1 hs
  obtain ⟨s2, hs2, -⟩ := outShapes_cons.1 hs
  cases l with
  | globalAveragePooling2D name => exact absurd hl (hgap name)
  | other className => cases s1 <;> cases hs2
  | _ => trivial

/-! ## Stored layers -/

section Stored

variable [LinearOrder K] [IsStrictOrderedRing K] [CommRing V] [Algebra K V] {c : Define K}
  {layers : List LayerInfo}

/-- The two networks on the same input are different. -/
def Differ (c : Define K) (file : H5File K) (layers : List LayerInfo) (o o' : OptOption K)
    (v : Value V) : Prop :=
  (storedRun c file (layers.map .single) o v).2 ≠ (storedRun c file (layers.map .single) o' v).2

/-- On neutral weights different polynomials are different somewhere. -/
theorem differ_of_polynomials [Nontrivial V] (hε : c.epsilon = 0)
    (hvalid : ∀ l ∈ layers, ValidPool l) (hcell : ∀ l ∈ layers, Cellwise l) {o o' : OptOption K}
    (hne : (scalarRun c layers o (X : K[X])).2 ≠ (scalarRun c layers o' (X : K[X])).2) :
    ∃ x : K, ∀ file s units, s.Positive → outShapes layers s = some (.units units) →
      EveryLayer (Neutral c file) layers s →
      Differ c file layers o o' (s.const (algebraMap K V x)) := by
  obtain ⟨x, hx⟩ := exists_eval_ne hne
  refine ⟨x, fun file s units hpos hs hn => ?_⟩
  have hval : ∀ o : OptOption K, (scalarRun c layers o (algebraMap K V x)).2 =
      algebraMap K V ((scalarRun c layers o (X : K[X])).2.eval x) := by
    intro o
    have hmap := map_scalarRun c (aeval (algebraMap K V x)) layers o (X : K[X])
    rw [aeval_X] at hmap
    rw [hmap, aeval_algebraMap_apply_eq_algebraMap_eval]
  have hunits : 0 < units := outShapes_positive hpos hs
  unfold Differ
  rw [storedRun_const hε hvalid hcell hpos hs hn, storedRun_const hε hvalid hcell hpos hs hn, hval,
    hval]
  intro heq
  refine hx ((algebraMap K V).injective ?_)
  exact ((List.replicate_inj.1 (Value.units.inj heq)).2).resolve_left hunits.ne'

/-- Neutral weights and an image of equal cells. -/
theorem differ_of_scalar [Nontrivial V] (hε : c.epsilon = 0) {v : K}
    (hv : c.sqrt (v + c.bnEpsilon) ≠ 0) {h w n units : ℕ} (hm : IsModel layers h w n units)
    (hcell : ∀ l ∈ layers, Cellwise l) (hnames : DistinctNames layers) {o o' : OptOption K}
    (hpoly : (scalarRun c layers o (X : K[X])).2 ≠ (scalarRun c layers o' (X : K[X])).2) :
    ∃ file, ModelData file layers (.image h w n) ∧
      ∃ t : Tensor3 V, (t.height, t.width, t.channels) = (h, w, n) ∧
        Differ c file layers o o' (.image t) := by
  obtain ⟨x, hx⟩ := differ_of_polynomials (V := V) hε hm.validPool hcell hpoly
  obtain ⟨file, hfile⟩ := exists_file hv "" 1 0 hnames hm.shapes
  refine ⟨file, modelData_of (hfile.imp fun _ _ _ h => h.1), ⟨h, w, n, fun _ _ _ => algebraMap K V x⟩,
    rfl, hx file (.image h w n) units hm.positive hm.shapes (hfile.imp fun l _ s h => ?_)⟩
  have hneutral := h.2
  split at hneutral
  · rename_i hl
    rw [hl]
    exact hneutral
  · exact hneutral

omit [IsStrictOrderedRing K] in
/-- A batch normalisation of weight zero gives every cell its bias. -/
theorem stored_reset {file : H5File K} {name : String} {x : K} {v : Value V}
    (hbn : BnIs c file name v.shape 0 x) (o : OptOption K) :
    stored c file o (.single (.batchNormalization name)) v = v.shape.const (algebraMap K V x) := by
  refine Value.mapIdx_eq_const v.cells_true fun i hi y _ => ?_
  rw [affine, (hbn i hi).1, (hbn i hi).2, zero_smul, zero_add]

/-- Neutral weights but for one batch normalisation, which gives every cell its bias: the networks
differ if the layers after it do. -/
theorem differ_of_reset [Nontrivial V] (hε : c.epsilon = 0) {v : K}
    (hv : c.sqrt (v + c.bnEpsilon) ≠ 0) {h w n units : ℕ} {pre post : List LayerInfo} {name : String}
    (hm : IsModel (pre ++ .batchNormalization name :: post) h w n units)
    (hcell : ∀ l ∈ pre ++ .batchNormalization name :: post, Cellwise l)
    (hnames : DistinctNames (pre ++ .batchNormalization name :: post)) {o o' : OptOption K}
    (hpoly : (scalarRun c post (descend (optionAlong o pre) 1) (X : K[X])).2 ≠
      (scalarRun c post (descend (optionAlong o' pre) 1) (X : K[X])).2) :
    ∃ file, ModelData file (pre ++ .batchNormalization name :: post) (.image h w n) ∧
      ∃ t : Tensor3 V, (t.height, t.width, t.channels) = (h, w, n) ∧
        Differ c file (pre ++ .batchNormalization name :: post) o o' (.image t) := by
  have hs := hm.shapes
  rw [outShapes_append] at hs
  obtain ⟨s1, hs1, hs⟩ := Option.bind_eq_some_iff.1 hs
  obtain ⟨s2, hs2, hspost⟩ := outShapes_cons.1 hs
  obtain rfl : s1 = s2 := Option.some.inj hs2
  have hcellpre : ∀ l ∈ pre, Cellwise l := fun l hl => hcell l (List.mem_append_left _ hl)
  have hcellpost : ∀ l ∈ post, Cellwise l := fun l hl =>
    hcell l (List.mem_append_right _ (List.mem_cons_of_mem _ hl))
  have hvalidpost : ∀ l ∈ post, ValidPool l := fun l hl =>
    hm.validPool l (List.mem_append_right _ (List.mem_cons_of_mem _ hl))
  obtain ⟨x, hx⟩ := differ_of_polynomials (V := V) hε hvalidpost hcellpost hpoly
  obtain ⟨file, hfile⟩ := exists_file hv name 0 x hnames hm.shapes
  have hlater := hfile.append hs1
  have hbn : BnIs c file name s1 0 x := (if_pos rfl).mp hlater.1.2
  have hnew : ∀ l ∈ post, l ≠ .batchNormalization name := by
    rintro l hl rfl
    rw [DistinctNames, List.filterMap_append, List.nodup_append] at hnames
    exact (List.nodup_cons.1 hnames.2.1).1 (List.mem_filterMap.2 ⟨_, hl, rfl⟩)
  have hneutral : EveryLayer (Neutral c file) post s1 :=
    (hlater.2 s1 rfl).imp fun l hl s h => (if_neg (hnew l hl)).mp h.2
  refine ⟨file, modelData_of (hfile.imp fun _ _ _ h => h.1), ⟨h, w, n, fun _ _ _ => 0⟩, rfl, ?_⟩
  -- up to the batch normalisation the values do not matter
  have hrun : ∀ o : OptOption K, (storedRun c file
      ((pre ++ .batchNormalization name :: post).map .single) o
        (.image ⟨h, w, n, fun _ _ _ => (0 : V)⟩)).2 =
      (storedRun c file (post.map .single) (descend (optionAlong o pre) 1)
        (s1.const (algebraMap K V x))).2 := by
    intro o
    let input : Value V := .image ⟨h, w, n, fun _ _ _ => 0⟩
    have hshape : (storedRun c file (pre.map .single) o input).2.shape = s1 :=
      storedRun_shape ((callShapes_buildCalls false pre (.image h w n)).trans hs1)
    have hoption : (storedRun c file (pre.map .single) o input).1 = optionAlong o pre :=
      storedRun_option hcellpre input
    rw [List.map_append, storedRun_append, List.map_cons]
    generalize storedRun c file (pre.map .single) o input = p at *
    obtain ⟨o1, v1⟩ := p
    obtain rfl : o1 = optionAlong o pre := hoption
    obtain rfl : v1.shape = s1 := hshape
    show (storedRun c file (post.map .single) (descend (optionAlong o pre) 1)
      (stored c file (optionAlong o pre) (.single (.batchNormalization name)) v1)).2 = _
    rw [stored_reset (V := V) hbn]
  unfold Differ
  rw [hrun, hrun]
  exact hx file s1 units (outShapes_positive hm.positive hs1) hspost hneutral

end Stored

/-! ## Built networks -/

section Built

variable [LinearOrder K]

variable (V) in
/-- Whatever the weights, if the networks with two options are built, they return the same on every
input. -/
def SameOutputs [CommRing V] [Algebra K V] (arith : IntArith) (c : Define K) (layers : List LayerInfo)
    (h w n : ℕ) (o o' : OptOption K) : Prop :=
  ∀ (file : H5File K) (network network' : List (Layer K)) (st st' : BuildState K),
    ModelData file layers (.image h w n) →
    buildNetwork ⟨.exact V, arith, c⟩ file layers .fresh o = .ok (network, st) →
    buildNetwork ⟨.exact V, arith, c⟩ file layers .fresh o' = .ok (network', st') →
    ∀ input : Tensor3 V, (input.height, input.width, input.channels) = (h, w, n) →
      predict (.exact V) arith st'.option network' input =
        predict (.exact V) arith st.option network input

/-- Each activation can be built and evaluated. -/
def Evaluates (o : OptOption K) (layers : List LayerInfo) : Prop :=
  ∀ name activation, .activation name activation ∈ layers →
    Registered o activation ∧ Dispatches o activation

variable [CommRing V] [Algebra K V] {c : Define K} {layers : List LayerInfo} {h w n units : ℕ}

/-- Machine integers keep the outputs apart, or together. -/
theorem sameOutputs_lp64 (hm : IsModel layers h w n units) (hbelow : ExtentsBelow layers h w)
    {o o' : OptOption K} :
    SameOutputs V .lp64 c layers h w n o o' ↔ SameOutputs V .unbounded c layers h w n o o' := by
  constructor
  · intro hsame file network network' st st' hdata hbuild hbuild' input hdims
    obtain ⟨machine, hmachine, hpredict⟩ := lp64_of_unbounded hm hbelow hbuild
    obtain ⟨machine', hmachine', hpredict'⟩ := lp64_of_unbounded hm hbelow hbuild'
    rw [← hpredict, ← hpredict']
    exact hsame file machine machine' st st' hdata hmachine hmachine' input hdims
  · intro hsame file network network' st st' hdata hbuild hbuild' input hdims
    obtain ⟨exact, hexact, hpredict⟩ := unbounded_of_lp64 hm hbelow hbuild
    obtain ⟨exact', hexact', hpredict'⟩ := unbounded_of_lp64 hm hbelow hbuild'
    rw [hpredict, hpredict']
    exact hsame file exact exact' st st' hdata hexact hexact' input hdims

/-- Networks that differ in their stored layers return different outputs. -/
theorem not_preserved_of_differ (hm : IsModel layers h w n units) {o o' : OptOption K}
    (hfuse : o.enableFuseLayers = false) (hfuse' : o'.enableFuseLayers = false)
    (hact : Evaluates o layers) (hact' : Evaluates o' layers) {file : H5File K}
    (hdata : ModelData file layers (.image h w n)) {t : Tensor3 V}
    (hdims : (t.height, t.width, t.channels) = (h, w, n))
    (hdiffer : Differ c file layers o o' (.image t)) : ¬SameOutputs V .unbounded c layers h w n o o' := by
  intro hpres
  have hrun : ∀ o : OptOption K, o.enableFuseLayers = false → Evaluates o layers →
      ∃ network st u, buildNetwork ⟨.exact V, .unbounded, c⟩ file layers .fresh o = .ok (network, st) ∧
        predict (.exact V) .unbounded st.option network t = .ok u ∧
        (storedRun c file (layers.map .single) o (.image t)).2 = .units u := by
    intro o hfuse hact
    obtain ⟨⟨network, st⟩, hbuild⟩ := buildNetwork_succeeds (V := V) (c := c) hm hdata
      (fun name activation hmem => (hact name activation hmem).1)
      fun hf => absurd (hfuse.symm.trans hf) Bool.false_ne_true
    obtain ⟨-, y, u, σ, hy, hu, hrep⟩ := predict_stored (I := exactInterp K V) hm hbuild hdims
      (repImage_exact t _ 1) (fun name activation hmem => (hact name activation hmem).2)
      fun _ _ => trivial
    obtain rfl := repUnits_exact hrep
    rw [hfuse] at hu
    exact ⟨network, st, y, hbuild, hy, hu⟩
  obtain ⟨network, st, u, hbuild, hu, hstored⟩ := hrun o hfuse hact
  obtain ⟨network', st', u', hbuild', hu', hstored'⟩ := hrun o' hfuse' hact'
  have hsame := hpres file network network' st st' hdata hbuild hbuild' t hdims
  rw [hu, hu'] at hsame
  refine hdiffer ?_
  rw [hstored, hstored', Except.ok.inj hsame]

end Built

end Cnn
