import PPCNN.Cnn.Pooling
import PPCNN.Cnn.Differ

/-!
# The layer orders that optimised pooling preserves

`optPooling_iff`: they are those of `PoolsTaken`. On any other order some weights tell the two
networks apart. If the divisor meets a layer that is not linear, another pooling or the end, neutral
weights do: the leading coefficients differ (`ratio_of_loses`). If it only meets batch
normalisations, one of them does, with weight zero and a bias (`ratio_of_below`).
-/

set_option autoImplicit false

namespace Cnn

open Lib Keras Proof Polynomial

variable {K V : Type} [Field K]

/-! ## Where a divisor is lost -/

theorem one_div_area [CharZero K] (area : ℕ) : 1 / (area : K) = 1 ↔ area = 1 := by
  rw [one_div, inv_eq_one, Nat.cast_eq_one]

/-- A divisor that no linear layer takes at once is lost, or meets a batch normalisation and is not
lost later. -/
theorem loses_or_normalized [CharZero K] {layers : List LayerInfo}
    (hcell : ∀ l ∈ layers, Cellwise l) {f : K}
    (h : ¬((f = 1 ∨ takesPool layers = true) ∧ PoolsTaken layers)) :
    Loses f layers ∨ ∃ pre name post, layers = pre ++ .batchNormalization name :: post ∧
      pre.foldl waits f ≠ 1 ∧ ¬Loses (pre.foldl waits f) post := by
  induction layers generalizing f with
  | nil => exact .inl fun hf => h ⟨.inl hf, trivial⟩
  | cons l layers ih =>
    have hlater : ¬((waits f l = 1 ∨ takesPool layers = true) ∧ PoolsTaken layers) →
        Loses f (l :: layers) ∨ ∃ pre name post,
          l :: layers = pre ++ .batchNormalization name :: post ∧
          pre.foldl waits f ≠ 1 ∧ ¬Loses (pre.foldl waits f) post := by
      intro hne
      rcases ih (fun l' hl' => hcell l' (List.mem_cons_of_mem _ hl')) hne with
        hl | ⟨pre, name, post, rfl, hpre⟩
      · exact .inl (.inr hl)
      · exact .inr ⟨l :: pre, name, post, rfl, hpre⟩
    cases l with
    | conv2D info => exact hlater fun ht => h ⟨.inr rfl, ht.2⟩
    | dense info => exact hlater fun ht => h ⟨.inr rfl, ht.2⟩
    | averagePooling2D info =>
      by_cases hf : f = 1
      · refine hlater fun ht => h ⟨.inl hf, ?_, ht.2⟩
        exact ht.1.imp_left (one_div_area _).1
      · exact .inl (.inl ⟨trivial, hf⟩)
    | batchNormalization name =>
      by_cases hf : f = 1
      · exact hlater fun ht => h ⟨.inl hf, ht.2⟩
      · by_cases hl : Loses f layers
        · exact .inl (.inr hl)
        · exact .inr ⟨[], name, layers, rfl, hf, hl⟩
    | flatten name => exact hlater h
    | activation name activation =>
      by_cases hf : f = 1
      · exact hlater fun ht => h ⟨.inl hf, ht.2⟩
      · exact .inl (.inl ⟨trivial, hf⟩)
    | globalAveragePooling2D name => exact absurd (hcell _ List.mem_cons_self) id
    | other className => exact absurd (hcell _ List.mem_cons_self) id

/-! ## The option along a list -/

section Along

variable {o o' : OptOption K} {layers : List LayerInfo}

theorem poolPair_along (h : PoolPair o o') : PoolPair (optionAlong o layers) (optionAlong o' layers) := by
  induction layers generalizing o o' with
  | nil => exact h
  | cons l layers ih => exact ih (h.after _ _ _)

theorem poolPart_along (h : PoolPair o o') (hcell : ∀ l ∈ layers, Cellwise l) :
    poolPart (optionAlong o' layers) = layers.foldl waits (poolPart o') := by
  induction layers generalizing o o' with
  | nil => rfl
  | cons l layers ih =>
    rw [List.foldl_cons, ← h.waits (hcell l List.mem_cons_self) (.units 0)]
    exact ih (h.after (.units 0) _ _) fun l' hl' => hcell l' (List.mem_cons_of_mem _ hl')

theorem waits_along [LinearOrder K] [IsStrictOrderedRing K] {f : K} (hf : 0 < f ∧ f ≤ 1) {s s' : Shape}
    (hs : outShapes layers s = some s') :
    0 < layers.foldl waits f ∧ layers.foldl waits f ≤ 1 := by
  induction layers generalizing f s with
  | nil => exact hf
  | cons l layers ih =>
    obtain ⟨s1, hs1, hs⟩ := outShapes_cons.1 hs
    exact ih (waits_bounds hf hs1) hs

end Along

section Differ

variable [LinearOrder K] [IsStrictOrderedRing K] {c : Define K}

/-- If a divisor waits before a batch normalisation and is not lost later, the layers after it are
different polynomials of its bias. -/
theorem ratio_of_normalized (hq : Quartic c) {pre post : List LayerInfo} {name : String} {s s' : Shape}
    (hs : outShapes (pre ++ .batchNormalization name :: post) s = some s')
    (hcell : ∀ l ∈ pre ++ .batchNormalization name :: post, Cellwise l) {o o' : OptOption K}
    (ho : PoolPair o o') (hstart : poolPart o' = 1) (hpre : pre.foldl waits (1 : K) ≠ 1)
    (hkept : ¬Loses (pre.foldl waits (1 : K)) post) :
    (scalarRun c post (descend (optionAlong o pre) 1) (X : K[X])).2 ≠
      (scalarRun c post (descend (optionAlong o' pre) 1) (X : K[X])).2 := by
  rw [outShapes_append] at hs
  obtain ⟨s1, hs1, hs⟩ := Option.bind_eq_some_iff.1 hs
  obtain ⟨s2, -, hspost⟩ := outShapes_cons.1 hs
  have hcellpre : ∀ l ∈ pre, Cellwise l := fun l hl => hcell l (List.mem_append_left _ hl)
  have hcellpost : ∀ l ∈ post, Cellwise l := fun l hl =>
    hcell l (List.mem_append_right _ (List.mem_cons_of_mem _ hl))
  have hpair : PoolPair (descend (optionAlong o pre) 1) (descend (optionAlong o' pre) 1) :=
    (poolPair_along ho).after (.units 0) (.units 0) (.single (.batchNormalization name))
  have hpart : poolPart (descend (optionAlong o' pre) 1) = pre.foldl waits (1 : K) := by
    rw [poolPart_descend, poolPart_along ho hcellpre, hstart]
  have hbounds := waits_along (f := (1 : K)) ⟨zero_lt_one, le_rfl⟩ hs1
  exact ratio_of_below hq hcellpost hspost hpair .var (hpart ▸ hbounds) zero_lt_one
    (by rw [mul_one, hpart]; exact lt_of_le_of_ne hbounds.2 hpre) (hpart ▸ hkept)

end Differ

/-! ## The layer orders -/

section Orders

variable [LinearOrder K]

variable (V) in
/-- Whatever the weights, the networks built at `NO_OPT` and at `OPT_POOLING` return the same on every
input. -/
def PoolingPreserved [CommRing V] [Algebra K V] (c : Define K) (layers : List LayerInfo)
    (h w n : ℕ) (act : EActivation) (model : String) : Prop :=
  SameOutputs V .lp64 c layers h w n (computeOption c .noOpt act model)
    (computeOption c .optPooling act model)

omit [LinearOrder K] in
theorem poolPair_computeOption (c : Define K) (act : EActivation) (model : String) :
    PoolPair (computeOption c .noOpt act model) (computeOption c .optPooling act model) := by
  obtain ⟨coeff, h⟩ := computeOption_eq c .noOpt act model
  obtain ⟨coeff', h'⟩ := computeOption_eq c .optPooling act model
  rw [h, h']
  exact ⟨rfl, rfl, rfl, rfl, rfl⟩

variable [IsStrictOrderedRing K] [CommRing V] [Algebra K V] {c : Define K}
  {layers : List LayerInfo} {h w n units : ℕ} {act : EActivation} {model : String}

/-- With extents below `2 ^ 24`, optimised poolings preserve what the networks of a layer order return,
if and only if a linear layer takes the divisor of every pooling at once, or the order has an
activation that cannot be built or evaluated. -/
theorem optPooling_iff [Nontrivial V] (c : Define K) (hε : c.epsilon = 0) (hq : Quartic c) (v : K)
    (hv : c.sqrt (v + c.bnEpsilon) ≠ 0) (layers : List LayerInfo) (h w n units : ℕ)
    (hm : IsModel layers h w n units) (hbelow : ExtentsBelow layers h w) (hgap : NoGlobalAverage layers)
    (hnames : DistinctNames layers) (act : EActivation) (model : String) :
    PoolingPreserved V c layers h w n act model ↔
      PoolsTaken layers ∨ ¬Evaluates (computeOption c .noOpt act model) layers := by
  rw [PoolingPreserved, sameOutputs_lp64 hm hbelow]
  constructor
  · intro hpres
    refine or_iff_not_imp_right.2 fun hact => ?_
    have hact : Evaluates (computeOption c .noOpt act model) layers := not_not.1 hact
    by_contra htaken
    have hcell := cellwise_of_model hm hgap
    have hact' : Evaluates (computeOption c .optPooling act model) layers := by
      simpa only [Evaluates, Registered, Dispatches, computeOption_activation] using hact
    have hfuse := (poolingOnly_computeOption c (.inl rfl : EOptLevel.noOpt = .noOpt ∨ _) act model).fuseLayers
    have hfuse' := (poolingOnly_computeOption c (.inr rfl) act model).fuseLayers
    have hpair := poolPair_computeOption c act model
    have hpart : poolPart (computeOption c .optPooling act model) = 1 := by
      simp [poolPart, (poolingOnly_computeOption c (.inr rfl) act model).multiplyPool]
    rcases loses_or_normalized hcell fun hall : ((1 : K) = 1 ∨ _) ∧ _ => htaken hall.2 with
      hlost | ⟨pre, name, post, rfl, hpre, hkept⟩
    · have hpoly := ratio_of_loses hq hcell hm.shapes hpair .var (by simp [hpart]) (by simp [hpart])
        (.inr (hpart ▸ hlost))
      obtain ⟨file, hdata, t, hdims, hdiffer⟩ :=
        differ_of_scalar (V := V) hε hv hm hcell hnames hpoly
      exact not_preserved_of_differ hm hfuse hfuse' hact hact' hdata hdims hdiffer hpres
    · have hpoly := ratio_of_normalized hq hm.shapes hcell hpair hpart hpre hkept
      obtain ⟨file, hdata, t, hdims, hdiffer⟩ :=
        differ_of_reset (V := V) hε hv hm hcell hnames hpoly
      exact not_preserved_of_differ hm hfuse hfuse' hact hact' hdata hdims hdiffer hpres
  · intro hor file network network' st st' hdata hbuild hbuild' input hdims
    rcases hor with htaken | hact
    · exact optPooling_preserves hε hm hgap htaken hbuild hbuild' hdims
    · -- both are built, so an activation does not dispatch
      have hdisp : ∀ level, ¬AllDispatch (computeOption c level act model) layers := by
        intro level hall
        refine hact fun name activation hmem => ⟨registered_of_buildNetwork hm hbuild hmem, ?_⟩
        simpa only [Dispatches, computeOption_activation] using hall name activation hmem
      rw [predict_error (I := exactInterp K V) hm hbuild hdims (repImage_exact input _ 1) (hdisp _)
          fun _ => trivial,
        predict_error (I := exactInterp K V) hm hbuild' hdims (repImage_exact input _ 1) (hdisp _)
          fun _ => trivial]

end Orders

section Sample

/-- A convolution, two poolings in a row, and a dense layer. -/
def twoPools : List LayerInfo :=
  [unitConv "conv2d" (some (4, 4, 1)), squarePool "average_pooling2d" 2,
    squarePool "average_pooling2d_1" 2, .flatten "flatten", unitDense "dense"]

theorem twoPools_isModel : IsModel twoPools 4 4 1 1 where
  first := ⟨_, _, rfl, rfl⟩
  shapes := by decide
  channels := by decide
  validPool := by simp [twoPools, unitConv, squarePool, unitDense, ValidPool]

theorem quartic_unrounded : Quartic unroundedDefine := by
  constructor <;> norm_num [unroundedDefine, Define.source]

theorem optPooling_iff_sample : PoolingPreserved ℚ unroundedDefine twoPools 4 4 1 .default "HCNN" ↔
    PoolsTaken twoPools ∨ ¬Evaluates (computeOption unroundedDefine .noOpt .default "HCNN") twoPools :=
  optPooling_iff unroundedDefine rfl quartic_unrounded (1 - unroundedDefine.bnEpsilon)
    (by rw [sub_add_cancel]; decide +kernel) twoPools 4 4 1 1 twoPools_isModel
    ⟨by decide, by decide, by simp [WindowBelow, twoPools, unitConv, squarePool, unitDense]⟩
    (by simp [NoGlobalAverage, twoPools, unitConv, squarePool, unitDense])
    (by unfold DistinctNames; decide) .default "HCNN"

/-- The second pooling puts its divisor in the place of the first one's, which is lost. -/
theorem optPooling_differs :
    buildAndPredict ⟨.exact ℚ, .lp64, unroundedDefine⟩ oneFile twoPools .fresh
      (computeOption unroundedDefine .noOpt .default "HCNN") ⟨4, 4, 1, fun _ _ _ => 1⟩ = .ok [3] ∧
    buildAndPredict ⟨.exact ℚ, .lp64, unroundedDefine⟩ oneFile twoPools .fresh
      (computeOption unroundedDefine .optPooling .default "HCNN") ⟨4, 4, 1, fun _ _ _ => 1⟩ =
      .ok [9] := by
  constructor <;> decide +kernel

end Sample

end Cnn
