import PPCNN.Cnn.Differ
import PPCNN.Cnn.Proof.CoeffRatio

/-!
# The layer orders that optimised activations preserve

At `OPT_ACTIVATION` an activation leaves out its leading coefficient, which waits in the option for
the next layer that multiplies by it: a convolution, a dense layer or a pooling. `CoeffsTaken` is
the condition that this layer comes at once; `optActivation_iff` says that on any other order some
weights tell the network from the one at `NO_OPT`.
-/

set_option autoImplicit false

namespace Cnn

open Lib Keras Proof Polynomial

/-! ## The condition -/

/-- The next layer takes a coefficient, a `Flatten` aside. -/
def takesCoeff : List LayerInfo → Bool
  | .flatten _ :: layers => takesCoeff layers
  | .conv2D _ :: _ | .dense _ :: _ | .averagePooling2D _ :: _ => true
  | _ => false

/-- The coefficient of every activation is taken at once. -/
def CoeffsTaken : List LayerInfo → Prop
  | [] => True
  | .activation _ _ :: layers => takesCoeff layers = true ∧ CoeffsTaken layers
  | _ :: layers => CoeffsTaken layers

variable {K V : Type} [Field K]

/-! ## The invariant -/

/-- Before the layers, a coefficient waits only for a layer that takes it at once. -/
structure CoeffInv (o : OptOption K) (layers : List LayerInfo) : Prop where
  optimizePooling : o.enableOptimizePooling = false
  taken : CoeffsTaken layers
  noGlobalAverage : NoGlobalAverage layers
  coeff : coeffPart o = 1 ∨ takesCoeff layers = true

theorem poolPart_one {o : OptOption K} (h : o.enableOptimizePooling = false) : poolPart o = 1 := by
  rw [poolPart, h, Bool.false_and]
  rfl

theorem CoeffInv.step {o : OptOption K} {l : LayerInfo} {layers : List LayerInfo}
    (h : CoeffInv o (l :: layers)) (s : Shape) :
    SafeCall o (.single l) ∧ CoeffInv (optionAfter id o s (.single l)) layers := by
  obtain ⟨hopt, htaken, hgap, hcoeff⟩ := h
  have hgap' : NoGlobalAverage layers := fun name hmem => hgap name (List.mem_cons_of_mem _ hmem)
  have hopt' : (optionAfter id o s (.single l)).enableOptimizePooling = false :=
    (sameFlags_optionAfter o s (.single l)).optimizePooling.trans hopt
  have hfolded : coeffPart (descend o.takeFolding.2 1) = 1 := (parts_takeFolding o).1
  cases l with
  | conv2D info => exact ⟨trivial, hopt', htaken, hgap', .inl hfolded⟩
  | dense info => exact ⟨trivial, hopt', htaken, hgap', .inl hfolded⟩
  | averagePooling2D info =>
    refine ⟨fun hpool => absurd (hopt.symm.trans hpool) Bool.false_ne_true, hopt', htaken, hgap',
      .inl ?_⟩
    simp only [optionAfter, hopt, Bool.false_eq_true, if_false]
    split
    · rw [coeffPart_descend]
      simp [coeffPart]
    · rename_i hflag
      rw [coeffPart_descend, coeffPart, if_neg hflag]
  | batchNormalization name =>
    have hone : coeffPart o = 1 := hcoeff.resolve_right (by simp [takesCoeff])
    exact ⟨⟨hone, poolPart_one hopt⟩, hopt', htaken, hgap', .inl hone⟩
  | flatten name => exact ⟨trivial, hopt', htaken, hgap', hcoeff⟩
  | activation name activation =>
    have hone : coeffPart o = 1 := hcoeff.resolve_right (by simp [takesCoeff])
    exact ⟨⟨hone, poolPart_one hopt⟩, hopt', htaken.2, hgap', .inr htaken.1⟩
  | globalAveragePooling2D name => exact absurd List.mem_cons_self (hgap name)
  | other className =>
    exact ⟨trivial, hopt', htaken, hgap', .inl (hcoeff.resolve_right (by simp [takesCoeff]))⟩

/-- In the end nothing waits. -/
theorem CoeffInv.pending {o : OptOption K} (h : CoeffInv o []) : pending o = 1 := by
  rw [Proof.pending, h.coeff.resolve_right (by simp [takesCoeff]), poolPart_one h.optimizePooling,
    one_mul]

/-! ## Where a coefficient is lost -/

/-- A coefficient that is not taken at once is lost, or meets a batch normalisation and is not lost
later. -/
theorem coeffLoses_or_normalized {layers : List LayerInfo} (hcell : ∀ l ∈ layers, Cellwise l) {a f : K}
    (ha : a ≠ 1) (h : ¬((f = 1 ∨ takesCoeff layers = true) ∧ CoeffsTaken layers)) :
    CoeffLoses a f layers ∨ ∃ pre name post, layers = pre ++ .batchNormalization name :: post ∧
      pre.foldl (coeffWaits a) f ≠ 1 ∧ ¬CoeffLoses a (pre.foldl (coeffWaits a) f) post := by
  induction layers generalizing f with
  | nil => exact .inl fun hf => h ⟨.inl hf, trivial⟩
  | cons l layers ih =>
    have hlater : (∀ name activation, l ≠ .activation name activation) →
        ¬((coeffWaits a f l = 1 ∨ takesCoeff layers = true) ∧ CoeffsTaken layers) →
        CoeffLoses a f (l :: layers) ∨ ∃ pre name post,
          l :: layers = pre ++ .batchNormalization name :: post ∧
          pre.foldl (coeffWaits a) f ≠ 1 ∧ ¬CoeffLoses a (pre.foldl (coeffWaits a) f) post := by
      intro hl hne
      rcases ih (fun l' hl' => hcell l' (List.mem_cons_of_mem _ hl')) hne with
        hlost | ⟨pre, name, post, rfl, hpre⟩
      · left
        cases l with
        | activation name activation => exact absurd rfl (hl name activation)
        | _ => exact hlost
      · exact .inr ⟨l :: pre, name, post, rfl, hpre⟩
    cases l with
    | conv2D info => exact hlater (by simp) fun ht => h ⟨.inr rfl, ht.2⟩
    | dense info => exact hlater (by simp) fun ht => h ⟨.inr rfl, ht.2⟩
    | averagePooling2D info => exact hlater (by simp) fun ht => h ⟨.inr rfl, ht.2⟩
    | batchNormalization name =>
      by_cases hf : f = 1
      · exact hlater (by simp) fun ht => h ⟨.inl hf, ht.2⟩
      · by_cases hl : CoeffLoses a f layers
        · exact .inl hl
        · exact .inr ⟨[], name, layers, rfl, hf, hl⟩
    | flatten name => exact hlater (by simp) h
    | activation name activation =>
      by_cases hf : f = 1
      · have hne : ¬((a = 1 ∨ takesCoeff layers = true) ∧ CoeffsTaken layers) := fun ht =>
          h ⟨.inl hf, ht.1.resolve_left ha, ht.2⟩
        rcases ih (fun l' hl' => hcell l' (List.mem_cons_of_mem _ hl')) hne with
          hlost | ⟨pre, name', post, rfl, hpre⟩
        · exact .inl (.inr hlost)
        · exact .inr ⟨.activation name activation :: pre, name', post, rfl, hpre⟩
      · exact .inl (.inl hf)
    | globalAveragePooling2D name => exact absurd (hcell _ List.mem_cons_self) id
    | other className => exact absurd (hcell _ List.mem_cons_self) id

theorem coeffPair_along {a : K} {o o' : OptOption K} {layers : List LayerInfo}
    (h : CoeffPair a o o') : CoeffPair a (optionAlong o layers) (optionAlong o' layers) := by
  induction layers generalizing o o' with
  | nil => exact h
  | cons l layers ih => exact ih (h.after _ _ _)

theorem coeffPart_along {a : K} {o o' : OptOption K} {layers : List LayerInfo}
    (h : CoeffPair a o o') (hcell : ∀ l ∈ layers, Cellwise l) :
    coeffPart (optionAlong o' layers) = layers.foldl (coeffWaits a) (coeffPart o') := by
  induction layers generalizing o o' with
  | nil => rfl
  | cons l layers ih =>
    rw [List.foldl_cons, ← h.waits (hcell l List.mem_cons_self) (.units 0)]
    exact ih (h.after (.units 0) _ _) fun l' hl' => hcell l' (List.mem_cons_of_mem _ hl')

section Orders

variable [LinearOrder K] [IsStrictOrderedRing K]

omit [IsStrictOrderedRing K] in
theorem small_along {a f : K} (ha : Small a) (hf : Small f) (layers : List LayerInfo) :
    Small (layers.foldl (coeffWaits a) f) := by
  induction layers generalizing f with
  | nil => exact hf
  | cons l layers ih => exact ih (small_coeffWaits ha hf l)

/-- If a coefficient waits before a batch normalisation and is not lost later, the layers after it
are different polynomials of its bias. -/
theorem coeffRatio_of_normalized {c : Define K} {act : EActivation} {t : SwishCoeffs K} (ht : t.Exact)
    (ha : |t.a| < 1) {pre post : List LayerInfo} {name : String} {s s' : Shape}
    (hs : outShapes (pre ++ .batchNormalization name :: post) s = some s')
    (hcell : ∀ l ∈ pre ++ .batchNormalization name :: post, Cellwise l)
    (hswish : AllSwish c act t (pre ++ .batchNormalization name :: post)) {o o' : OptOption K}
    (h : CoeffPair t.a o o') (ho : o.activation = act) (hstart : coeffPart o' = 1)
    (hpre : pre.foldl (coeffWaits t.a) 1 ≠ 1)
    (hkept : ¬CoeffLoses t.a (pre.foldl (coeffWaits t.a) 1) post) :
    (scalarRun c post (descend (optionAlong o pre) 1) (X : K[X])).2 ≠
      (scalarRun c post (descend (optionAlong o' pre) 1) (X : K[X])).2 := by
  rw [outShapes_append] at hs
  obtain ⟨s1, -, hs⟩ := Option.bind_eq_some_iff.1 hs
  obtain ⟨s2, -, hspost⟩ := outShapes_cons.1 hs
  have hcellpre : ∀ l ∈ pre, Cellwise l := fun l hl => hcell l (List.mem_append_left _ hl)
  have hcellpost : ∀ l ∈ post, Cellwise l := fun l hl =>
    hcell l (List.mem_append_right _ (List.mem_cons_of_mem _ hl))
  have hswishpost : AllSwish c act t post := fun name activation hmem =>
    hswish name activation (List.mem_append_right _ (List.mem_cons_of_mem _ hmem))
  have hpair : CoeffPair t.a (descend (optionAlong o pre) 1) (descend (optionAlong o' pre) 1) :=
    (coeffPair_along h).after (.units 0) (.units 0) (.single (.batchNormalization name))
  have hflags : SameFlags (optionAlong o pre) o := by
    clear * -
    induction pre generalizing o with
    | nil => exact .refl o
    | cons l pre ih => exact ih.trans (sameFlags_optionAfter o _ _)
  have hpart : coeffPart (descend (optionAlong o' pre) 1) = pre.foldl (coeffWaits t.a) 1 := by
    rw [coeffPart_descend, coeffPart_along h hcellpre, hstart]
  have hsmall : Small (pre.foldl (coeffWaits t.a) 1) := small_along (.inr ⟨ht.ne_zero, ha⟩) (.inl rfl) pre
  refine coeffRatio_of_below ht (.inr ⟨ht.ne_zero, ha⟩) hcellpost hswishpost hspost hpair
    (hflags.activation.trans ho) .var (hpart ▸ hsmall) ?_ (hpart ▸ hkept)
  rw [mul_one, hpart]
  exact (hsmall.resolve_left hpre).2

/-! ## The layer orders -/

/-- The constants of the source, with exact optimised coefficients and no rounding of small
weights. -/
def Define.exactSource (sqrt : K → K) : Define K :=
  { (Define.source sqrt).exactTables with epsilon := 0 }

omit [LinearOrder K] [IsStrictOrderedRing K] in
/-- The flags of an unfused computation with its poolings not optimised. -/
theorem computeOption_optActivation (c : Define K) (act : EActivation) (model : String) :
    CoeffPair (computeOption c .optActivation act model).highestDegCoeff
      (computeOption c .noOpt act model) (computeOption c .optActivation act model) ∧
    (computeOption c .noOpt act model).enableFuseLayers = false ∧
    (computeOption c .optActivation act model).enableFuseLayers = false ∧
    coeffPart (computeOption c .optActivation act model) = 1 := by
  obtain ⟨coeff, h⟩ := computeOption_eq c .noOpt act model
  obtain ⟨coeff', h'⟩ := computeOption_eq c .optActivation act model
  rw [h, h']
  exact ⟨⟨rfl, rfl, rfl, rfl, rfl, rfl⟩, rfl, rfl, rfl⟩

/-- The leading coefficients of the source are below one. -/
theorem leading_bounds (sqrt : K → K) {t : SwishCoeffs K}
    (ht : t = (Define.exactSource sqrt).swishRg4Deg4 ∨ t = (Define.exactSource sqrt).swishRg6Deg4) :
    t.Exact ∧ |t.a| < 1 := by
  rcases ht with rfl | rfl
  · exact ⟨SwishCoeffs.exact_exact (by norm_num [Define.source]), by
      norm_num [Define.exactSource, Define.exactTables, Define.source, SwishCoeffs.exact, abs_div]⟩
  · exact ⟨SwishCoeffs.exact_exact (by norm_num [Define.source]), by
      norm_num [Define.exactSource, Define.exactTables, Define.source, SwishCoeffs.exact, abs_div]⟩

variable [CommRing V] [Algebra K V]

omit [LinearOrder K] [IsStrictOrderedRing K] in
/-- An optimised activation with the coefficient that waits is the swish polynomial. -/
theorem effective_optActivation {c : Define K} {act : EActivation} {t : SwishCoeffs K} (ht : t.Exact)
    {layers : List LayerInfo} (hgap : NoGlobalAverage layers) (hswish : AllSwish c act t layers)
    {o o' : OptOption K} (h : CoeffPair t.a o o') (ho : o.activation = act) :
    ∀ l ∈ layers, (effective (V := V) c o').AgreeOn (effective c o) l := by
  intro l hl
  cases l with
  | conv2D info => exact fun _ _ => rfl
  | averagePooling2D info => exact fun _ _ => rfl
  | activation name activation =>
    have hc := hswish name activation hl
    funext x
    simp only [effective, h.optimizeActivation, h.optimizeActivation', if_true, Bool.false_eq_true,
      if_false, h.highestDegCoeff']
    rw [storedActivation_swish hc ho h.optimizeActivation,
      storedActivation_opt hc ht (h.activation.symm.trans ho) h.optimizeActivation', smul_smul,
      mul_inv_cancel₀ ht.ne_zero, one_smul]
  | globalAveragePooling2D name => exact absurd hl (hgap name)
  | _ => trivial

/-- If the coefficient of every activation is taken at once, a network computes the model under
`effective`. -/
theorem predict_coeffsTaken {c : Define K} (hε : c.epsilon = 0) {file : H5File K}
    {layers : List LayerInfo} {h w n units : ℕ} (hm : IsModel layers h w n units)
    (hgap : NoGlobalAverage layers) (htaken : CoeffsTaken layers) {o : OptOption K}
    (hpool : o.enableOptimizePooling = false) (hfuse : o.enableFuseLayers = false)
    (hcoeff : coeffPart o = 1) {network : List (Layer K)} {st : BuildState K}
    (hbuild : buildNetwork ⟨.exact V, .unbounded, c⟩ file layers .fresh o = .ok (network, st))
    (hdisp : AllDispatch o layers) {input : Tensor3 V}
    (hdims : (input.height, input.width, input.channels) = (h, w, n)) :
    predict (.exact V) .unbounded st.option network input =
      .ok (Keras.predict c (effective c o) file layers input) := by
  have hinv : CoeffInv o layers := ⟨hpool, htaken, hgap, .inl hcoeff⟩
  have hstart : pending o = 1 := by rw [Proof.pending, hcoeff, poolPart_one hpool, one_mul]
  exact predict_unfused hε hm hfuse hstart (safeCalls_of_step CoeffInv CoeffInv.step hinv _) hbuild
    hdisp hdims (storedRun_of_step CoeffInv (fun h s => (h.step s).2) hinv _).pending

/-- With extents below `2 ^ 24`, optimised activations preserve what the swish networks of a layer order
return, if and only if the layer after each activation takes its coefficient. -/
theorem optActivation_iff [Nontrivial V] (sqrt : K → K) (v : K)
    (hv : sqrt (v + (Define.exactSource sqrt).bnEpsilon) ≠ 0) (layers : List LayerInfo)
    (h w n units : ℕ) (hm : IsModel layers h w n units) (hbelow : ExtentsBelow layers h w)
    (hgap : NoGlobalAverage layers) (hnames : DistinctNames layers) (act : EActivation)
    (model : String) (t : SwishCoeffs K)
    (ht : t = (Define.exactSource sqrt).swishRg4Deg4 ∨ t = (Define.exactSource sqrt).swishRg6Deg4)
    (hswish : AllSwish (Define.exactSource sqrt) act t layers)
    (hcoeff : (computeOption (Define.exactSource sqrt) .optActivation act model).highestDegCoeff =
      t.a) :
    SameOutputs V .lp64 (Define.exactSource sqrt) layers h w n
        (computeOption (Define.exactSource sqrt) .noOpt act model)
        (computeOption (Define.exactSource sqrt) .optActivation act model) ↔
      CoeffsTaken layers := by
  rw [sameOutputs_lp64 hm hbelow]
  obtain ⟨hexact, ha⟩ := leading_bounds sqrt ht
  obtain ⟨hpair, hfuse, hfuse', hpart⟩ :=
    computeOption_optActivation (Define.exactSource sqrt) act model
  rw [hcoeff] at hpair
  have hactivation : (computeOption (Define.exactSource sqrt) .noOpt act model).activation = act :=
    computeOption_activation _ _ _ _
  have hregistered : ∀ o : OptOption K, o.activation = act → Evaluates o layers :=
    fun o ho name activation hmem => (hswish name activation hmem).registered ho
  have heval := hregistered _ hactivation
  have heval' := hregistered _ (computeOption_activation (Define.exactSource sqrt) .optActivation act model)
  constructor
  · intro hpres
    by_contra htaken
    have hcell := cellwise_of_model hm hgap
    have hne : t.a ≠ 1 := by
      intro hone
      rw [hone, abs_one] at ha
      exact lt_irrefl 1 ha
    have hsmall : Small t.a := .inr ⟨hexact.ne_zero, ha⟩
    rcases coeffLoses_or_normalized hcell hne (fun hall : ((1 : K) = 1 ∨ _) ∧ _ => htaken hall.2) with
      hlost | ⟨pre, name, post, rfl, hpre, hkept⟩
    · have hpoly := coeffRatio_of_loses hexact hsmall hcell hswish hm.shapes hpair hactivation .var
        (by rw [hpart]; exact .inl rfl) (by simp [hpart]) (.inr (hpart ▸ hlost))
      obtain ⟨file, hdata, input, hdims, hdiffer⟩ :=
        differ_of_scalar (V := V) rfl hv hm hcell hnames hpoly
      exact not_preserved_of_differ hm hfuse hfuse' heval heval' hdata hdims hdiffer hpres
    · have hpoly := coeffRatio_of_normalized hexact ha hm.shapes hcell hswish hpair hactivation hpart
        hpre hkept
      obtain ⟨file, hdata, input, hdims, hdiffer⟩ :=
        differ_of_reset (V := V) rfl hv hm hcell hnames hpoly
      exact not_preserved_of_differ hm hfuse hfuse' heval heval' hdata hdims hdiffer hpres
  · intro htaken file network network' st st' hdata hbuild hbuild' input hdims
    have hdisp : ∀ o : OptOption K, Evaluates o layers → AllDispatch o layers :=
      fun o ho name activation hmem => (ho name activation hmem).2
    rw [predict_coeffsTaken rfl hm hgap htaken hpair.optimizePooling hfuse
        (coeffPart_one hpair.optimizeActivation) hbuild (hdisp _ heval) hdims,
      predict_coeffsTaken rfl hm hgap htaken hpair.optimizePooling' hfuse' hpart hbuild'
        (hdisp _ heval') hdims,
      predict_congr (effective_optActivation hexact hgap hswish hpair hactivation)]

end Orders

section Sample

/-- A convolution, an activation, a batch normalisation, and a dense layer. -/
def normalizedSwish : List LayerInfo :=
  [unitConv "conv2d" (some (1, 1, 1)), .activation "activation" swishRg4Deg4Name,
    .batchNormalization "batch_normalization", .flatten "flatten", unitDense "dense"]

theorem normalizedSwish_isModel : IsModel normalizedSwish 1 1 1 1 where
  first := ⟨_, _, rfl, rfl⟩
  shapes := by decide
  channels := by decide
  validPool := by simp [normalizedSwish, unitConv, unitDense, ValidPool]

theorem optActivation_iff_sample :
    SameOutputs ℚ .lp64 (Define.exactSource Rat.sqrt) normalizedSwish 1 1 1
        (computeOption (Define.exactSource Rat.sqrt) .noOpt .default "CKKS-swish_rg4_deg4")
        (computeOption (Define.exactSource Rat.sqrt) .optActivation .default "CKKS-swish_rg4_deg4") ↔
      CoeffsTaken normalizedSwish :=
  optActivation_iff Rat.sqrt (1 - (Define.exactSource Rat.sqrt).bnEpsilon)
    (by rw [sub_add_cancel]; decide +kernel) normalizedSwish 1 1 1 1 normalizedSwish_isModel
    ⟨by decide, by decide, by simp [WindowBelow, normalizedSwish, unitConv, unitDense]⟩
    (by simp [NoGlobalAverage, normalizedSwish, unitConv, unitDense])
    (by unfold DistinctNames; decide) .default "CKKS-swish_rg4_deg4" _ (.inl rfl)
    (by
      intro name activation hmem
      have hname : name = "activation" ∧ activation = swishRg4Deg4Name := by
        simpa [normalizedSwish, unitConv, unitDense] using hmem
      exact .inl ⟨hname.2, rfl, .inl rfl⟩)
    (by decide +kernel)

/-- The batch normalisation adds its bias to the quotient, and the dense layer multiplies the sum by
the leading coefficient. -/
theorem optActivation_differs :
    buildAndPredict ⟨.exact ℚ, .lp64, Define.exactSource Rat.sqrt⟩ allOptFile normalizedSwish .fresh
      (computeOption (Define.exactSource Rat.sqrt) .noOpt .default "CKKS-swish_rg4_deg4")
      ⟨1, 1, 1, fun _ _ _ => 1⟩ = .ok [976667 / 200000] ∧
    buildAndPredict ⟨.exact ℚ, .lp64, Define.exactSource Rat.sqrt⟩ allOptFile normalizedSwish .fresh
      (computeOption (Define.exactSource Rat.sqrt) .optActivation .default "CKKS-swish_rg4_deg4")
      ⟨1, 1, 1, fun _ _ _ => 1⟩ = .ok [193913 / 50000] := by
  constructor <;> decide +kernel

end Sample

end Cnn
