import PPCNN.Cnn.Architecture
import PPCNN.Cnn.Proof.Avoid
import PPCNN.Cnn.Proof.Recorded
import Mathlib.Tactic.Linarith

/-!
# Plaintexts that encode to zero

`multiply_plain` rejects a plaintext that is zero at the scale of the encoder, `2 ^ 30`. The linear
builders multiply their weights up in `float`s and keep the product at least `EPSILON` away from zero
(`clampWeight_standsFor`), after every factor is folded in. `buildBatchNormalization` does not, and
`buildAveragePooling2D` divides a leading coefficient that is zero unless the model has a swish
polynomial: `multiplies_iff` says on which inputs a network multiplies by nonzero plaintexts only.
-/

set_option autoImplicit false

namespace Cnn

open Lib Keras Proof

variable {K Pt Ct : Type} [Field K] [LinearOrder K]

/-! ## The property -/

/-- The value is not zero at scale `2 ^ 30`. -/
def EncodesNonzero (w : K) : Prop := 1 ≤ |w| * 2 ^ 30

/-- `v` has the sign of the weight `w`, positive for zero, and is at most `EPSILON` away. -/
def StandsFor (c : Define K) (w v : K) : Prop :=
  (if w < 0 then v < 0 else 0 < v) ∧ |v - w| ≤ c.epsilon

/-- The plaintexts of a kernel stand for the products of `float`s the builder has computed; `o` is the
option it found. -/
def KernelStandsFor (E : Env K Pt Ct) (file : H5File K) (value : Pt → K) (o : OptOption K) :
    BuildCall → Layer Pt → Prop
  | .single (.conv2D info), .conv2D l => ∀ (i : Fin _) (j : Fin _) (ic : Fin _) (oc : Fin _),
    StandsFor E.define (foldedConv E.define file E.ev.float o info none l.inChannels i j ic oc)
      (value (l.plainFilters i j ic oc))
  | .conv2DFusedBN info bn, .conv2D l => ∀ (i : Fin _) (j : Fin _) (ic : Fin _) (oc : Fin _),
    StandsFor E.define (foldedConv E.define file E.ev.float o info (some bn) l.inChannels i j ic oc)
      (value (l.plainFilters i j ic oc))
  | .single (.dense info), .dense l => ∀ (i : Fin _) (ou : Fin _),
    StandsFor E.define (foldedDense E.define file E.ev.float o info none i ou)
      (value (l.plainWeights i ou))
  | .denseFusedBN info bn, .dense l => ∀ (i : Fin _) (ou : Fin _),
    StandsFor E.define (foldedDense E.define file E.ev.float o info (some bn) i ou)
      (value (l.plainWeights i ou))
  | _, _ => True

/-- Every plaintext a layer passes to `multiply_plain` encodes a nonzero value, and every kernel that
is built stands for the products of its builder. -/
structure Multiplies (E : Env K Pt Ct) (file : H5File K) (value : Pt → K) (layers : List LayerInfo)
    (o : OptOption K) (network : List (Layer Pt)) : Prop where
  nonzero : ∀ layer ∈ network, ∀ p, Multiplicand o layer p → EncodesNonzero (value p)
  kernels : ∀ pre call post built st layer st',
    buildCalls o.enableFuseLayers layers = pre ++ call :: post →
    buildLayers E file pre ⟨.fresh, o⟩ = .ok (built, st) →
    buildLayer E file call st = .ok (layer, st') →
      KernelStandsFor E file value st.option call layer

/-- SEAL with `multiply_plain` rejecting what encodes to zero: the error occurs nowhere else. -/
structure Rejects (e : Error) (value : Pt → K) (ev : Evaluator K Pt Ct) : Prop
    extends Avoiding e ev where
  multiplyPlain : ∀ x p, ev.multiplyPlain x p = .error e ↔ ¬EncodesNonzero (value p)

/-! ## The condition -/

/-- The weights of the batch normalisations that are built alone encode nonzero values. -/
def NormalizationsNonzero (fl : K → K) (c : Define K) (file : H5File K) :
    Shape → List BuildCall → Prop
  | _, [] => True
  | s, call :: calls =>
    (∀ name, call = .single (.batchNormalization name) → ∀ i < s.lastDim,
      EncodesNonzero ((bnData file (groupPath name name)).weight fl c i)) ∧
    ∀ s', callShape call s = some s' → NormalizationsNonzero fl c file s' calls

/-- Whether a leading coefficient waits after a call. -/
def coeffWaitsAfter (waits : Bool) : BuildCall → Bool
  | .single (.activation _ _) => true
  | .single (.batchNormalization _) | .single (.flatten _) | .single (.globalAveragePooling2D _)
  | .single (.other _) => waits
  | _ => false

/-- An average pooling takes a leading coefficient: an activation stands before it, with no
convolution, dense layer or other average pooling in between. -/
def PoolingTakesCoeff (waits : Bool) : List BuildCall → Prop
  | [] => False
  | call :: calls =>
    (waits = true ∧ ∃ info, call = .single (.averagePooling2D info)) ∨
      PoolingTakesCoeff (coeffWaitsAfter waits call) calls

/-- Poolings divide the leading coefficient, and it is not set. -/
def DividesZero (o : OptOption K) : Prop :=
  o.enableOptimizeActivation = true ∧ o.enableOptimizePooling = false ∧ o.highestDegCoeff = 0

/-- The condition on the inputs of a build. -/
def NoZeroFactor (fl : K → K) (c : Define K) (file : H5File K) (layers : List LayerInfo)
    (o : OptOption K) (s : Shape) : Prop :=
  NormalizationsNonzero fl c file s (buildCalls o.enableFuseLayers layers) ∧
    ¬(DividesZero o ∧ PoolingTakesCoeff false (buildCalls o.enableFuseLayers layers))

/-! ## Weights -/

/-- The constants of the server. -/
def floatDefine (sqrt : ℚ → ℚ) : Define ℚ := (Define.source sqrt).rounded binary32

section Weights

variable (sqrt : ℚ → ℚ)

/-- A `float` is nonzero at a scale where the number it is rounded from is. -/
theorem one_le_binary32_mul {w : ℚ} {k : ℕ} (hk : k ≤ 149) (h : 1 ≤ |w| * 2 ^ k) :
    1 ≤ |binary32 w| * 2 ^ k := by
  have hpos : (0 : ℚ) < 2 ^ k := by positivity
  have hpow : (2 : ℚ) ^ (-(k : ℤ)) = 1 / 2 ^ k := by rw [zpow_neg, zpow_natCast, one_div]
  have hle : (2 : ℚ) ^ (-(k : ℤ)) ≤ |w| := by
    rw [hpow, div_le_iff₀ hpos]
    exact h
  have hround := two_zpow_le_abs_binary32 (by omega) hle
  rwa [hpow, div_le_iff₀ hpos] at hround

theorem encodesNonzero_binary32 {w : ℚ} (h : EncodesNonzero w) : EncodesNonzero (binary32 w) :=
  one_le_binary32_mul (by decide) h

theorem epsilon_pos : 0 < (floatDefine sqrt).epsilon := by
  show 0 < binary32 (1 / 10000000)
  decide +kernel

theorem encodesNonzero_epsilon : EncodesNonzero (floatDefine sqrt).epsilon := by
  refine encodesNonzero_binary32 ?_
  simp only [EncodesNonzero, Define.source]
  norm_num

/-- The clamped weight is one of the two rounded values, or the weight itself where that is large. -/
theorem clampWeight_cases [IsStrictOrderedRing K] (c : Define K) (w : K) :
    (|w| < c.epsilon ∧ w < 0 ∧ clampWeight c w = -c.epsilon) ∨
    (|w| < c.epsilon ∧ 0 ≤ w ∧ clampWeight c w = c.epsilon) ∨
    (c.epsilon ≤ |w| ∧ clampWeight c w = w) := by
  unfold clampWeight roundValue
  by_cases hw : |w| < c.epsilon
  · rw [if_pos hw]
    rcases lt_trichotomy w 0 with hneg | rfl | hpos
    · left
      refine ⟨hw, hneg, ?_⟩
      rw [if_pos hneg.ne, abs_of_neg hneg, div_neg, div_self hneg.ne]
      exact mul_neg_one _
    · exact .inr (.inl ⟨hw, le_refl 0, by simp⟩)
    · refine .inr (.inl ⟨hw, hpos.le, ?_⟩)
      rw [if_pos hpos.ne', abs_of_pos hpos, div_self hpos.ne', mul_one]
  · exact .inr (.inr ⟨not_lt.1 hw, if_neg hw⟩)

theorem encodesNonzero_clampWeight (w : ℚ) : EncodesNonzero (clampWeight (floatDefine sqrt) w) := by
  have heps := encodesNonzero_epsilon sqrt
  rcases clampWeight_cases (floatDefine sqrt) w with ⟨-, -, h⟩ | ⟨-, -, h⟩ | ⟨hle, h⟩
  · rwa [h, EncodesNonzero, abs_neg]
  · rwa [h]
  · rw [h]
    rw [EncodesNonzero, abs_of_pos (epsilon_pos sqrt)] at heps
    exact heps.trans (mul_le_mul_of_nonneg_right hle (by positivity))

theorem clampWeight_standsFor (w : ℚ) :
    StandsFor (floatDefine sqrt) w (clampWeight (floatDefine sqrt) w) := by
  have hpos := epsilon_pos sqrt
  unfold StandsFor
  rcases clampWeight_cases (floatDefine sqrt) w with ⟨hw, hneg, h⟩ | ⟨hw, hnonneg, h⟩ | ⟨hle, h⟩
  · rw [h, if_pos hneg]
    rw [abs_of_neg hneg] at hw
    exact ⟨by linarith, abs_le.2 ⟨by linarith, by linarith⟩⟩
  · rw [h, if_neg (not_lt.2 hnonneg)]
    rw [abs_of_nonneg hnonneg] at hw
    exact ⟨hpos, abs_le.2 ⟨by linarith, by linarith⟩⟩
  · rw [h, sub_self, abs_zero]
    refine ⟨?_, hpos.le⟩
    split
    · assumption
    · rename_i hnonneg
      rw [abs_of_nonneg (not_lt.1 hnonneg)] at hle
      linarith

omit sqrt in
/-- A quotient by at most `2 ^ 20` cells encodes a nonzero value if its numerator is not small. -/
theorem encodesNonzero_div {a : ℚ} {cells : ℕ} (ha : 1 ≤ |a| * 2 ^ 10) (hpos : 0 < cells)
    (hcells : cells ≤ 2 ^ 20) : EncodesNonzero (a / (cells : ℚ)) := by
  have hc : (0 : ℚ) < cells := Nat.cast_pos.2 hpos
  have hle : (cells : ℚ) ≤ 2 ^ 20 := by exact_mod_cast hcells
  unfold EncodesNonzero
  rw [abs_div, abs_of_pos hc, div_mul_eq_mul_div, le_div_iff₀ hc, one_mul]
  calc (cells : ℚ) ≤ 1 * 2 ^ 20 := by rwa [one_mul]
    _ ≤ |a| * 2 ^ 10 * 2 ^ 20 := mul_le_mul_of_nonneg_right ha (by positivity)
    _ = |a| * 2 ^ 30 := by ring

omit sqrt in
@[simp] theorem not_encodesNonzero_zero : ¬EncodesNonzero (0 : ℚ) := by
  simp [EncodesNonzero]

end Weights

/-! ## Calls -/

section Calls

variable {E : Env ℚ Pt Ct} {sqrt : ℚ → ℚ} {file : H5File ℚ} {value : Pt → ℚ} {o : OptOption ℚ}
  {st st' : BuildState ℚ} {s s' : Shape}

/-- The coefficients `activate` multiplies by encode nonzero values. -/
theorem encodesNonzero_swish (hdefine : E.define = floatDefine sqrt)
    (hvalue : ∀ lv w p, E.ev.encodeAt lv w = .ok p → value p = w) {activation : String} {lv : ℕ}
    {opt : Bool} {coeffs : List Pt}
    (hb : SwishBuilt E lv (swishTable E.define o activation) opt coeffs) {i : ℕ}
    (hi : i < if opt then 2 else 3) {p : Pt} (hp : coeffs[i]? = some p) :
    EncodesNonzero (value p) := by
  have htable : ∀ t, t = (floatDefine sqrt).swishRg4Deg4 ∨ t = (floatDefine sqrt).swishRg6Deg4 →
      (EncodesNonzero t.a ∧ EncodesNonzero t.b ∧ EncodesNonzero t.c) ∧
        EncodesNonzero t.b' ∧ EncodesNonzero t.c' := by
    rintro t (rfl | rfl)
    all_goals
      refine ⟨⟨?_, ?_, ?_⟩, ?_, ?_⟩
      all_goals
        apply encodesNonzero_binary32
        simp only [EncodesNonzero, Define.source, abs_div, abs_neg]
        norm_num
  have ht := htable (swishTable E.define o activation) (by
    rw [hdefine]
    unfold swishTable
    split
    · exact .inl rfl
    · exact .inr rfl)
  generalize swishTable E.define o activation = t at hb ht
  cases hb with
  | plain h0 h1 h2 =>
    simp only [Bool.false_eq_true, if_false] at hi
    obtain rfl | rfl | rfl : i = 0 ∨ i = 1 ∨ i = 2 := by omega
    · cases hp
      rw [hvalue _ _ _ h0]
      exact ht.1.1
    · cases hp
      rw [hvalue _ _ _ h1]
      exact ht.1.2.1
    · cases hp
      rw [hvalue _ _ _ h2]
      exact ht.1.2.2
  | opt h0 h1 =>
    simp only [if_true] at hi
    obtain rfl | rfl : i = 0 ∨ i = 1 := by omega
    · cases hp
      rw [hvalue _ _ _ h0]
      exact ht.2.1
    · cases hp
      rw [hvalue _ _ _ h1]
      exact ht.2.2

/-- The factor of a pooling that multiplies. -/
theorem encodesNonzero_poolFactor {info : AveragePooling2DInfo} (hflags : SameFlags st.option o)
    (hcoeff : o.highestDegCoeff = 0 ∨ 1 ≤ |o.highestDegCoeff| * 2 ^ 10)
    (hpool : o.enableOptimizePooling = false)
    (hpos : 0 < info.poolSize.1 * info.poolSize.2)
    (hcells : info.poolSize.1 * info.poolSize.2 ≤ 2 ^ 20) :
    EncodesNonzero (poolFactor binary32 st.option info) ↔
      ¬(DividesZero o ∧ st.option.shouldMultiplyCoeff = true) := by
  have hcast : binary32 ((info.poolSize.1 * info.poolSize.2 : ℕ) : ℚ) =
      (info.poolSize.1 * info.poolSize.2 : ℕ) := binary32_natCast (hcells.trans_lt (by decide))
  unfold poolFactor
  rw [hflags.optimizeActivation, hflags.highestDegCoeff, hcast]
  by_cases hwaits : (o.enableOptimizeActivation && st.option.shouldMultiplyCoeff) = true
  · rw [if_pos hwaits]
    rw [Bool.and_eq_true] at hwaits
    rcases hcoeff with hzero | hlarge
    · rw [hzero, zero_div, show binary32 0 = 0 from binary32_natCast (n := 0) (by decide)]
      exact iff_of_false not_encodesNonzero_zero
        fun h => h ⟨⟨hwaits.1, hpool, hzero⟩, hwaits.2⟩
    · refine iff_of_true (encodesNonzero_binary32 (encodesNonzero_div hlarge hpos hcells)) fun h => ?_
      rw [h.1.2.2, abs_zero, zero_mul] at hlarge
      exact absurd hlarge (not_le.2 one_pos)
  · rw [if_neg hwaits]
    refine iff_of_true (encodesNonzero_div (by norm_num) hpos hcells) fun h => hwaits ?_
    rw [h.1.1, h.2]
    rfl

/-- The call builds a kernel. -/
def BuildCall.Linear : BuildCall → Prop
  | .conv2DFusedBN _ _ | .denseFusedBN _ _ | .single (.conv2D _) | .single (.dense _) => True
  | _ => False

/-- The plaintexts of a kernel. -/
theorem multiplicand_kernel (hdefine : E.define = floatDefine sqrt)
    (hvalue : ∀ lv w p, E.ev.encodeAt lv w = .ok p → value p = w) {call : BuildCall}
    {layer : Layer Pt} (hbuild : buildLayer E file call st = .ok (layer, st'))
    (hlinear : call.Linear) {p : Pt} (hp : Multiplicand o layer p) : EncodesNonzero (value p) := by
  have hclamped : ∀ lv w, E.ev.encodeAt lv (clampWeight E.define w) = .ok p →
      EncodesNonzero (value p) := by
    intro lv w hencode
    rw [hvalue _ _ _ hencode, hdefine]
    exact encodesNonzero_clampWeight sqrt w
  cases call with
  | conv2DFusedBN info bn =>
    obtain ⟨l, rfl, hb⟩ := buildConv2DFusedBN_ok hbuild
    obtain ⟨i, j, ic, oc, rfl⟩ := hp
    exact hclamped _ _ (hb.filters i j ic oc)
  | denseFusedBN info bn =>
    obtain ⟨l, rfl, hb⟩ := buildDenseFusedBN_ok hbuild
    obtain ⟨i, ou, rfl⟩ := hp
    exact hclamped _ _ (hb.weights i ou)
  | single l =>
    cases l with
    | conv2D info =>
      obtain ⟨l, rfl, hb⟩ := buildConv2D_ok hbuild
      obtain ⟨i, j, ic, oc, rfl⟩ := hp
      exact hclamped _ _ (hb.filters i j ic oc)
    | dense info =>
      obtain ⟨l, rfl, hb⟩ := buildDense_ok hbuild
      obtain ⟨i, ou, rfl⟩ := hp
      exact hclamped _ _ (hb.weights i ou)
    | _ => exact absurd hlinear id

/-- The factor of an average pooling. -/
theorem multiplicand_averagePooling2D (hfloat : E.ev.float = binary32)
    (hvalue : ∀ lv w p, E.ev.encodeAt lv w = .ok p → value p = w)
    {info : AveragePooling2DInfo} {layer : Layer Pt}
    (hbuild : buildLayer E file (.single (.averagePooling2D info)) st = .ok (layer, st'))
    (hs : callShape (.single (.averagePooling2D info)) s = some s') (hflags : SameFlags st.option o)
    (hcoeff : o.highestDegCoeff = 0 ∨ 1 ≤ |o.highestDegCoeff| * 2 ^ 10)
    (hcells : info.poolSize.1 * info.poolSize.2 ≤ 2 ^ 20) :
    (∀ p, Multiplicand o layer p → EncodesNonzero (value p)) ↔
      ¬(DividesZero o ∧ st.option.shouldMultiplyCoeff = true) := by
  obtain ⟨l, rfl, hb⟩ := buildAveragePooling2D_ok hbuild
  have hcell : 0 < info.poolSize.1 * info.poolSize.2 := poolCells_pos hs
  cases hpool : o.enableOptimizePooling with
  | true =>
    refine iff_of_true (fun p hp => ?_) fun h => ?_
    · exact absurd (hp.1.symm.trans hpool) (by simp)
    · exact absurd (h.1.2.1.symm.trans hpool) (by simp)
  | false =>
    rw [← encodesNonzero_poolFactor hflags hcoeff hpool hcell hcells]
    obtain ⟨p, hp, hencode⟩ := hb.factor (hflags.optimizePooling.trans hpool)
    rw [hfloat] at hencode
    rw [← hvalue _ _ _ hencode]
    constructor
    · intro h
      exact h p ⟨hpool, hp⟩
    · rintro h q ⟨-, hq⟩
      cases hp.symm.trans hq
      exact h

/-- The weights of a batch normalisation that is built alone. -/
theorem multiplicand_batchNormalization
    (hvalue : ∀ lv w p, E.ev.encodeAt lv w = .ok p → value p = w) {name : String} {layer : Layer Pt}
    (hbuild : buildLayer E file (.single (.batchNormalization name)) st = .ok (layer, st'))
    (hpos : s.Positive) (hnext : NextFor st.next s) :
    (∀ p, Multiplicand o layer p → EncodesNonzero (value p)) ↔
      ∀ i < s.lastDim, EncodesNonzero ((bnData file (groupPath name name)).weight E.ev.float E.define i) := by
  obtain ⟨l, rfl, hweights, -⟩ := buildBatchNormalization_ok hbuild
  obtain ⟨l', he, hlength, -⟩ := buildBatchNormalization_length hbuild
  cases he
  rw [bnDim_of_next hpos hnext] at hweights hlength
  constructor
  · intro h i hi
    obtain ⟨p, hp, hencode⟩ := hweights i hi
    rw [← hvalue _ _ _ hencode]
    exact h p (mem_of_readVector hp)
  · intro h p hp
    obtain ⟨i, hi, rfl⟩ := List.mem_iff_getElem.1 hp
    obtain ⟨q, hq, hencode⟩ := hweights i (hlength ▸ hi)
    rw [readVector, List.getElem?_eq_getElem hi] at hq
    cases hq
    rw [hvalue _ _ _ hencode]
    exact h i (hlength ▸ hi)

/-- The plaintexts of one layer. -/
theorem multiplicand_iff (hfloat : E.ev.float = binary32) (hdefine : E.define = floatDefine sqrt)
    (hvalue : ∀ lv w p, E.ev.encodeAt lv w = .ok p → value p = w) {call : BuildCall}
    {layer : Layer Pt} (hbuild : buildLayer E file call st = .ok (layer, st'))
    (hs : callShape call s = some s') (hpos : s.Positive) (hnext : NextFor st.next s)
    (hflags : SameFlags st.option o)
    (hcoeff : o.highestDegCoeff = 0 ∨ 1 ≤ |o.highestDegCoeff| * 2 ^ 10)
    (hcells : ∀ info, call = .single (.averagePooling2D info) →
      info.poolSize.1 * info.poolSize.2 ≤ 2 ^ 20) :
    (∀ p, Multiplicand o layer p → EncodesNonzero (value p)) ↔
      (∀ name, call = .single (.batchNormalization name) → ∀ i < s.lastDim,
        EncodesNonzero ((bnData file (groupPath name name)).weight E.ev.float E.define i)) ∧
      ¬(DividesZero o ∧ st.option.shouldMultiplyCoeff = true ∧
        ∃ info, call = .single (.averagePooling2D info)) := by
  -- a layer that is neither a normalisation nor a pooling has to satisfy no condition
  have htrue : (∀ name, call ≠ .single (.batchNormalization name)) →
      (∀ info, call ≠ .single (.averagePooling2D info)) →
      (∀ p, Multiplicand o layer p → EncodesNonzero (value p)) →
      ((∀ p, Multiplicand o layer p → EncodesNonzero (value p)) ↔
        (∀ name, call = .single (.batchNormalization name) → ∀ i < s.lastDim,
          EncodesNonzero ((bnData file (groupPath name name)).weight E.ev.float E.define i)) ∧
        ¬(DividesZero o ∧ st.option.shouldMultiplyCoeff = true ∧
          ∃ info, call = .single (.averagePooling2D info))) :=
    fun hbn hpool h => iff_of_true h ⟨fun name hcall => absurd hcall (hbn name),
      fun ⟨_, _, info, hcall⟩ => hpool info hcall⟩
  by_cases hlinear : call.Linear
  · refine htrue ?_ ?_ fun p hp => multiplicand_kernel hdefine hvalue hbuild hlinear hp
    · rintro name rfl
      exact hlinear
    · rintro info rfl
      exact hlinear
  cases call with
  | conv2DFusedBN info bn => exact absurd trivial hlinear
  | denseFusedBN info bn => exact absurd trivial hlinear
  | single l =>
    cases l with
    | conv2D info => exact absurd trivial hlinear
    | dense info => exact absurd trivial hlinear
    | averagePooling2D info =>
      rw [multiplicand_averagePooling2D hfloat hvalue hbuild hs hflags hcoeff (hcells info rfl)]
      constructor
      · intro h
        exact ⟨by simp, fun hzero => h ⟨hzero.1, hzero.2.1⟩⟩
      · rintro ⟨-, h⟩ hzero
        exact h ⟨hzero.1, hzero.2, info, rfl⟩
    | batchNormalization name =>
      rw [multiplicand_batchNormalization hvalue hbuild hpos hnext]
      constructor
      · intro h
        refine ⟨?_, by simp⟩
        rintro name' hname
        cases hname
        exact h
      · intro h
        exact h.1 name rfl
    | flatten name =>
      cases hbuild
      exact htrue (by simp) (by simp) fun p hp => absurd hp id
    | globalAveragePooling2D name =>
      cases hbuild
      exact htrue (by simp) (by simp) fun p hp => absurd hp id
    | other className => cases hbuild
    | activation name activation =>
      obtain ⟨l, rfl, hname, hcoeffs, -⟩ := buildActivation_ok hbuild
      refine htrue (by simp) (by simp) ?_
      rintro p ⟨-, i, hi, hp⟩
      unfold CoeffsBuilt at hcoeffs
      split at hcoeffs
      · rw [hcoeffs] at hp
        cases hp
      · rw [hflags.optimizeActivation] at hcoeffs
        exact encodesNonzero_swish hdefine hvalue hcoeffs hi hp

/-- A kernel stands for the weights the builder has folded. -/
theorem kernel_standsFor (hdefine : E.define = floatDefine sqrt)
    (hvalue : ∀ lv w p, E.ev.encodeAt lv w = .ok p → value p = w) {call : BuildCall}
    {layer : Layer Pt} (hbuild : buildLayer E file call st = .ok (layer, st')) :
    KernelStandsFor E file value st.option call layer := by
  cases call with
  | conv2DFusedBN info bn =>
    obtain ⟨l, rfl, hb⟩ := buildConv2DFusedBN_ok hbuild
    intro i j ic oc
    rw [hvalue _ _ _ (hb.filters i j ic oc), hdefine]
    exact clampWeight_standsFor sqrt _
  | denseFusedBN info bn =>
    obtain ⟨l, rfl, hb⟩ := buildDenseFusedBN_ok hbuild
    intro i ou
    rw [hvalue _ _ _ (hb.weights i ou), hdefine]
    exact clampWeight_standsFor sqrt _
  | single l =>
    cases l with
    | conv2D info =>
      obtain ⟨l, rfl, hb⟩ := buildConv2D_ok hbuild
      intro i j ic oc
      rw [hvalue _ _ _ (hb.filters i j ic oc), hdefine]
      exact clampWeight_standsFor sqrt _
    | dense info =>
      obtain ⟨l, rfl, hb⟩ := buildDense_ok hbuild
      intro i ou
      rw [hvalue _ _ _ (hb.weights i ou), hdefine]
      exact clampWeight_standsFor sqrt _
    | _ => trivial

/-! ## Networks -/

theorem coeffWaits_optionAfter {fl : ℚ → ℚ} {o : OptOption ℚ} (hact : o.enableOptimizeActivation = true)
    (hpool : o.enableOptimizePooling = false) (s : Shape) (call : BuildCall) :
    (optionAfter fl o s call).shouldMultiplyCoeff = coeffWaitsAfter o.shouldMultiplyCoeff call := by
  have hlinear : (descend o.takeFolding.2 1).shouldMultiplyCoeff = false := by
    cases hwaits : o.shouldMultiplyCoeff with
    | false => simp [OptOption.takeFolding, descend, hpool, hwaits]
    | true => simp [OptOption.takeFolding, descend, hact, hpool, hwaits]
  cases call with
  | conv2DFusedBN info bn => exact hlinear
  | denseFusedBN info bn => exact hlinear
  | single l =>
    cases l with
    | conv2D info => exact hlinear
    | dense info => exact hlinear
    | averagePooling2D info =>
      cases hwaits : o.shouldMultiplyCoeff with
      | false => simp [optionAfter, descend, hpool, hwaits, coeffWaitsAfter]
      | true => simp [optionAfter, descend, hact, hpool, hwaits, coeffWaitsAfter]
    | activation name activation => simp [optionAfter, descend, hact, coeffWaitsAfter]
    | globalAveragePooling2D name => cases s <;> rfl
    | _ => rfl

omit [Field K] [LinearOrder K] in
theorem multiplicand_congr {o o' : OptOption K} (h : SameFlags o o') {layer : Layer Pt} {p : Pt}
    (hp : Multiplicand o layer p) : Multiplicand o' layer p := by
  cases layer with
  | averagePooling2D l => exact ⟨h.optimizePooling ▸ hp.1, hp.2⟩
  | activation l => exact ⟨hp.1, h.optimizeActivation ▸ hp.2⟩
  | _ => exact hp

/-- The plaintexts of all layers. -/
theorem multiplicands_iff (harith : E.arith = .lp64) (hfloat : E.ev.float = binary32)
    (hdefine : E.define = floatDefine sqrt) (hvalue : ∀ lv w p, E.ev.encodeAt lv w = .ok p → value p = w)
    (hcoeff : o.highestDegCoeff = 0 ∨ 1 ≤ |o.highestDegCoeff| * 2 ^ 10) {calls : List BuildCall}
    (hcells : ∀ info, .single (.averagePooling2D info) ∈ calls →
      info.poolSize.1 * info.poolSize.2 ≤ 2 ^ 20) :
    ∀ {st : BuildState ℚ} {s : Shape} {network : List (Layer Pt)},
      buildLayers E file calls st = .ok (network, st') → callShapes calls s = some s' →
      s.Positive → BelowFloat s → NextFor st.next s → SameFlags st.option o →
      ((∀ layer ∈ network, ∀ p, Multiplicand o layer p → EncodesNonzero (value p)) ↔
        NormalizationsNonzero E.ev.float E.define file s calls ∧
          ¬(DividesZero o ∧ PoolingTakesCoeff st.option.shouldMultiplyCoeff calls)) := by
  induction calls with
  | nil =>
    intro st s network hbuild _ _ _ _ _
    cases hbuild
    exact iff_of_true (by simp) ⟨trivial, fun h => h.2⟩
  | cons call calls ih =>
    intro st s network hbuild hs hpos hbelow hnext hflags
    obtain ⟨layer, st1, rest, hlayer, hrest, rfl⟩ := buildLayers_cons hbuild
    obtain ⟨s1, hs1, hs⟩ := Option.bind_eq_some_iff.1 hs
    have hhead := multiplicand_iff hfloat hdefine hvalue hlayer hs1 hpos hnext hflags hcoeff
      fun info hcall => hcells info (hcall ▸ List.mem_cons_self)
    have hoption := buildLayer_option hlayer
    have htail := ih (fun info h => hcells info (List.mem_cons_of_mem _ h)) hrest hs
      (callShape_positive hpos hs1) (callShape_below hs1 hbelow)
      (buildLayer_recorded hlayer hs1 (harith ▸ sizesExact_lp64 hbelow) hpos hnext).2
      ((sameFlags_buildLayer hlayer).trans hflags)
    -- where the flags matter, the coefficient waits after the call as `coeffWaitsAfter` says
    have hwaits : DividesZero o → st1.option.shouldMultiplyCoeff =
        coeffWaitsAfter st.option.shouldMultiplyCoeff call := fun hzero => by
      rw [hoption]
      exact coeffWaits_optionAfter (hflags.optimizeActivation.trans hzero.1)
        (hflags.optimizePooling.trans hzero.2.1) _ call
    have hnorms : NormalizationsNonzero E.ev.float E.define file s (call :: calls) ↔
        (∀ name, call = .single (.batchNormalization name) → ∀ i < s.lastDim,
          EncodesNonzero ((bnData file (groupPath name name)).weight E.ev.float E.define i)) ∧
        NormalizationsNonzero E.ev.float E.define file s1 calls :=
      and_congr_right fun _ => ⟨fun h => h s1 hs1, fun h s2 hs2 => Option.some.inj (hs1.symm.trans hs2) ▸ h⟩
    rw [List.forall_mem_cons, hhead, htail, hnorms]
    by_cases hzero : DividesZero o
    · rw [hwaits hzero]
      simp only [hzero, true_and, PoolingTakesCoeff, not_or]
      exact and_and_and_comm
    · simp only [hzero, false_and, not_false_eq_true, and_true]

theorem highestDegCoeff_computeOption (level : EOptLevel) (act : EActivation)
    (model : String) : (computeOption (floatDefine sqrt) level act model).highestDegCoeff = 0 ∨
      1 ≤ |(computeOption (floatDefine sqrt) level act model).highestDegCoeff| * 2 ^ 10 := by
  have hzero : (OptOption.new (K := ℚ) level act).highestDegCoeff = 0 := by
    cases level <;> rfl
  simp only [computeOption]
  split
  · split
    · right
      refine one_le_binary32_mul (by decide) ?_
      simp only [Define.source, abs_div, abs_neg]
      norm_num
    · split
      · right
        refine one_le_binary32_mul (by decide) ?_
        simp only [Define.source, abs_div, abs_neg]
        norm_num
      · exact .inl hzero
  · exact .inl hzero

end Calls

section Sample

/-- The text of SEAL's exception. -/
def transparent : Error := .runtimeError "result ciphertext is transparent"

/-- Arithmetic on `float` weights in which `multiply_plain` rejects plaintexts that encode to zero. -/
def Evaluator.rejecting : Evaluator ℚ ℚ ℚ :=
  { Evaluator.exact ℚ with
    float := binary32
    multiplyPlain := fun x p => if 1 ≤ |p| * 2 ^ 30 then .ok (p • x) else .error transparent }

def rejectingEnv : Env ℚ ℚ ℚ := ⟨.rejecting, .lp64, floatDefine Rat.sqrt⟩

theorem rejects_rejecting : Rejects transparent id Evaluator.rejecting where
  unassigned := by decide
  modSwitch _ := avoids_ok _ _
  add _ _ := avoids_ok _ _
  addPlain _ _ := avoids_ok _ _
  square _ := avoids_ok _ _
  relinearize _ := avoids_ok _ _
  rescale _ := avoids_ok _ _
  multiplyPlain x p := by
    simp only [Evaluator.rejecting, EncodesNonzero, id_eq]
    split
    · rename_i h
      exact iff_of_false (fun h => nomatch h) (not_not.2 h)
    · rename_i h
      exact iff_of_true rfl h

/-- A weights file with ones, apart from the data sets of one key. -/
def oneButFile (key : String) (value : ℚ) : H5File ℚ := unitFile fun k => if k = key then value else 1

/-- A normalised image. -/
def normalizedLayers : List LayerInfo :=
  [unitConv "conv2d" (some (1, 1, 1)), .activation "activation" "square",
    .batchNormalization "batch_normalization", .flatten "flatten", unitDense "dense"]

/-- A pooled square. -/
def pooledLayers : List LayerInfo :=
  [unitConv "conv2d" (some (2, 2, 1)), .activation "activation" "square",
    squarePool "average_pooling2d" 2, .flatten "flatten", unitDense "dense"]

/-- A mean over nine cells. -/
def nineLayers : List LayerInfo :=
  [unitConv "conv2d" (some (3, 3, 1)), squarePool "average_pooling2d" 3, .flatten "flatten",
    unitDense "dense"]

/-- The weights of the dense layers. -/
def denseWeights (layers : List (Layer ℚ)) : List ℚ :=
  layers.flatMap fun
    | .dense l => (List.finRange l.inUnits).flatMap fun i => List.ofFn (l.plainWeights i)
    | _ => []

end Sample

end Cnn
