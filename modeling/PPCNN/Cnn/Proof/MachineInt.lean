import PPCNN.Cnn.Proof.Forward

/-!
# Window arithmetic in machine integers

The padding is a `size_t` that wraps around below zero, and the origin of a window is stored into an
`int`. For extents below `2 ^ 30` both cancel: a tap reads the coordinate that it has with integers
without bounds (`AxisReads`), and so do the loops of `forward` (`conv2D_forward_unbounded`,
`averagePooling2D_forward_unbounded`). The output size is a quotient of `float`s. It is the one of the
reference where its ceiling is exact (`QuotientExact`), as it is below `2 ^ 24`.
-/

set_option autoImplicit false

namespace Cnn.Proof

open Lib Keras

/-! ## Integers -/

/-- An `int` holds what is congruent to a value in its range as this value. -/
theorem bmod_eq {z k : ℤ} (h : (z - k) % 2 ^ 32 = 0) (hlo : -2 ^ 31 ≤ k) (hhi : k < 2 ^ 31) :
    Int.bmod z (2 ^ 32) = k := by
  simp only [Int.bmod]
  split <;> omega

/-- The wrapped difference in `size_t`, half of it, and the origin and tap in `int`. -/
theorem int_coord {origin tap d : ℤ} (ho : -2 ^ 31 ≤ origin - d / 2 ∧ origin - d / 2 < 2 ^ 31)
    (ht : -2 ^ 31 ≤ origin - d / 2 + tap ∧ origin - d / 2 + tap < 2 ^ 31) :
    IntArith.lp64.int (IntArith.lp64.int (origin - IntArith.lp64.size d / 2) + tap) =
      origin - d / 2 + tap := by
  simp only [IntArith.lp64]
  have horigin : Int.bmod (origin - d % 2 ^ 64 / 2) (2 ^ 32) = origin - d / 2 :=
    bmod_eq (by omega) (by omega) (by omega)
  rw [horigin]
  exact bmod_eq (by omega) (by omega) (by omega)

/-! ## Axes -/

/-- The extents of one axis of a window operation that Keras takes. In machine integers they are below
`2 ^ 24`, where a `float` holds them. -/
structure AxisDims (A : IntArith) (padding : String) (inSize size stride : ℕ) : Prop where
  inSize_pos : 0 < inSize
  size_pos : 0 < size
  stride_pos : 0 < stride
  valid : padding = "valid" → size ≤ inSize
  bounded : A = .unbounded ∨ A = .lp64 ∧ inSize < 2 ^ 24 ∧ size < 2 ^ 24 ∧ stride < 2 ^ 24

variable {A : IntArith} {padding : String} {inSize size stride : ℕ}

/-- Keras takes positive extents under both paddings. -/
theorem exists_outSize (hpos : 0 < inSize ∧ 0 < size ∧ 0 < stride)
    (hvalid : padding = "valid" → size ≤ inSize) (hpad : padding = "valid" ∨ padding = "same") :
    ∃ out, outSize padding inSize size stride = some out := by
  rw [outSize, if_pos hpos]
  rcases hpad with rfl | rfl
  · rw [if_pos rfl, if_pos (hvalid rfl)]
    exact ⟨_, rfl⟩
  · exact ⟨_, rfl⟩

theorem AxisDims.outSize (h : AxisDims A padding inSize size stride)
    (hpad : padding = "valid" ∨ padding = "same") :
    ∃ out, Keras.outSize padding inSize size stride = some out :=
  exists_outSize ⟨h.inSize_pos, h.size_pos, h.stride_pos⟩ h.valid hpad

/-- What the constructors divide by the stride. -/
def dividend (padding : String) (inSize size : ℕ) : ℕ :=
  if padding = "valid" then inSize - size + 1 else inSize

/-- The ceiling of the quotient, which the constructors take in `float`, is exact. -/
def QuotientExact (padding : String) (inSize size stride : ℕ) : Prop :=
  IntArith.lp64.ceilQuotient (dividend padding inSize size) stride =
    (dividend padding inSize size + stride - 1) / stride

instance (padding : String) (inSize size stride : ℕ) :
    Decidable (QuotientExact padding inSize size stride) :=
  inferInstanceAs (Decidable (_ = _))

theorem outSize_eq {out : ℕ} (h : Keras.outSize padding inSize size stride = some out) :
    out = (dividend padding inSize size + stride - 1) / stride := by
  obtain ⟨-, -, hs, -⟩ := outSize_pos h
  obtain ⟨rfl, hle, rfl⟩ | ⟨rfl, rfl⟩ := outSize_cases h
  · rw [dividend, if_pos rfl, show inSize - size + 1 + stride - 1 = inSize - size + stride by omega,
      Nat.add_div_right _ hs]
  · rw [dividend, if_neg (by decide)]

/-- The output size of the constructors. -/
theorem axis_out {out : ℕ} {a : Axis} (h : Keras.outSize padding inSize size stride = some out)
    (hi : inSize < 2 ^ 64) (ha : Axis.new .lp64 padding inSize size stride = .ok a) :
    a.out = IntArith.lp64.ceilQuotient (dividend padding inSize size) stride := by
  obtain ⟨-, hz, -⟩ := outSize_pos h
  obtain ⟨rfl, hle, -⟩ | ⟨rfl, -⟩ := outSize_cases h
  · have hsize : (IntArith.lp64.size ((inSize : ℤ) - size + 1)).toNat = inSize - size + 1 := by
      simp only [IntArith.lp64]
      omega
    rw [Axis.new, if_pos rfl, hsize] at ha
    cases ha
    rw [dividend, if_pos rfl]
  · rw [Axis.new, if_neg (by decide), if_pos rfl] at ha
    cases ha
    exact congrArg (IntArith.lp64.ceilQuotient · stride) (if_neg (by decide)).symm

theorem quotientExact_of_lt {out : ℕ} (h : Keras.outSize padding inSize size stride = some out)
    (hi : inSize < 2 ^ 24) : QuotientExact padding inSize size stride := by
  obtain ⟨-, hz, hs, -⟩ := outSize_pos h
  refine IntArith.ceilQuotient_lp64 ?_ hs
  obtain ⟨rfl, hle, -⟩ | ⟨rfl, -⟩ := outSize_cases h
  · rw [dividend, if_pos rfl]
    omega
  · rwa [dividend, if_neg (by decide)]

/-- A `float` takes the first extent it does not hold for the one below. -/
example : ¬QuotientExact "valid" (2 ^ 24 + 1) 1 1 := by decide +kernel

/-- The constructors have the output size of the window, and a tap reads where it reads without bounds. -/
def AxisReads (A : IntArith) (padding : String) (inSize size stride : ℕ) (w : Window) : Prop :=
  ∃ a, Axis.new A padding inSize size stride = .ok a ∧ a.out = w.out ∧
    ∀ o < w.out, ∀ t < size, A.int (A.int ((o : ℤ) * stride - a.padBefore) + t) = w.coord stride o t

/-- The constructors with machine integers. -/
theorem axis_lp64 (hilt : inSize < 2 ^ 30) (hzlt : size < 2 ^ 30)
    (hexact : QuotientExact padding inSize size stride) {w : Window}
    (h : window samePadAxis padding inSize size stride = some w) :
    AxisReads .lp64 padding inSize size stride w := by
  obtain ⟨hsome, hpad⟩ := window_eq_some.1 h
  obtain ⟨hi, hz, hs, -⟩ := outSize_pos hsome
  have hout : ∀ a, Axis.new .lp64 padding inSize size stride = .ok a → a.out = w.out := by
    intro a ha
    rw [axis_out hsome (by omega) ha, hexact, outSize_eq hsome]
  obtain ⟨rfl, hle, -⟩ | ⟨rfl, hceil⟩ := outSize_cases hsome
  · refine ⟨_, if_pos rfl, hout _ (if_pos rfl), fun o ho t ht => ?_⟩
    · have hin := window_valid h ho ht
      rw [if_neg (by decide)] at hpad
      simp only [Window.inside, Window.coord, hpad] at hin ⊢
      have hnonneg : 0 ≤ (o : ℤ) * stride :=
        Int.mul_nonneg (Int.natCast_nonneg o) (Int.natCast_nonneg stride)
      have hcoord : IntArith.lp64.int (IntArith.lp64.int (o * stride - IntArith.lp64.size 0 / 2) + t) =
          o * stride - 0 / 2 + t := int_coord (by omega) (by omega)
      simpa [IntArith.lp64] using hcoord
  · refine ⟨_, rfl, hout _ rfl, fun o ho t ht => ?_⟩
    have hlast := last_window_lt hi hs (hceil ▸ ho)
    have hpadAlong : (if inSize % stride = 0 then IntArith.lp64.size ((size : ℤ) - stride)
        else IntArith.lp64.size ((size : ℤ) - (inSize % stride : ℕ))) =
        IntArith.lp64.size ((size : ℤ) - lastStep inSize stride) := by
      rw [lastStep]
      split <;> rfl
    have hnonneg : 0 ≤ (o : ℤ) * stride :=
      Int.mul_nonneg (Int.natCast_nonneg o) (Int.natCast_nonneg stride)
    rw [if_pos rfl, samePadAxis_def] at hpad
    simp only [Window.coord, hpad, hpadAlong]
    exact int_coord (by omega) (by omega)

/-- The constructors with extents that fit the integers. -/
theorem axis_coord (hdims : AxisDims A padding inSize size stride) {w : Window}
    (h : window samePadAxis padding inSize size stride = some w) :
    AxisReads A padding inSize size stride w := by
  rcases hdims.bounded with rfl | ⟨rfl, hi, hz, -⟩
  · obtain ⟨a, ha, hout, hpad⟩ := axis_of_window h
    exact ⟨a, ha, hout, fun o _ t _ => by rw [hpad]; rfl⟩
  · exact axis_lp64 (hi.trans (by decide)) (hz.trans (by decide))
      (quotientExact_of_lt (window_eq_some.1 h).1 hi) h

/-! ## Layers -/

variable {K Pt Ct : Type} {ev : Evaluator K Pt Ct}

/-- The layer with these paddings before its axes. -/
def conv2DWithPadding (l : Conv2D Pt) (padTop padLeft : ℤ) : Conv2D Pt :=
  { l with
    vertical := { l.vertical with padBefore := padTop }
    horizontal := { l.horizontal with padBefore := padLeft } }

/-- The layer with these paddings before its axes. -/
def poolWithPadding (l : AveragePooling2D Pt) (padTop padLeft : ℤ) :
    AveragePooling2D Pt :=
  { l with
    vertical := { l.vertical with padBefore := padTop }
    horizontal := { l.horizontal with padBefore := padLeft } }

/-- Only the coordinates of the taps matter. -/
theorem conv2D_forward_unbounded {l : Conv2D Pt} {padTop padLeft : ℤ}
    (hv : ∀ o < l.outHeight, ∀ t < l.filterHeight,
      A.int (A.int ((o : ℤ) * l.strideHeight - l.padTop) + t) = o * l.strideHeight - padTop + t)
    (hh : ∀ o < l.outWidth, ∀ t < l.filterWidth,
      A.int (A.int ((o : ℤ) * l.strideWidth - l.padLeft) + t) = o * l.strideWidth - padLeft + t)
    (input : Tensor3 Ct) :
    l.forward ev A input = (conv2DWithPadding l padTop padLeft).forward ev .unbounded input := by
  refine congrArg (Tensor3.build l.outHeight l.outWidth l.filterSize)
    (funext fun oh => funext fun ow => funext fun oc => ?_)
  have htap : l.tap ev A input (A.int (oh * l.strideHeight - l.padTop))
      (A.int (ow * l.strideWidth - l.padLeft)) oc =
      (conv2DWithPadding l padTop padLeft).tap ev .unbounded input (oh * l.strideHeight - padTop)
        (ow * l.strideWidth - padLeft) oc := by
    funext acc p
    simp only [Conv2D.tap, hv oh oh.isLt p.1 p.1.isLt, hh ow ow.isLt p.2 p.2.isLt]
    rfl
  exact congrArg (fun tap => (windowTaps l.filterHeight l.filterWidth).foldlM tap (0, none) >>=
    fun acc => finishLinear ev acc.2 (l.plainBiases oc)) htap

theorem averagePooling2D_forward_unbounded {l : AveragePooling2D Pt} {padTop padLeft : ℤ}
    (hv : ∀ o < l.outHeight, ∀ t < l.poolHeight,
      A.int (A.int ((o : ℤ) * l.strideHeight - l.padTop) + t) = o * l.strideHeight - padTop + t)
    (hh : ∀ o < l.outWidth, ∀ t < l.poolWidth,
      A.int (A.int ((o : ℤ) * l.strideWidth - l.padLeft) + t) = o * l.strideWidth - padLeft + t)
    (o : OptOption K) (input : Tensor3 Ct) :
    l.forward ev A o input = (poolWithPadding l padTop padLeft).forward ev .unbounded o input := by
  refine congrArg (Tensor3.build l.outHeight l.outWidth l.inChannels)
    (funext fun oh => funext fun ow => funext fun oc => ?_)
  have htap : l.tap ev A input (A.int (oh * l.strideHeight - l.padTop))
      (A.int (ow * l.strideWidth - l.padLeft)) oc =
      (poolWithPadding l padTop padLeft).tap ev .unbounded input (oh * l.strideHeight - padTop)
        (ow * l.strideWidth - padLeft) oc := by
    funext out p
    simp only [AveragePooling2D.tap, hv oh oh.isLt p.1 p.1.isLt, hh ow ow.isLt p.2 p.2.isLt]
    rfl
  exact congrArg (fun tap => (windowTaps l.poolHeight l.poolWidth).foldlM tap none >>= fun out =>
    if o.enableOptimizePooling then Evaluator.assigned out
    else do
      ev.rescale
        (← ev.multiplyPlain (← Evaluator.assigned out) (← Evaluator.assigned l.plainMulFactor))) htap

end Cnn.Proof
