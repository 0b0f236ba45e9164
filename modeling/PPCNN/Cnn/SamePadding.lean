import PPCNN.Cnn.Proof.MachineInt
import PPCNN.Cnn.Proof.CoeffRatio

/-!
# Padding of convolutions and poolings (`conv2d.cpp`, `average_pooling2d.cpp`)

Under `same` padding the constructors subtract what the last stride covers from the window and halve the
difference; where the window is smaller, the padding becomes negative and moves the windows. So a
convolution is the one of Keras only if the filter covers the last stride (`conv2D_iff`), and a pooling only
if the pool is what the last stride covers (`averagePooling2D_iff`).
-/

set_option autoImplicit false

namespace Cnn.Proof

open Lib Keras

variable {K V : Type} [Field K] [CommRing V] [Algebra K V]

/-! ## Tensors -/

/-- The tensor of which only cell `(y, x, c)` is not zero. -/
def cellInput (V : Type) [CommRing V] (height width channels y x c : ℕ) : Tensor3 V :=
  ⟨height, width, channels, fun i j k => if i.val = y ∧ j.val = x ∧ k.val = c then 1 else 0⟩

theorem padded_cellInput {height width channels y x c : ℕ} (hy : y < height) (hx : x < width)
    (hc : c < channels) (a b : ℤ) (k : ℕ) :
    (cellInput V height width channels y x c).padded a b k = if a = y ∧ b = x ∧ k = c then 1 else 0 := by
  rw [Tensor3.padded]
  split
  · rename_i hin
    have hiff : a.toNat = y ∧ b.toNat = x ∧ k = c ↔ a = y ∧ b = x ∧ k = c := by omega
    simp only [cellInput, hiff]
  · rename_i hin
    refine (if_neg ?_).symm
    rintro ⟨rfl, rfl, rfl⟩
    exact hin ⟨⟨by omega, by simpa [cellInput] using hy⟩, ⟨by omega, by simpa [cellInput] using hx⟩, hc⟩

/-- A sum over the taps of a window of which one is not zero. -/
theorem sum_taps_single {M : Type} [AddCommMonoid M] {n m p q : ℕ} (hp : p < n) (hq : q < m) {f : ℕ → ℕ → M}
    (h : ∀ i j, ¬(i = p ∧ j = q) → f i j = 0) :
    ∑ i ∈ Finset.range n, ∑ j ∈ Finset.range m, f i j = f p q := by
  rw [Finset.sum_eq_single_of_mem p (Finset.mem_range.2 hp),
    Finset.sum_eq_single_of_mem q (Finset.mem_range.2 hq)]
  · intro j _ hne
    exact h p j fun hpq => hne hpq.2
  · intro i _ hne
    exact Finset.sum_eq_zero fun j _ => h i j fun hpq => hne hpq.1

/-! ## Conv2D -/

section Conv2D

variable {A : IntArith} {padding : String}
  {inHeight inWidth inChannels filterHeight filterWidth strideHeight strideWidth : ℕ}

/-- `Conv2D` computes the convolution over the windows of its constructor. -/
theorem conv2D_forward (name activation : String)
    (hv : AxisDims A padding inHeight filterHeight strideHeight)
    (hh : AxisDims A padding inWidth filterWidth strideWidth) (hn : 0 < inChannels) {win : Windows}
    (hwin : windows samePadAxis padding inHeight inWidth (filterHeight, filterWidth)
      (strideHeight, strideWidth) = some win) (filterSize : ℕ) (kernel : ℕ → ℕ → ℕ → ℕ → K)
    (bias : ℕ → K) (o : OptOption K) :
    ∃ l o', Conv2D.new A name inHeight inWidth inChannels filterSize filterHeight filterWidth
        strideHeight strideWidth padding activation (fun i j c f => kernel i j c f) (fun f => bias f) o =
          .ok (l, o') ∧
      ∀ input : Tensor3 V, (input.height, input.width, input.channels) = (inHeight, inWidth, inChannels) →
        l.forward (.exact V) A input = .ok (win.conv2D filterSize kernel bias input) := by
  obtain ⟨wv, wh, hsize, hstride⟩ := windows_eq_some.1 hwin
  obtain ⟨av, hav, hvout, hvcoord⟩ := axis_coord hv wv
  obtain ⟨ah, hah, hhout, hhcoord⟩ := axis_coord hh wh
  let l : Conv2D K := {
    name, inHeight, inWidth, inChannels, filterSize, filterHeight, filterWidth, strideHeight, strideWidth
    padding, activation, vertical := av, horizontal := ah
    plainFilters := fun i j c f => kernel i j c f, plainBiases := fun f => bias f }
  have hnew : Conv2D.new A name inHeight inWidth inChannels filterSize filterHeight filterWidth
      strideHeight strideWidth padding activation (fun i j c f => kernel i j c f) (fun f => bias f) o =
      .ok (l, { o with consumedLevel := o.consumedLevel + 1 }) := by
    simp only [Conv2D.new, hav, hah, ok_bind, pure_eq_ok, l]
  have hwindows : convWindows (conv2DWithPadding l win.vertical.padBefore win.horizontal.padBefore) = win := by
    simp only [convWindows, conv2DWithPadding, l, hvout, hhout, ← hsize, ← hstride]
  refine ⟨l, _, hnew, fun input hdims => ?_⟩
  simp only [Prod.mk.injEq] at hdims
  obtain ⟨rfl, rfl, rfl⟩ := hdims
  have hforward : l.forward (.exact V) A input =
      (conv2DWithPadding l win.vertical.padBefore win.horizontal.padBefore).forward (.exact V) .unbounded
        input :=
    conv2D_forward_unbounded (l := l) (fun o ho => hvcoord o (ho.trans_eq hvout))
      (fun o ho => hhcoord o (ho.trans_eq hhout)) input
  have hconv : ∃ t, (conv2DWithPadding l win.vertical.padBefore win.horizontal.padBefore).forward
      (.exact V) .unbounded input = .ok t ∧
        (exactInterp K V).RepImage 1 1 t (win.conv2D filterSize kernel bias input) := by
    have hk : ∀ i j c f, (exactInterp K V).repPlain 0 (l.plainFilters i j c f) (kernel i j c f) :=
      fun _ _ _ _ => rfl
    have hb : ∀ f, (exactInterp K V).repPlain 1 (l.plainBiases f) (bias f) := fun _ => rfl
    have hrep := conv2D_rep
      (l := conv2DWithPadding l win.vertical.padBefore win.horizontal.padBefore)
      (repImage_exact input 0 (1 : K)) rfl rfl rfl hn (hwindows.symm ▸ hasTaps_of_windows hwin) hk hb trivial
    rwa [hwindows] at hrep
  obtain ⟨t, ht, hrep⟩ := hconv
  rw [hforward, ht, eq_of_repImage_exact hrep]

/-- The kernel of which only tap `(p, q)` of the first channel is not zero. -/
def tapKernel (p q : ℕ) : ℕ → ℕ → ℕ → ℕ → K := fun i j c _ => if i = p ∧ j = q ∧ c = 0 then 1 else 0

theorem conv2D_tapKernel {w : Windows} {t : Tensor3 V} {filters p q : ℕ} (hv : 0 < w.vertical.out)
    (hh : 0 < w.horizontal.out) (hf : 0 < filters) (hp : p < w.size.1) (hq : q < w.size.2)
    (hc : 0 < t.channels) :
    (w.conv2D filters (tapKernel p q : ℕ → ℕ → ℕ → ℕ → K) (fun _ => 0) t).padded 0 0 0 =
      w.read t 0 0 p q 0 := by
  have hcell := Tensor3.padded_cell
    (w.conv2D filters (tapKernel p q : ℕ → ℕ → ℕ → ℕ → K) (fun _ => 0) t) ⟨0, hv⟩ ⟨0, hh⟩ ⟨0, hf⟩
  refine hcell.trans ?_
  simp only [Windows.conv2D, tapKernel, map_zero, add_zero]
  rw [sum_taps_single hp hq, Finset.sum_eq_single_of_mem 0 (Finset.mem_range.2 hc)]
  · simp
  · intro c _ hne
    simp [hne]
  · intro i j hne
    refine Finset.sum_eq_zero fun c _ => ?_
    rw [if_neg fun h => hne ⟨h.1, h.2.1⟩, zero_smul]

/-- Convolutions agree only over the same windows. -/
theorem padBefore_eq_of_conv2D [Nontrivial V] {w w' : Windows} {height width channels filters : ℕ}
    (hsize : w'.size = w.size) (hv : 0 < w.vertical.out ∧ 0 < w'.vertical.out)
    (hh : 0 < w.horizontal.out ∧ 0 < w'.horizontal.out) (hf : 0 < filters)
    (hpv : 0 ≤ w.vertical.padBefore ∧ w.vertical.padBefore.toNat < w.size.1)
    (hph : 0 ≤ w.horizontal.padBefore ∧ w.horizontal.padBefore.toNat < w.size.2)
    (hpos : 0 < height ∧ 0 < width ∧ 0 < channels)
    (heq : ∀ (kernel : ℕ → ℕ → ℕ → ℕ → K) (bias : ℕ → K) (t : Tensor3 V),
      (t.height, t.width, t.channels) = (height, width, channels) →
        w'.conv2D filters kernel bias t = w.conv2D filters kernel bias t) :
    w'.vertical.padBefore = w.vertical.padBefore ∧ w'.horizontal.padBefore = w.horizontal.padBefore := by
  -- the tap over cell `(0, 0, 0)` of the first window
  obtain ⟨p, hp⟩ := Int.eq_ofNat_of_zero_le hpv.1
  obtain ⟨q, hq⟩ := Int.eq_ofNat_of_zero_le hph.1
  rw [hp, Int.toNat_natCast] at hpv
  rw [hq, Int.toNat_natCast] at hph
  have hread : w'.read (cellInput V height width channels 0 0 0) 0 0 p q 0 =
      w.read (cellInput V height width channels 0 0 0) 0 0 p q 0 := by
    have hcell := congrArg (fun u => u.padded 0 0 0)
      (heq (tapKernel p q) (fun _ => 0) (cellInput V height width channels 0 0 0) rfl)
    have htap := conv2D_tapKernel (K := K) hv.1 hh.1 hf hpv.2 hph.2
      (show 0 < (cellInput V height width channels 0 0 0).channels from hpos.2.2)
    have htap' := conv2D_tapKernel (K := K) hv.2 hh.2 hf (hsize.symm ▸ hpv.2) (hsize.symm ▸ hph.2)
      (show 0 < (cellInput V height width channels 0 0 0).channels from hpos.2.2)
    exact htap'.symm.trans (hcell.trans htap)
  simp only [Windows.read, padded_cellInput hpos.1 hpos.2.1 hpos.2.2, Window.coord, Nat.cast_zero, zero_mul,
    and_true, hp, hq] at hread
  by_contra hne
  rw [if_neg (by omega), if_pos (by omega)] at hread
  exact zero_ne_one hread

/-- Without filters there are no cells. -/
theorem conv2D_no_filters {w w' : Windows} {kernel : ℕ → ℕ → ℕ → ℕ → K} {bias : ℕ → K} {t : Tensor3 V}
    (hv : w.vertical.out = w'.vertical.out) (hh : w.horizontal.out = w'.horizontal.out) :
    w.conv2D 0 kernel bias t = w'.conv2D 0 kernel bias t := by
  obtain ⟨⟨oh, pt⟩, ⟨ow, pl⟩, size, stride⟩ := w
  obtain ⟨⟨oh', pt'⟩, ⟨ow', pl'⟩, size', stride'⟩ := w'
  dsimp only at hv hh
  subst hv hh
  exact congrArg (Tensor3.mk _ _ 0) (funext fun _ => funext fun _ => funext fun oc => oc.elim0)

/-- The convolution over the windows of the constructor is the one over the windows of Keras, for every
kernel, bias and input, exactly if the filter covers the last stride of both axes. -/
theorem conv2D_samePadAxis_iff [Nontrivial V] (hpad : padding = "valid" ∨ padding = "same")
    {height width channels filters : ℕ} {size stride : ℕ × ℕ} {win win' : Windows}
    (hwin : windows samePad padding height width size stride = some win)
    (hwin' : windows samePadAxis padding height width size stride = some win') (hn : 0 < channels) :
    (∀ (kernel : ℕ → ℕ → ℕ → ℕ → K) (bias : ℕ → K) (t : Tensor3 V),
      (t.height, t.width, t.channels) = (height, width, channels) →
        win'.conv2D filters kernel bias t = win.conv2D filters kernel bias t) ↔
    padding = "valid" ∨ filters = 0 ∨
      (lastStep height stride.1 ≤ size.1 ∧ lastStep width stride.2 ≤ size.2) := by
  obtain ⟨wv, wh, rfl, rfl⟩ := windows_eq_some.1 hwin
  obtain ⟨wv', wh', hsize, -⟩ := windows_eq_some.1 hwin'
  obtain ⟨hi, -, hs, hov⟩ := outSize_pos (window_eq_some.1 wv).1
  obtain ⟨hi', -, hs', how⟩ := outSize_pos (window_eq_some.1 wh).1
  have hoveq : win.vertical.out = win'.vertical.out :=
    Option.some.inj ((window_eq_some.1 wv).1.symm.trans (window_eq_some.1 wv').1)
  have howeq : win.horizontal.out = win'.horizontal.out :=
    Option.some.inj ((window_eq_some.1 wh).1.symm.trans (window_eq_some.1 wh').1)
  constructor
  · intro heq
    by_contra hne
    push Not at hne
    obtain ⟨hvalid, hfilters, hlast⟩ := hne
    have hsame : padding = "same" := hpad.resolve_left hvalid
    have hpads : ∀ {pad inSize size stride w}, window pad padding inSize size stride = some w →
        w.padBefore = pad inSize size stride := fun h => (window_eq_some.1 h).2.trans (if_pos hsame)
    have hbound : ∀ {inSize size stride w}, window samePad padding inSize size stride = some w →
        0 ≤ w.padBefore ∧ w.padBefore.toNat < size := by
      intro inSize size stride w h
      obtain ⟨hi, hz, hs, -⟩ := outSize_pos (window_eq_some.1 h).1
      rw [hpads h, samePad_eq_sub hi hs]
      omega
    obtain ⟨hpv, hph⟩ := padBefore_eq_of_conv2D hsize ⟨hov, hoveq ▸ hov⟩ ⟨how, howeq ▸ how⟩
      (Nat.pos_of_ne_zero hfilters) (hbound wv) (hbound wh) ⟨hi, hi', hn⟩ heq
    rw [hpads wv, hpads wv', samePadAxis_eq_iff hi hs] at hpv
    rw [hpads wh, hpads wh', samePadAxis_eq_iff hi' hs'] at hph
    exact absurd hph (not_le.2 (hlast hpv))
  · intro h kernel bias t _
    by_cases hfilters : filters = 0
    · subst hfilters
      exact conv2D_no_filters hoveq.symm howeq.symm
    · have hlast := h.imp_right fun h => h.resolve_left hfilters
      have hsame : some win' = some win := hwin'.symm.trans ((windows_samePadAxis_lastStep hlast).trans hwin)
      rw [Option.some.inj hsame]

/-- `Conv2D` computes the convolution of Keras, for every kernel, bias and input, exactly if the filter
covers the last stride of both axes. -/
theorem conv2D_iff [Nontrivial V] (A : IntArith) (name activation : String) (hpad : padding = "valid" ∨ padding = "same")
    (hv : AxisDims A padding inHeight filterHeight strideHeight)
    (hh : AxisDims A padding inWidth filterWidth strideWidth) (hn : 0 < inChannels) (filterSize : ℕ)
    (o : OptOption K) :
    (∀ (kernel : ℕ → ℕ → ℕ → ℕ → K) (bias : ℕ → K), ∃ l o' win,
      Conv2D.new A name inHeight inWidth inChannels filterSize filterHeight filterWidth strideHeight
        strideWidth padding activation (fun i j c f => kernel i j c f) (fun f => bias f) o = .ok (l, o') ∧
      windows samePad padding inHeight inWidth (filterHeight, filterWidth) (strideHeight, strideWidth) =
        some win ∧
      ∀ input : Tensor3 V, (input.height, input.width, input.channels) = (inHeight, inWidth, inChannels) →
        l.forward (.exact V) A input = .ok (win.conv2D filterSize kernel bias input)) ↔
    padding = "valid" ∨ filterSize = 0 ∨
      (lastStep inHeight strideHeight ≤ filterHeight ∧ lastStep inWidth strideWidth ≤ filterWidth) := by
  obtain ⟨oh, hoh⟩ := hv.outSize hpad
  obtain ⟨ow, how⟩ := hh.outSize hpad
  have hwindows : ∀ pad, ∃ win, windows pad padding inHeight inWidth (filterHeight, filterWidth)
      (strideHeight, strideWidth) = some win ∧ win.vertical.out = oh ∧ win.horizontal.out = ow :=
    fun pad => windows_of_outSize hoh how pad
  obtain ⟨win, hwin, -, -⟩ := hwindows samePad
  obtain ⟨win', hwin', -, -⟩ := hwindows samePadAxis
  have hcode := fun kernel bias => conv2D_forward (K := K) (V := V) name activation hv hh hn hwin'
    filterSize kernel bias o
  rw [← conv2D_samePadAxis_iff (K := K) (V := V) hpad hwin hwin' hn]
  constructor
  · intro h kernel bias t ht
    obtain ⟨l, o', w, hnew, hw, hforward⟩ := h kernel bias
    obtain ⟨l', o'', hnew', hforward'⟩ := hcode kernel bias
    cases hnew.symm.trans hnew'
    cases hw.symm.trans hwin
    exact Except.ok.inj ((hforward' t ht).symm.trans (hforward t ht))
  · intro heq kernel bias
    obtain ⟨l, o', hnew, hforward⟩ := hcode kernel bias
    refine ⟨l, o', win, hnew, hwin, fun input hdims => ?_⟩
    rw [hforward input hdims, heq kernel bias input hdims]

/-- The only window under a filter of one cell with a stride of two stands over cell `(1, 1)`. -/
theorem conv2D_iff_differs :
    AxisDims .lp64 "same" 2 1 2 ∧ ∃ l o' win,
      Conv2D.new .lp64 "conv2d" 2 2 1 1 1 1 2 2 "same" "linear" (fun _ _ _ _ => (1 : ℚ)) (fun _ => 0)
        (OptOption.new .noOpt .default : OptOption ℚ) = .ok (l, o') ∧
      windows samePad "same" 2 2 (1, 1) (2, 2) = some win ∧
      (Tensor3.toUnits <$> l.forward (.exact ℚ) .lp64 (cellInput ℚ 2 2 1 1 1 0)) = .ok [1] ∧
      (win.conv2D 1 (fun _ _ _ _ => (1 : ℚ)) (fun _ => 0) (cellInput ℚ 2 2 1 1 1 0)).toUnits = [0] :=
  ⟨⟨by decide, by decide, by decide, by decide, .inr ⟨rfl, by decide, by decide, by decide⟩⟩, _, _, _, rfl, rfl,
    by decide +kernel⟩

theorem conv2D_iff_sample :
    (AxisDims .lp64 "same" 3 2 2 ∧ 0 < 1) ∧ ∃ l o' win,
      Conv2D.new .lp64 "conv2d" 3 3 1 1 2 2 2 2 "same" "linear" (fun _ _ _ _ => (1 : ℚ)) (fun _ => 0)
        (OptOption.new .noOpt .default : OptOption ℚ) = .ok (l, o') ∧
      windows samePad "same" 3 3 (2, 2) (2, 2) = some win ∧
      ∀ input : Tensor3 ℚ, (input.height, input.width, input.channels) = (3, 3, 1) →
        l.forward (.exact ℚ) .lp64 input =
          .ok (win.conv2D 1 (fun _ _ _ _ => (1 : ℚ)) (fun _ => 0) input) := by
  have hdims : AxisDims .lp64 "same" 3 2 2 :=
    ⟨by decide, by decide, by decide, by decide, .inr ⟨rfl, by decide, by decide, by decide⟩⟩
  exact ⟨⟨hdims, by decide⟩, (conv2D_iff .lp64 "conv2d" "linear" (.inr rfl) hdims hdims one_pos 1 _).2
    (.inr (.inr (by decide))) (fun _ _ _ _ => 1) fun _ => 0⟩

end Conv2D

/-! ## AveragePooling2D -/

/-- The coefficient of an activation that the builder divides by the size of the pool. -/
def poolCoeff (o : OptOption K) : K := if o.enableOptimizePooling then 1 else coeffPart o

/-- The divisor that the builder leaves in the option. -/
theorem poolPart_optionAfter (o : OptOption K) (s : Shape) (info : AveragePooling2DInfo) :
    poolPart (optionAfter id o s (.single (.averagePooling2D info))) =
      if o.enableOptimizePooling then 1 / ((info.poolSize.1 * info.poolSize.2 : ℕ) : K) else 1 := by
  rw [poolPart, (sameFlags_optionAfter o s _).optimizePooling]
  cases hpool : o.enableOptimizePooling <;> simp [optionAfter, hpool]

omit [Field K] in
/-- A window of which the first tap is outside the image is never assigned to. -/
theorem pool_tap_none {Pt Ct : Type} {ev : Evaluator K Pt Ct} {l : AveragePooling2D Pt} {input : Tensor3 Ct}
    {targetTop targetLeft : ℤ} {oc : ℕ} {p : Fin l.poolHeight × Fin l.poolWidth} {out : Option Ct}
    (hfirst : isOutOfRangeInput l.inHeight l.inWidth targetLeft targetTop = true)
    (h : l.tap ev .unbounded input targetTop targetLeft oc none p = .ok out) : out = none := by
  obtain ⟨i, j⟩ := p
  unfold AveragePooling2D.tap at h
  dsimp only at h
  split at h
  · cases h
    rfl
  · rename_i hin
    have hlater : (i.val == 0 && j.val == 0) = false := by
      rw [← Bool.not_eq_true]
      intro hzero
      simp only [Bool.and_eq_true, beq_iff_eq] at hzero
      rw [hzero.1, hzero.2] at hin
      simp only [IntArith.unbounded, Nat.cast_zero, add_zero] at hin
      exact hin hfirst
    rw [hlater] at h
    obtain ⟨x, -, hadd⟩ := bind_eq_ok.1 h
    cases hadd

section Built

variable {A : IntArith} {info : AveragePooling2DInfo} {c : Define K} {st st' : BuildState K} {l : AveragePooling2D K}
  {win : Windows} (hb : PoolBuilt ⟨.exact V, A, c⟩ st info l st')
  (hwin : windows samePadAxis info.padding l.inHeight l.inWidth info.poolSize info.strides = some win)
  (hv : AxisReads A info.padding l.inHeight l.poolHeight l.strideHeight win.vertical)
  (hh : AxisReads A info.padding l.inWidth l.poolWidth l.strideWidth win.horizontal)

include hb hwin

theorem pool_size_pos : 0 < l.poolHeight ∧ 0 < l.poolWidth := by
  rw [← hb.poolSize, ← hb.strides] at hwin
  obtain ⟨wv, wh, -, -⟩ := windows_eq_some.1 hwin
  exact ⟨(outSize_pos (window_eq_some.1 wv).1).2.1, (outSize_pos (window_eq_some.1 wh).1).2.1⟩

include hv hh

/-- A built pooling computes over the windows of its constructor. -/
theorem pool_forward :
    poolWindows (poolWithPadding l win.vertical.padBefore win.horizontal.padBefore) = win ∧
    ∀ (o : OptOption K) (input : Tensor3 V), l.forward (.exact V) A o input =
      (poolWithPadding l win.vertical.padBefore win.horizontal.padBefore).forward (.exact V) .unbounded o
        input := by
  rw [← hb.poolSize, ← hb.strides] at hwin
  obtain ⟨-, -, hsize, hstride⟩ := windows_eq_some.1 hwin
  obtain ⟨av, hav, hvout, hvcoord⟩ := hv
  obtain ⟨ah, hah, hhout, hhcoord⟩ := hh
  obtain rfl : av = l.vertical := Except.ok.inj (hav.symm.trans hb.vertical)
  obtain rfl : ah = l.horizontal := Except.ok.inj (hah.symm.trans hb.horizontal)
  constructor
  · simp only [poolWindows, poolWithPadding, hvout, hhout, ← hsize, ← hstride]
  · exact fun o input => averagePooling2D_forward_unbounded
      (fun o ho => hvcoord o (ho.trans_eq hvout)) (fun o ho => hhcoord o (ho.trans_eq hhout)) o input

/-- If the first tap of every window is in the image, `forward` sums the windows. -/
theorem pool_sums (hfirst : FirstInside win l.inHeight l.inWidth) {input : Tensor3 V}
    (hdims : (input.height, input.width, input.channels) = (l.inHeight, l.inWidth, l.inChannels)) :
    ∃ t, l.forward (.exact V) A st'.option input = .ok t ∧
      scale (poolPart st'.option) t =
        scale (poolCoeff st.option / (info.poolSize.1 * info.poolSize.2 : ℕ)) (win.windowSum input) := by
  obtain ⟨hwindows, hforward⟩ := pool_forward hb hwin hv hh
  simp only [Prod.mk.injEq] at hdims
  obtain ⟨hih, hiw, hic⟩ := hdims
  rw [← hih, ← hiw, ← hwindows] at hfirst
  have hsize : 0 < l.poolHeight ∧ 0 < l.poolWidth := pool_size_pos hb hwin
  have hstate := hb.state (.units 0)
  have hflag : st'.option.enableOptimizePooling = st.option.enableOptimizePooling := by
    rw [hstate]
    exact (sameFlags_optionAfter st.option _ _).optimizePooling
  have hpart : poolPart st'.option = if st.option.enableOptimizePooling then
      1 / ((info.poolSize.1 * info.poolSize.2 : ℕ) : K) else 1 := by
    rw [hstate]
    exact poolPart_optionAfter st.option (.units 0) info
  rw [hforward, hpart, poolCoeff]
  cases hpool : st.option.enableOptimizePooling with
  | true =>
    obtain ⟨t, ht, hrep⟩ := averagePooling2D_opt_rep
      (l := poolWithPadding l win.vertical.padBefore win.horizontal.padBefore)
      (repImage_exact input 0 (1 : K)) hih.symm hiw.symm hic.symm hfirst hsize (hflag.trans hpool)
    rw [hwindows] at hrep
    exact ⟨t, ht, by rw [eq_of_repImage_exact hrep]; rfl⟩
  | false =>
    obtain ⟨p, hp, hencode⟩ := hb.factor hpool
    have hfactor : p = poolFactor id st.option info := by
      rw [encodeAt_exact] at hencode
      exact (Except.ok.inj hencode).symm
    obtain ⟨t, ht, hrep⟩ := averagePooling2D_rep
      (l := poolWithPadding l win.vertical.padBefore win.horizontal.padBefore)
      (repImage_exact input 0 (1 : K)) hih.symm hiw.symm hic.symm hfirst hsize (hflag.trans hpool) hp hfactor
      trivial
    rw [hwindows] at hrep
    refine ⟨t, ht, ?_⟩
    rw [eq_of_repImage_exact hrep, poolFactor_eq]
    exact scale_one _

/-- If the first tap of the first window is outside the image, nothing is assigned to its cell. -/
theorem pool_fails (hn : 0 < l.inChannels)
    (hfirst : ¬(win.vertical.inside l.inHeight l.strideHeight 0 0 ∧
      win.horizontal.inside l.inWidth l.strideWidth 0 0)) (o : OptOption K) (input t : Tensor3 V) :
    l.forward (.exact V) A o input ≠ .ok t := by
  intro ht
  obtain ⟨hwindows, hforward⟩ := pool_forward hb hwin hv hh
  rw [hforward] at ht
  obtain ⟨cell, hcell, -⟩ := bind_eq_ok.1 ht
  obtain ⟨wv, wh, -, -⟩ := windows_eq_some.1 hwin
  have hvertical : l.vertical.out = win.vertical.out := by rw [← hwindows]; rfl
  have hhorizontal : l.horizontal.out = win.horizontal.out := by rw [← hwindows]; rfl
  have hoh : 0 < l.vertical.out := hvertical ▸ (outSize_pos (window_eq_some.1 wv).1).2.2.2
  have how : 0 < l.horizontal.out := hhorizontal ▸ (outSize_pos (window_eq_some.1 wh).1).2.2.2
  have hzero := seqFin_eq_ok.1 (seqFin_eq_ok.1 (seqFin_eq_ok.1 hcell ⟨0, hoh⟩) ⟨0, how⟩) ⟨0, hn⟩
  obtain ⟨out, hfold, hout⟩ := bind_eq_ok.1 hzero
  have hnone : out = none := by
    refine foldlM_preserves (P := fun out => out = none) rfl ?_ hfold
    rintro _ p out' rfl htap
    refine pool_tap_none ?_ htap
    rw [← Bool.not_eq_false, isOutOfRangeInput_iff]
    intro hin
    refine hfirst ?_
    simpa [Window.inside, Window.coord, poolWithPadding, AveragePooling2D.padTop, AveragePooling2D.padLeft,
      IntArith.unbounded] using hin
  subst hnone
  split at hout <;> cases hout

/-- If there is a result, no window of the constructor is moved to the left. -/
theorem pool_assigned (hn : 0 < l.inChannels) {o : OptOption K} {input t : Tensor3 V}
    (ht : l.forward (.exact V) A o input = .ok t) :
    win.vertical.padBefore ≤ 0 ∧ win.horizontal.padBefore ≤ 0 := by
  by_contra hleft
  refine pool_fails hb hwin hv hh hn (fun hin => hleft ?_) o input t ht
  simp only [Window.inside, Window.coord, Nat.cast_zero, zero_mul] at hin
  omega

/-- If every window is in the image, `forward` gives their means. -/
theorem pool_mean (hall : AllInside win l.inHeight l.inWidth) {input : Tensor3 V}
    (hdims : (input.height, input.width, input.channels) = (l.inHeight, l.inWidth, l.inChannels)) :
    ∃ t, l.forward (.exact V) A st'.option input = .ok t ∧
      scale (poolPart st'.option) t = scale (poolCoeff st.option) (win.averagePool (K := K) input) := by
  obtain ⟨-, -, hsize, -⟩ := windows_eq_some.1 hwin
  have hpos : 0 < win.size.1 ∧ 0 < win.size.2 := by
    rw [hsize, ← hb.poolSize]
    exact pool_size_pos hb hwin
  obtain ⟨t, ht, hsum⟩ := pool_sums hb hwin hv hh (hall.first hpos) hdims
  have hcount : win.averagePool (K := K) input =
      scale (1 / ((win.size.1 * win.size.2 : ℕ) : K)) (win.windowSum input) := by
    simp only [Prod.mk.injEq] at hdims
    refine Windows.averagePool_of_count fun oh ow => Windows.count_eq_iff.2 fun i hi j hj => ?_
    rw [hdims.1, hdims.2.1]
    exact ⟨hall.1 oh oh.isLt i hi, hall.2 ow ow.isLt j hj⟩
  refine ⟨t, ht, hsum.trans ?_⟩
  rw [hcount, scale_scale, hsize, mul_one_div]

end Built

/-- The sum of a window over the cell where the window stands without padding. -/
theorem sum_read_cellInput {w : Windows} (hsize : 0 < w.size.1 ∧ 0 < w.size.2)
    (hpad : w.vertical.padBefore ≤ 0 ∧ w.horizontal.padBefore ≤ 0) {oh ow height width channels : ℕ}
    (hy : oh * w.stride.1 < height) (hx : ow * w.stride.2 < width) (hc : 0 < channels) :
    ∑ i ∈ Finset.range w.size.1, ∑ j ∈ Finset.range w.size.2,
      w.read (cellInput V height width channels (oh * w.stride.1) (ow * w.stride.2) 0) oh ow i j 0 =
        if w.vertical.padBefore = 0 ∧ w.horizontal.padBefore = 0 then 1 else 0 := by
  have hread : ∀ i j : ℕ,
      w.read (cellInput V height width channels (oh * w.stride.1) (ow * w.stride.2) 0) oh ow i j 0 =
        if i = 0 ∧ j = 0 ∧ w.vertical.padBefore = 0 ∧ w.horizontal.padBefore = 0 then 1 else 0 := by
    intro i j
    rw [Windows.read, padded_cellInput hy hx hc]
    refine if_congr ?_ rfl rfl
    simp only [Window.coord, Nat.cast_mul, and_true]
    omega
  rw [sum_taps_single hsize.1 hsize.2]
  · simp [hread]
  · intro i j hne
    rw [hread, if_neg fun h => hne ⟨h.1, h.2.1⟩]

theorem padded_windowSum {w : Windows} {t : Tensor3 V} {oh ow oc : ℕ} (hv : oh < w.vertical.out)
    (hh : ow < w.horizontal.out) (hc : oc < t.channels) :
    (w.windowSum t).padded oh ow oc =
      ∑ i ∈ Finset.range w.size.1, ∑ j ∈ Finset.range w.size.2, w.read t oh ow i j oc :=
  (w.windowSum t).padded_cell ⟨oh, hv⟩ ⟨ow, hh⟩ ⟨oc, hc⟩

/-- One axis under `same` padding where the constructor does not move the window to the left. -/
theorem last_origin {inSize size stride : ℕ} {w w' : Window}
    (hw : window samePad "same" inSize size stride = some w)
    (hw' : window samePadAxis "same" inSize size stride = some w') (hpad : w'.padBefore ≤ 0) :
    (0 < w.out ∧ w'.out = w.out) ∧ w.padBefore = 0 ∧ 0 < size ∧ size ≤ lastStep inSize stride + 1 ∧
      (w'.padBefore = 0 → lastStep inSize stride ≤ size) ∧
      (w.out - 1) * stride + lastStep inSize stride = inSize ∧ 0 < lastStep inSize stride := by
  obtain ⟨hout, hp⟩ := window_eq_some.1 hw
  obtain ⟨hout', hp'⟩ := window_eq_some.1 hw'
  obtain ⟨hi, hz, hs, hpos⟩ := outSize_pos hout
  obtain ⟨hc, -⟩ | ⟨-, hout⟩ := outSize_cases hout
  · exact absurd hc (by decide)
  obtain ⟨hc, -⟩ | ⟨-, hout'⟩ := outSize_cases hout'
  · exact absurd hc (by decide)
  rw [if_pos rfl, samePad_eq_sub hi hs] at hp
  rw [if_pos rfl, samePadAxis_def] at hp'
  refine ⟨⟨hpos, hout'.trans hout.symm⟩, by omega, hz, by omega, fun h => by omega, ?_, lastStep_pos hs⟩
  rw [hout]
  exact last_window hi hs

/-- The last window of Keras has all its cells, and stands where the window of the constructor stands,
only if the pool is what the last stride covers. -/
theorem pool_eq_lastStep [CharZero K] [Nontrivial V] {height width channels : ℕ} {size stride : ℕ × ℕ}
    {win win' : Windows} (hwin : windows samePad "same" height width size stride = some win)
    (hwin' : windows samePadAxis "same" height width size stride = some win')
    (hpad : win'.vertical.padBefore ≤ 0 ∧ win'.horizontal.padBefore ≤ 0) (hn : 0 < channels)
    (heq : ∀ t : Tensor3 V, (t.height, t.width, t.channels) = (height, width, channels) →
      scale (1 / ((size.1 * size.2 : ℕ) : K)) (win'.windowSum t) = win.averagePool (K := K) t) :
    size.1 = lastStep height stride.1 ∧ size.2 = lastStep width stride.2 := by
  obtain ⟨wv, wh, rfl, rfl⟩ := windows_eq_some.1 hwin
  obtain ⟨wv', wh', hsize, hstride⟩ := windows_eq_some.1 hwin'
  obtain ⟨⟨hv, hv'⟩, hpv, hzv, hlev, hcoverv, hlastv, hposv⟩ := last_origin wv wv' hpad.1
  obtain ⟨⟨hh, hh'⟩, hph, hzh, hleh, hcoverh, hlasth, hposh⟩ := last_origin wh wh' hpad.2
  obtain ⟨oh, hoh⟩ : ∃ oh, win.vertical.out = oh + 1 := ⟨win.vertical.out - 1, by omega⟩
  obtain ⟨ow, how⟩ : ∃ ow, win.horizontal.out = ow + 1 := ⟨win.horizontal.out - 1, by omega⟩
  rw [hoh, Nat.add_sub_cancel] at hlastv
  rw [how, Nat.add_sub_cancel] at hlasth
  have hy : oh * win.stride.1 < height := by omega
  have hx : ow * win.stride.2 < width := by omega
  let t := cellInput V height width channels (oh * win.stride.1) (ow * win.stride.2) 0
  have hcode : (scale (1 / ((win.size.1 * win.size.2 : ℕ) : K)) (win'.windowSum t)).padded oh ow 0 =
      (1 / ((win.size.1 * win.size.2 : ℕ) : K)) •
        if win'.vertical.padBefore = 0 ∧ win'.horizontal.padBefore = 0 then (1 : V) else 0 := by
    have hread := sum_read_cellInput (V := V) (w := win') (hsize ▸ ⟨hzv, hzh⟩) hpad (hstride ▸ hy)
      (hstride ▸ hx) hn
    rw [hstride] at hread
    rw [scale, Tensor3.padded_map (smul_zero _), padded_windowSum (by omega) (by omega) hn, hread]
  have hmean : (win.averagePool (K := K) t).padded oh ow 0 =
      (1 / (win.count height width oh ow : K)) • (1 : V) := by
    have hread := sum_read_cellInput (V := V) (w := win) ⟨hzv, hzh⟩ ⟨hpv.le, hph.le⟩ hy hx hn
    rw [if_pos ⟨hpv, hph⟩] at hread
    rw [← hread]
    exact (win.averagePool (K := K) t).padded_cell ⟨oh, show oh < win.vertical.out by omega⟩
      ⟨ow, show ow < win.horizontal.out by omega⟩ ⟨0, hn⟩
  have hcell := hcode.symm.trans ((congrArg (fun u => u.padded oh ow 0) (heq t rfl)).trans hmean)
  have hcount : win.count height width oh ow ≠ 0 := by
    intro hzero
    rw [Windows.count, Finset.sum_eq_zero_iff] at hzero
    have htap := Finset.sum_eq_zero_iff.1 (hzero 0 (Finset.mem_range.2 hzv)) 0 (Finset.mem_range.2 hzh)
    rw [if_pos] at htap
    · cases htap
    · simp only [Window.inside, Window.coord, hpv, hph]
      omega
  by_cases hzero : win'.vertical.padBefore = 0 ∧ win'.horizontal.padBefore = 0
  · rw [if_pos hzero, ← Algebra.algebraMap_eq_smul_one, ← Algebra.algebraMap_eq_smul_one] at hcell
    have harea : win.count height width oh ow = win.size.1 * win.size.2 := by
      have hcast := (algebraMap K V).injective hcell
      rw [one_div, one_div, inv_inj, Nat.cast_inj] at hcast
      exact hcast.symm
    have hall := Windows.count_eq_iff.1 harea (win.size.1 - 1) (by omega) (win.size.2 - 1) (by omega)
    simp only [Window.inside, Window.coord, hpv, hph] at hall
    have hv := hcoverv hzero.1
    have hh := hcoverh hzero.2
    omega
  · rw [if_neg hzero, smul_zero, ← Algebra.algebraMap_eq_smul_one, eq_comm, map_eq_zero] at hcell
    exact absurd hcell (one_div_ne_zero (Nat.cast_ne_zero.2 hcount))

/-- A pool that is what the last stride covers, or `valid` padding, keeps every window in the image. -/
theorem allInside_of_lastStep {padding : String} {height width : ℕ} {size stride : ℕ × ℕ} {win : Windows}
    (hwin : windows samePadAxis padding height width size stride = some win)
    (h : padding = "valid" ∨ (size.1 = lastStep height stride.1 ∧ size.2 = lastStep width stride.2)) :
    AllInside win height width := by
  have haxis : ∀ {inSize size stride w}, window samePadAxis padding inSize size stride = some w →
      padding = "valid" ∨ size = lastStep inSize stride →
      ∀ o < w.out, ∀ t < size, w.inside inSize stride o t := by
    intro inSize size stride w hw hsize o ho t ht
    obtain ⟨hsome, hpad⟩ := window_eq_some.1 hw
    obtain ⟨hi, -, hs, -⟩ := outSize_pos hsome
    obtain ⟨rfl, -⟩ | ⟨rfl, hout⟩ := outSize_cases hsome
    · exact window_valid hw ho ht
    · have hlast := last_window_lt hi hs (hout ▸ ho)
      have hsize := hsize.resolve_left (by decide)
      rw [if_pos rfl, samePadAxis_def, ← hsize, sub_self, Int.zero_ediv] at hpad
      simp only [Window.inside, Window.coord, hpad]
      omega
  obtain ⟨wv, wh, rfl, rfl⟩ := windows_eq_some.1 hwin
  exact ⟨haxis wv (h.imp_right And.left), haxis wh (h.imp_right And.right)⟩

/-- A window that is not moved to the left has its first tap in the image. -/
theorem first_inside_of_pad {padding : String} {inSize size stride : ℕ} {w : Window}
    (hw : window samePadAxis padding inSize size stride = some w) (hpad : w.padBefore ≤ 0) :
    ∀ o < w.out, w.inside inSize stride o 0 := by
  have htap := (window_fixed_tap hw).2
  rwa [Int.toNat_of_nonpos hpad] at htap

/-- Under `same` padding a pooling that computes the mean of every input has the size of the last stride. -/
theorem pool_lastStep [CharZero K] [Nontrivial V] {A : IntArith} {c : Define K} {info : AveragePooling2DInfo}
    {st st' : BuildState K} {l : AveragePooling2D K} (hb : PoolBuilt ⟨.exact V, A, c⟩ st info l st')
    (hsame : info.padding = "same") (hn : 0 < l.inChannels) (hcoeff : poolCoeff st.option = 1)
    {win win' : Windows}
    (hwin : windows samePad info.padding l.inHeight l.inWidth info.poolSize info.strides = some win)
    (hwin' : windows samePadAxis info.padding l.inHeight l.inWidth info.poolSize info.strides = some win')
    (hv : AxisReads A info.padding l.inHeight l.poolHeight l.strideHeight win'.vertical)
    (hh : AxisReads A info.padding l.inWidth l.poolWidth l.strideWidth win'.horizontal)
    (hmean : ∀ input : Tensor3 V,
      (input.height, input.width, input.channels) = (l.inHeight, l.inWidth, l.inChannels) →
      ∃ t, l.forward (.exact V) A st'.option input = .ok t ∧
        scale (poolPart st'.option) t = scale (poolCoeff st.option) (win.averagePool (K := K) input)) :
    info.poolSize.1 = lastStep l.inHeight info.strides.1 ∧
      info.poolSize.2 = lastStep l.inWidth info.strides.2 := by
  obtain ⟨wv, wh, hsize, hstride⟩ := windows_eq_some.1 hwin'
  -- some input has a result, so no window is moved to the left
  obtain ⟨y, hy, -⟩ := hmean (cellInput V l.inHeight l.inWidth l.inChannels 0 0 0) rfl
  have hleft := pool_assigned hb hwin' hv hh hn hy
  have hfirst : FirstInside win' l.inHeight l.inWidth := by
    rw [FirstInside, hstride]
    exact ⟨first_inside_of_pad wv hleft.1, first_inside_of_pad wh hleft.2⟩
  rw [hcoeff] at hmean
  have hsums : ∀ t : Tensor3 V, (t.height, t.width, t.channels) = (l.inHeight, l.inWidth, l.inChannels) →
      scale (1 / ((info.poolSize.1 * info.poolSize.2 : ℕ) : K)) (win'.windowSum t) =
        win.averagePool (K := K) t := by
    intro t ht
    obtain ⟨y, hy, hmean⟩ := hmean t ht
    obtain ⟨y', hy', hsum⟩ := pool_sums hb hwin' hv hh hfirst ht
    cases hy.symm.trans hy'
    rw [hcoeff] at hsum
    rw [← hsum, hmean, scale_one]
  rw [hsame] at hwin hwin'
  exact pool_eq_lastStep hwin hwin' hleft hn hsums

/-- The builder. -/
theorem pool_built {A : IntArith} (c : Define K) {info : AveragePooling2DInfo} {st : BuildState K}
    {win : Windows}
    (hv : AxisReads A info.padding st.next.inHeight info.poolSize.1 info.strides.1 win.vertical)
    (hh : AxisReads A info.padding st.next.inWidth info.poolSize.2 info.strides.2 win.horizontal) :
    ∃ l st', buildAveragePooling2D ⟨.exact V, A, c⟩ info st = .ok (.averagePooling2D l, st') ∧
      PoolBuilt ⟨.exact V, A, c⟩ st info l st' ∧
      (l.inHeight, l.inWidth, l.inChannels) = (st.next.inHeight, st.next.inWidth, st.next.inChannels) ∧
      AxisReads A info.padding l.inHeight l.poolHeight l.strideHeight win.vertical ∧
      AxisReads A info.padding l.inWidth l.poolWidth l.strideWidth win.horizontal := by
  obtain ⟨av, hav, -⟩ := id hv
  obtain ⟨ah, hah, -⟩ := id hh
  have hbuild : Succeeds (buildAveragePooling2D ⟨.exact V, A, c⟩ info st) :=
    buildAveragePooling2D_of_axes ⟨av, hav⟩ ⟨ah, hah⟩
  obtain ⟨⟨layer, st'⟩, hbuild⟩ := hbuild
  obtain ⟨l, rfl, hb⟩ := buildAveragePooling2D_ok hbuild
  have hin := hb.inShape
  have hsize := hb.poolSize
  have hstrides := hb.strides
  simp only [Prod.ext_iff] at hin hsize hstrides
  refine ⟨l, st', hbuild, hb, hb.inShape, ?_, ?_⟩
  · rw [hin.1, hsize.1, hstrides.1]
    exact hv
  · rw [hin.2.1, hsize.2, hstrides.2]
    exact hh

/-- A result of the shape of Keras has been computed from exact quotients. -/
theorem pool_quotientExact {c : Define K} {info : AveragePooling2DInfo} {st st' : BuildState K}
    {l : AveragePooling2D K} (hb : PoolBuilt ⟨.exact V, .lp64, c⟩ st info l st') {win : Windows}
    (hwin : windows samePad info.padding l.inHeight l.inWidth info.poolSize info.strides = some win)
    (hi : l.inHeight < 2 ^ 64 ∧ l.inWidth < 2 ^ 64) {o : OptOption K} {input t : Tensor3 V}
    (ht : l.forward (.exact V) .lp64 o input = .ok t)
    (hdims : t.height = win.vertical.out ∧ t.width = win.horizontal.out) :
    QuotientExact info.padding l.inHeight info.poolSize.1 info.strides.1 ∧
      QuotientExact info.padding l.inWidth info.poolSize.2 info.strides.2 := by
  have hout := Tensor3.build_dims ht
  simp only [Prod.mk.injEq] at hout
  rw [← hb.poolSize, ← hb.strides] at hwin ⊢
  obtain ⟨wv, wh, -, -⟩ := windows_eq_some.1 hwin
  have hvout := (window_eq_some.1 wv).1
  have hhout := (window_eq_some.1 wh).1
  constructor
  · rw [QuotientExact, ← axis_out hvout hi.1 hb.vertical, ← outSize_eq hvout, ← hdims.1]
    exact hout.1.symm
  · rw [QuotientExact, ← axis_out hhout hi.2 hb.horizontal, ← outSize_eq hhout, ← hdims.2]
    exact hout.2.1.symm

/-- The extents of one axis of a pooling that Keras takes. Below `2 ^ 30` an `int` holds the coordinates of
all taps. -/
structure PoolDims (padding : String) (inSize size stride : ℕ) : Prop where
  inSize_pos : 0 < inSize
  size_pos : 0 < size
  stride_pos : 0 < stride
  valid : padding = "valid" → size ≤ inSize
  inSize_lt : inSize < 2 ^ 30
  size_lt : size < 2 ^ 30

/-- `AveragePooling2D`, as it is built, computes the mean of Keras for every input exactly if the quotients
of `float`s have the exact ceiling, and there is no padding or the pool is what the last stride of both axes
covers. -/
theorem averagePooling2D_iff [CharZero K] [Nontrivial V] (c : Define K)
    {info : AveragePooling2DInfo} {inHeight inWidth inChannels : ℕ}
    (hpad : info.padding = "valid" ∨ info.padding = "same")
    (hv : PoolDims info.padding inHeight info.poolSize.1 info.strides.1)
    (hh : PoolDims info.padding inWidth info.poolSize.2 info.strides.2) (hn : 0 < inChannels)
    (optimize : Bool) :
    (∀ st : BuildState K,
      (st.next.inHeight, st.next.inWidth, st.next.inChannels) = (inHeight, inWidth, inChannels) →
      st.option.enableOptimizePooling = optimize →
      ∃ l st' win, buildAveragePooling2D ⟨.exact V, .lp64, c⟩ info st = .ok (.averagePooling2D l, st') ∧
        windows samePad info.padding inHeight inWidth info.poolSize info.strides = some win ∧
        ∀ input : Tensor3 V,
          (input.height, input.width, input.channels) = (inHeight, inWidth, inChannels) →
          ∃ t, l.forward (.exact V) .lp64 st'.option input = .ok t ∧
            scale (poolPart st'.option) t =
              scale (poolCoeff st.option) (win.averagePool (K := K) input)) ↔
    (QuotientExact info.padding inHeight info.poolSize.1 info.strides.1 ∧
      QuotientExact info.padding inWidth info.poolSize.2 info.strides.2) ∧
    (info.padding = "valid" ∨ (info.poolSize.1 = lastStep inHeight info.strides.1 ∧
      info.poolSize.2 = lastStep inWidth info.strides.2)) := by
  obtain ⟨oh, hoh⟩ := exists_outSize ⟨hv.inSize_pos, hv.size_pos, hv.stride_pos⟩ hv.valid hpad
  obtain ⟨ow, how⟩ := exists_outSize ⟨hh.inSize_pos, hh.size_pos, hh.stride_pos⟩ hh.valid hpad
  obtain ⟨win, hwin, -, -⟩ := windows_of_outSize hoh how samePad
  obtain ⟨win', hwin', -, -⟩ := windows_of_outSize hoh how samePadAxis
  obtain ⟨wv, wh, -, -⟩ := windows_eq_some.1 hwin'
  have hreads : QuotientExact info.padding inHeight info.poolSize.1 info.strides.1 ∧
      QuotientExact info.padding inWidth info.poolSize.2 info.strides.2 →
      AxisReads .lp64 info.padding inHeight info.poolSize.1 info.strides.1 win'.vertical ∧
      AxisReads .lp64 info.padding inWidth info.poolSize.2 info.strides.2 win'.horizontal :=
    fun hexact => ⟨axis_lp64 hv.inSize_lt hv.size_lt hexact.1 wv, axis_lp64 hh.inSize_lt hh.size_lt hexact.2 wh⟩
  constructor
  · intro h
    -- a state in which no coefficient waits
    let st : BuildState K := ⟨⟨inHeight, inWidth, inChannels, 0⟩,
      { OptOption.new .noOpt .default with enableOptimizePooling := optimize }⟩
    obtain ⟨l, st', w, hbuild, hw, hforward⟩ := h st rfl rfl
    cases hw.symm.trans hwin
    obtain ⟨l', hl, hb⟩ := buildAveragePooling2D_ok hbuild
    obtain rfl : l = l' := by injection hl
    have hin : (l.inHeight, l.inWidth, l.inChannels) = (inHeight, inWidth, inChannels) := hb.inShape
    simp only [Prod.mk.injEq] at hin
    obtain ⟨rfl, rfl, rfl⟩ := hin
    obtain ⟨y, hy, hmean⟩ := hforward (cellInput V l.inHeight l.inWidth l.inChannels 0 0 0) rfl
    have hexact := pool_quotientExact hb hwin
      ⟨hv.inSize_lt.trans (by decide), hh.inSize_lt.trans (by decide)⟩ hy
      ⟨congrArg Tensor3.height hmean, congrArg Tensor3.width hmean⟩
    refine ⟨hexact, hpad.imp_right fun hsame => ?_⟩
    obtain ⟨hav, hah⟩ := hreads hexact
    have hpool := hb.poolSize
    have hstrides := hb.strides
    simp only [Prod.ext_iff] at hpool hstrides
    rw [← hpool.1, ← hstrides.1] at hav
    rw [← hpool.2, ← hstrides.2] at hah
    have hcoeff : poolCoeff st.option = 1 := by
      simp [poolCoeff, coeffPart, st, OptOption.new]
    exact pool_lastStep hb hsame hn hcoeff hwin hwin' hav hah hforward
  · rintro ⟨hexact, h⟩ st hst hopt
    simp only [Prod.mk.injEq] at hst
    obtain ⟨rfl, rfl, rfl⟩ := hst
    obtain ⟨hav, hah⟩ := hreads hexact
    obtain ⟨l, st', hbuild, hb, hin, hlv, hlh⟩ := pool_built (V := V) c hav hah
    have hwindows : some win' = some win := hwin'.symm.trans
      ((windows_samePadAxis_lastStep (h.imp_right fun h => ⟨h.1.ge, h.2.ge⟩)).trans hwin)
    obtain rfl : win' = win := Option.some.inj hwindows
    have hall := allInside_of_lastStep hwin' h
    rw [Prod.mk.injEq, Prod.mk.injEq] at hin
    obtain ⟨hih, hiw, hic⟩ := hin
    rw [← hih, ← hiw] at hall hwin'
    refine ⟨l, st', win', hbuild, hwin, fun input hdims => ?_⟩
    exact pool_mean hb hwin' hlv hlh hall (hdims.trans (by rw [hih, hiw, hic]))

def samePool (size stride : ℕ) : AveragePooling2DInfo :=
  ⟨"average_pooling2d", (size, size), (stride, stride), "same"⟩

def poolEnv : Env ℚ ℚ ℚ := ⟨.exact ℚ, .lp64, Define.source fun x => x⟩

def squareImage (n : ℕ) : BuildState ℚ := ⟨⟨n, n, 1, 0⟩, .new .noOpt .default⟩

/-- The first tap of the first window is outside the image, and the next one is added to nothing. -/
theorem averagePooling2D_iff_differs :
    PoolDims "same" 3 3 1 ∧ ∃ l st' win,
      buildAveragePooling2D poolEnv (samePool 3 1) (squareImage 3) = .ok (.averagePooling2D l, st') ∧
      windows samePad "same" 3 3 (3, 3) (1, 1) = some win ∧
      (Tensor3.toUnits <$> l.forward (.exact ℚ) .lp64 st'.option (cellInput ℚ 3 3 1 0 0 0)) =
        .error .unassigned :=
  ⟨⟨by decide, by decide, by decide, by decide, by decide, by decide⟩, _, _, _, rfl, rfl, by decide +kernel⟩

theorem averagePooling2D_iff_sample :
    PoolDims "same" 4 2 2 ∧ ∃ l st' win,
      buildAveragePooling2D poolEnv (samePool 2 2) (squareImage 4) = .ok (.averagePooling2D l, st') ∧
      windows samePad "same" 4 4 (2, 2) (2, 2) = some win ∧
      ∀ input : Tensor3 ℚ, (input.height, input.width, input.channels) = (4, 4, 1) →
        ∃ t, l.forward (.exact ℚ) .lp64 st'.option input = .ok t ∧
          scale (poolPart st'.option) t = scale (1 : ℚ) (win.averagePool (K := ℚ) input) := by
  have hdims : PoolDims "same" 4 2 2 :=
    ⟨by decide, by decide, by decide, by decide, by decide, by decide⟩
  have hexact : QuotientExact "same" 4 2 2 := by decide +kernel
  have hiff := @averagePooling2D_iff ℚ ℚ _ _ _ _ _ poolEnv.define (samePool 2 2) 4 4 1 (.inr rfl)
    hdims hdims one_pos false
  exact ⟨hdims, hiff.2 ⟨⟨hexact, hexact⟩, .inr (by decide)⟩ (squareImage 4) rfl rfl⟩

end Cnn.Proof
