import PPCNN.Cnn.Layers
import PPCNN.Keras.Ops

/-!
# Window arithmetic

With integers without bounds, the constructors compute the output sizes of the reference and pad
`same` windows by `samePadAxis` (`axis_of_window`). Every window has a tap in the image
(`window_tap`), so the accumulator of an output cell is always assigned. The padding is the one of
the reference where the window covers the last stride (`samePadAxis_eq_iff`).
-/

set_option autoImplicit false

namespace Cnn.Proof

open Keras

/-- How far the last window is moved: what the strides before it leave of the axis. -/
def lastStep (inSize stride : ℕ) : ℕ := if inSize % stride = 0 then stride else inSize % stride

/-- The padding the constructors compute for `same`: half of what the last stride leaves over. -/
def samePadAxis : SamePad := fun inSize size stride =>
  ((size : ℤ) - (if inSize % stride = 0 then stride else inSize % stride : ℕ)) / 2

theorem samePadAxis_def (inSize size stride : ℕ) :
    samePadAxis inSize size stride = ((size : ℤ) - lastStep inSize stride) / 2 := rfl

/-! ## Sizes -/

theorem lastStep_pos {inSize stride : ℕ} (hs : 0 < stride) : 0 < lastStep inSize stride := by
  rw [lastStep]
  split <;> omega

theorem lastStep_le {inSize stride : ℕ} (hs : 0 < stride) : lastStep inSize stride ≤ stride := by
  have hmod := Nat.mod_lt inSize hs
  rw [lastStep]
  split <;> omega

/-- The last window and what it leaves of the axis. -/
theorem last_window {inSize stride : ℕ} (hi : 0 < inSize) (hs : 0 < stride) :
    ((inSize + stride - 1) / stride - 1) * stride + lastStep inSize stride = inSize := by
  have hdiv := Nat.div_add_mod inSize stride
  have hmod := Nat.mod_lt inSize hs
  rw [lastStep]
  generalize inSize / stride = q at hdiv
  generalize inSize % stride = r at hdiv hmod ⊢
  rw [Nat.mul_comm] at hdiv
  split
  · rename_i hr
    subst hr
    have hq : 0 < q := by
      rcases Nat.eq_zero_or_pos q with rfl | h
      · omega
      · exact h
    have hout : (inSize + stride - 1) / stride = q := by
      rw [show inSize + stride - 1 = stride - 1 + q * stride by omega,
        Nat.add_mul_div_right _ _ hs, Nat.div_eq_of_lt (by omega), Nat.zero_add]
    obtain ⟨k, rfl⟩ : ∃ k, q = k + 1 := ⟨q - 1, by omega⟩
    rw [hout, Nat.add_sub_cancel]
    rw [Nat.add_mul] at hdiv
    omega
  · have hout : (inSize + stride - 1) / stride = q + 1 := by
      rw [show inSize + stride - 1 = r - 1 + (q + 1) * stride by rw [Nat.add_mul]; omega,
        Nat.add_mul_div_right _ _ hs, Nat.div_eq_of_lt (by omega), Nat.zero_add]
    rw [hout, Nat.add_sub_cancel]
    omega

theorem last_window_lt {inSize stride : ℕ} (hi : 0 < inSize) (hs : 0 < stride) {o : ℕ}
    (ho : o < (inSize + stride - 1) / stride) : o * stride + lastStep inSize stride ≤ inSize :=
  calc o * stride + lastStep inSize stride
      ≤ ((inSize + stride - 1) / stride - 1) * stride + lastStep inSize stride :=
        Nat.add_le_add_right (Nat.mul_le_mul_right stride (Nat.le_sub_one_of_lt ho)) _
    _ = inSize := last_window hi hs

/-- What Keras pads, from how far the last window is moved. -/
theorem samePad_eq_sub {inSize size stride : ℕ} (hi : 0 < inSize) (hs : 0 < stride) :
    samePad inSize size stride = ((size - lastStep inSize stride) / 2 : ℕ) := by
  have hlast := last_window hi hs
  have hover : ((inSize + stride - 1) / stride - 1) * stride + size - inSize =
      size - lastStep inSize stride := by omega
  rw [samePad, hover]

/-- The padding is the one of the reference exactly if the window covers the last stride. -/
theorem samePadAxis_eq_iff {inSize size stride : ℕ} (hi : 0 < inSize) (hs : 0 < stride) :
    samePadAxis inSize size stride = samePad inSize size stride ↔ lastStep inSize stride ≤ size := by
  rw [samePad_eq_sub hi hs, samePadAxis_def]
  omega

/-! ## Axes -/

theorem axis_of_window {padding : String} {inSize size stride : ℕ} {w : Window}
    (h : window samePadAxis padding inSize size stride = some w) :
    ∃ a, Axis.new .unbounded padding inSize size stride = .ok a ∧ a.out = w.out ∧
      a.padBefore = w.padBefore := by
  obtain ⟨hsome, hpad⟩ := window_eq_some.1 h
  obtain ⟨hi, -, hs, -⟩ := outSize_pos hsome
  obtain ⟨rfl, hle, hout⟩ | ⟨rfl, hout⟩ := outSize_cases hsome
  · refine ⟨_, if_pos rfl, ?_, hpad.symm⟩
    have hsize : ((inSize : ℤ) - size + 1).toNat + stride - 1 = inSize - size + stride := by omega
    rw [hout]
    simp only [IntArith.unbounded, hsize]
    exact Nat.add_div_right _ hs
  · refine ⟨_, rfl, hout.symm, ?_⟩
    rw [hpad, if_pos rfl]
    simp only [IntArith.unbounded, samePadAxis]
    split <;> rfl

/-- One tap of the window lies in the image wherever the window stands: the one that reads the
origin of the stride, or the first one where the padding is negative. -/
theorem window_fixed_tap {padding : String} {inSize size stride : ℕ} {w : Window}
    (h : window samePadAxis padding inSize size stride = some w) :
    w.padBefore.toNat < size ∧ ∀ o < w.out, w.inside inSize stride o w.padBefore.toNat := by
  obtain ⟨hsome, hpad⟩ := window_eq_some.1 h
  obtain ⟨hi, hz, hs, -⟩ := outSize_pos hsome
  obtain ⟨rfl, hle, hout⟩ | ⟨rfl, hout⟩ := outSize_cases hsome
  · have hzero : w.padBefore.toNat = 0 := by rw [hpad, if_neg (by decide), Int.toNat_zero]
    rw [hzero]
    exact ⟨hz, fun o ho => window_valid h ho hz⟩
  · have hlt : ∀ o < w.out, _ := fun o ho => last_window_lt hi hs (hout ▸ ho)
    rw [if_pos rfl] at hpad
    rw [samePadAxis_def] at hpad
    have hrem : 0 < lastStep inSize stride := lastStep_pos hs
    refine ⟨by omega, fun o ho => ?_⟩
    have := hlt o ho
    simp only [Window.inside, Window.coord]
    constructor <;> omega

/-- Every window has a tap in the image. -/
theorem window_tap {padding : String} {inSize size stride : ℕ} {w : Window}
    (h : window samePadAxis padding inSize size stride = some w) {o : ℕ} (ho : o < w.out) :
    ∃ t < size, w.inside inSize stride o t :=
  ⟨_, (window_fixed_tap h).1, (window_fixed_tap h).2 o ho⟩

/-- Where the window covers the last stride of both axes, the windows are those of the reference. -/
theorem windows_samePadAxis_lastStep {padding : String} {h w : ℕ} {size stride : ℕ × ℕ}
    (hs : padding = "valid" ∨ lastStep h stride.1 ≤ size.1 ∧ lastStep w stride.2 ≤ size.2) :
    windows samePadAxis padding h w size stride = windows samePad padding h w size stride := by
  have haxis : ∀ {inSize size stride}, padding = "valid" ∨ lastStep inSize stride ≤ size →
      window samePadAxis padding inSize size stride = window samePad padding inSize size stride := by
    intro inSize size stride hle
    rw [window, window]
    cases hout : outSize padding inSize size stride with
    | none => rfl
    | some out =>
      obtain ⟨hi, -, hpos, -⟩ := outSize_pos hout
      rcases hle with rfl | hle
      · rfl
      · rw [(samePadAxis_eq_iff hi hpos).2 hle]
  rw [windows, windows, haxis (hs.imp_right And.left), haxis (hs.imp_right And.right)]

/-- Where no stride exceeds the window, the windows are those of the reference. -/
theorem windows_samePadAxis {padding : String} {size stride : ℕ × ℕ}
    (hs : padding = "valid" ∨ stride.1 ≤ size.1 ∧ stride.2 ≤ size.2) (h w : ℕ) :
    windows samePadAxis padding h w size stride = windows samePad padding h w size stride := by
  by_cases hpos : 0 < stride.1 ∧ 0 < stride.2
  · exact windows_samePadAxis_lastStep (hs.imp_right fun hle =>
      ⟨(lastStep_le hpos.1).trans hle.1, (lastStep_le hpos.2).trans hle.2⟩)
  · -- Keras takes no stride of zero
    have hnone : ∀ pad, windows pad padding h w size stride = none := by
      intro pad
      rw [Option.eq_none_iff_forall_ne_some]
      intro win hwin
      obtain ⟨hv, hh, -⟩ := windows_eq_some.1 hwin
      obtain ⟨-, -, hv, -⟩ := outSize_pos (window_eq_some.1 hv).1
      obtain ⟨-, -, hh, -⟩ := outSize_pos (window_eq_some.1 hh).1
      exact hpos ⟨hv, hh⟩
    rw [hnone, hnone]

end Cnn.Proof
