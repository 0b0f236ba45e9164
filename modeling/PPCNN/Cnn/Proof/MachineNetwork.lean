import PPCNN.Cnn.Proof.MachineInt
import PPCNN.Cnn.Proof.Network
import PPCNN.Cnn.Proof.Recorded

/-!
# Networks in machine integers

Where the extents along a list of layers are below `2 ^ 24` (`ExtentsBelow`), machine integers build
and run it as integers without bounds do: each call of `buildLayer` throws the same error, or leaves
the same state and a layer that computes the same (`buildLayer_lp64`). So a whole computation has the
same outcome (`buildAndPredict_lp64`), and the theorems about integers without bounds hold for it.
-/

set_option autoImplicit false

namespace Cnn.Proof

open Lib Keras

/-! ## Bounds -/

/-- The windows of a layer have extents below `2 ^ 24`. -/
def WindowBelow : LayerInfo → Prop
  | .conv2D info => info.kernelSize.1 < 2 ^ 24 ∧ info.kernelSize.2 < 2 ^ 24
  | .averagePooling2D info => info.poolSize.1 < 2 ^ 24 ∧ info.poolSize.2 < 2 ^ 24
  | _ => True

/-- The extents of the input and of the windows of a list of layers are below `2 ^ 24`, where a `float`
holds every integer. -/
structure ExtentsBelow (layers : List LayerInfo) (h w : ℕ) : Prop where
  height : h < 2 ^ 24
  width : w < 2 ^ 24
  windows : ∀ l ∈ layers, WindowBelow l

def CallBelow : BuildCall → Prop
  | .single layer => WindowBelow layer
  | .conv2DFusedBN info _ => WindowBelow (.conv2D info)
  | .denseFusedBN _ _ => True

theorem callBelow_fusedCalls {layers : List LayerInfo} (h : ∀ l ∈ layers, WindowBelow l) :
    ∀ call ∈ fusedCalls layers, CallBelow call := by
  fun_induction fusedCalls layers with
  | case1 => simp
  | case2 layer => simpa [CallBelow] using h
  | case3 conv2d bn layers ih =>
    exact List.forall_mem_cons.2 ⟨h _ List.mem_cons_self, ih fun l hl => h l (by simp [hl])⟩
  | case4 dense bn layers ih =>
    exact List.forall_mem_cons.2 ⟨trivial, ih fun l hl => h l (by simp [hl])⟩
  | case5 layer next layers _ _ ih =>
    exact List.forall_mem_cons.2
      ⟨h _ List.mem_cons_self, ih fun l hl => h l (List.mem_cons_of_mem _ hl)⟩

theorem callBelow_buildCalls {fuse : Bool} {layers : List LayerInfo} (h : ∀ l ∈ layers, WindowBelow l) :
    ∀ call ∈ buildCalls fuse layers, CallBelow call := by
  cases fuse with
  | true => exact callBelow_fusedCalls h
  | false =>
    intro call hcall
    obtain ⟨l, hl, rfl⟩ := List.mem_map.1 hcall
    exact h l hl

/-! ## Windows -/

variable {K Pt Ct : Type} {ev : Evaluator K Pt Ct}

/-- The two axes have the same output size, and the taps of their windows the same coordinates. -/
structure SameAxis (size stride : ℕ) (a a' : Axis) : Prop where
  out : a.out = a'.out
  coord : ∀ o < a.out, ∀ t < size,
    IntArith.lp64.int (IntArith.lp64.int ((o : ℤ) * stride - a.padBefore) + t) =
      o * stride - a'.padBefore + t

theorem axis_same {padding : String} {inSize size stride out : ℕ} (hi : inSize < 2 ^ 24)
    (hz : size < 2 ^ 24) (h : outSize padding inSize size stride = some out) :
    ∃ a a', Axis.new .lp64 padding inSize size stride = .ok a ∧
      Axis.new .unbounded padding inSize size stride = .ok a' ∧ SameAxis size stride a a' := by
  have hwin : window samePadAxis padding inSize size stride = some ⟨out, _⟩ := window_eq_some.2 ⟨h, rfl⟩
  obtain ⟨a, ha, hout, hcoord⟩ := axis_lp64 (hi.trans (by decide)) (hz.trans (by decide))
    (quotientExact_of_lt h hi) hwin
  obtain ⟨a', ha', hout', hpad⟩ := axis_of_window hwin
  refine ⟨a, a', ha, ha', hout.trans hout'.symm, fun o ho t ht => ?_⟩
  rw [hcoord o (hout ▸ ho) t ht, hpad]
  rfl

/-- Two convolutions that compute the same, one in machine integers. -/
structure SameConv2D (ev : Evaluator K Pt Ct) (l l' : Conv2D Pt) : Prop where
  out : (l.outHeight, l.outWidth, l.outChannels) = (l'.outHeight, l'.outWidth, l'.outChannels)
  forward : ∀ input, l.forward ev .lp64 input = l'.forward ev .unbounded input

theorem conv2DNew_lp64 (ev : Evaluator K Pt Ct) {name padding activation : String} {h w n fs fh fw sh sw oh ow : ℕ}
    {filters : Fin fh → Fin fw → Fin n → Fin fs → Pt} {biases : Fin fs → Pt} {o : OptOption K}
    (hoh : outSize padding h fh sh = some oh) (how : outSize padding w fw sw = some ow)
    (hh : h < 2 ^ 24) (hw : w < 2 ^ 24) (hfh : fh < 2 ^ 24) (hfw : fw < 2 ^ 24) :
    Alike (fun p p' => SameConv2D ev p.1 p'.1 ∧ p.2 = p'.2)
      (Conv2D.new .lp64 name h w n fs fh fw sh sw padding activation filters biases o)
      (Conv2D.new .unbounded name h w n fs fh fw sh sw padding activation filters biases o) := by
  obtain ⟨⟨ov, pv, qv⟩, ⟨ov', pv', qv'⟩, hv, hv', ⟨hov, hcv⟩⟩ := axis_same hh hfh hoh
  obtain ⟨⟨oh, ph, qh⟩, ⟨oh', ph', qh'⟩, hz, hz', ⟨hohz, hcz⟩⟩ := axis_same hw hfw how
  obtain rfl : ov = ov' := hov
  obtain rfl : oh = oh' := hohz
  simp only [Conv2D.new, hv, hv', hz, hz', ok_bind]
  refine ⟨⟨rfl, fun input => ?_⟩, rfl⟩
  exact (conv2D_forward_unbounded (by exact hcv) (by exact hcz) input).trans rfl

structure SamePooling (ev : Evaluator K Pt Ct) (l l' : AveragePooling2D Pt) : Prop where
  out : (l.outHeight, l.outWidth, l.inChannels) = (l'.outHeight, l'.outWidth, l'.inChannels)
  forward : ∀ (o : OptOption K) input, l.forward ev .lp64 o input = l'.forward ev .unbounded o input

theorem averagePooling2DNew_lp64 (ev : Evaluator K Pt Ct) {name padding : String} {h w n ph pw sh sw oh ow : ℕ}
    {factor : Option Pt} {o : OptOption K} (hoh : outSize padding h ph sh = some oh)
    (how : outSize padding w pw sw = some ow) (hh : h < 2 ^ 24) (hw : w < 2 ^ 24) (hph : ph < 2 ^ 24)
    (hpw : pw < 2 ^ 24) :
    Alike (fun p p' => SamePooling ev p.1 p'.1 ∧ p.2 = p'.2)
      (AveragePooling2D.new .lp64 name h w n ph pw sh sw padding factor o)
      (AveragePooling2D.new .unbounded name h w n ph pw sh sw padding factor o) := by
  obtain ⟨⟨ov, pv, qv⟩, ⟨ov', pv', qv'⟩, hv, hv', ⟨hov, hcv⟩⟩ := axis_same hh hph hoh
  obtain ⟨⟨oh, ph, qh⟩, ⟨oh', ph', qh'⟩, hz, hz', ⟨hohz, hcz⟩⟩ := axis_same hw hpw how
  obtain rfl : ov = ov' := hov
  obtain rfl : oh = oh' := hohz
  simp only [AveragePooling2D.new, hv, hv', hz, hz', ok_bind]
  refine ⟨⟨rfl, fun o input => ?_⟩, rfl⟩
  exact (averagePooling2D_forward_unbounded (by exact hcv) (by exact hcz) o input).trans rfl

/-! ## Calls -/

/-- A layer in machine integers and one without bounds, with the states after them. -/
structure SameBuilt (ev : Evaluator K Pt Ct) (p p' : Layer Pt × BuildState K) : Prop where
  state : p.2 = p'.2
  predict : ∀ (o : OptOption K) s, predictLayer ev .lp64 o p.1 s = predictLayer ev .unbounded o p'.1 s

theorem SameConv2D.predict {l l' : Conv2D Pt} (h : SameConv2D ev l l') (o : OptOption K)
    (s : PredictState Ct) :
    predictLayer ev .lp64 o (.conv2D l) s = predictLayer ev .unbounded o (.conv2D l') s := by
  simp only [predictLayer, h.forward]

theorem SamePooling.predict {l l' : AveragePooling2D Pt} (h : SamePooling ev l l') (o : OptOption K)
    (s : PredictState Ct) : predictLayer ev .lp64 o (.averagePooling2D l) s =
      predictLayer ev .unbounded o (.averagePooling2D l') s := by
  simp only [predictLayer, h.forward]

theorem SameConv2D.built {l l' : Conv2D Pt} (h : SameConv2D ev l l') (next : NextLayer) (o : OptOption K) :
    SameBuilt ev
      (.conv2D l, ⟨{ next with inHeight := l.outHeight, inWidth := l.outWidth, inChannels := l.outChannels }, o⟩)
      (.conv2D l',
        ⟨{ next with inHeight := l'.outHeight, inWidth := l'.outWidth, inChannels := l'.outChannels }, o⟩) := by
  have hout := h.out
  simp only [Prod.mk.injEq] at hout
  exact ⟨by simp only [hout], h.predict⟩

theorem SamePooling.built {l l' : AveragePooling2D Pt} (h : SamePooling ev l l') (next : NextLayer)
    (o : OptOption K) :
    SameBuilt ev
      (.averagePooling2D l,
        ⟨{ next with inHeight := l.outHeight, inWidth := l.outWidth, inChannels := l.outChannels }, o⟩)
      (.averagePooling2D l',
        ⟨{ next with inHeight := l'.outHeight, inWidth := l'.outWidth, inChannels := l'.outChannels }, o⟩) := by
  have hout := h.out
  simp only [Prod.mk.injEq] at hout
  exact ⟨by simp only [AveragePooling2D.outChannels, hout], h.predict⟩

/-- A builder that computes with no extent. -/
theorem alike_built {x : Except Error (Layer Pt × BuildState K)}
    (h : ∀ layer st', x = .ok (layer, st') → ∀ (o : OptOption K) s,
      predictLayer ev .lp64 o layer s = predictLayer ev .unbounded o layer s) :
    Alike (SameBuilt ev) x x :=
  .refl fun p hp => ⟨rfl, h p.1 p.2 hp⟩

variable [Field K] [LinearOrder K] {c : Define K} {file : H5File K} {st : BuildState K}

section Conv

variable {info : Conv2DInfo} {h w n : ℕ} {s : Shape}

theorem buildConv2D_lp64 (hs : outShape (.conv2D info) (.image h w n) = some s)
    (hbelow : BelowFloat (.image h w n)) (hwin : WindowBelow (.conv2D info))
    (hnext : NextFor st.next (.image h w n)) :
    Alike (SameBuilt ev) (buildConv2D ⟨ev, .lp64, c⟩ file info st)
      (buildConv2D ⟨ev, .unbounded, c⟩ file info st) := by
  obtain ⟨oh, ow, hoh, how, -, hbatch, -⟩ := outShape_conv2D hs
  simp only [buildConv2D, inShape_of_next hnext hbatch]
  refine .bind_same fun group _ => .bind_same fun kds _ => .bind_same fun bds _ =>
    .bind_same fun f _ => .bind_same fun b _ => .bind_same fun pf _ => .bind_same fun pb _ => ?_
  refine (conv2DNew_lp64 ev hoh how hbelow.1 hbelow.2 hwin.1 hwin.2).bind ?_
  rintro ⟨l, o⟩ ⟨l', o'⟩ - ⟨hl, rfl⟩
  exact hl.built _ o

theorem buildConv2DFusedBN_lp64 {bn : String} (hs : outShape (.conv2D info) (.image h w n) = some s)
    (hbelow : BelowFloat (.image h w n)) (hwin : WindowBelow (.conv2D info))
    (hnext : NextFor st.next (.image h w n)) :
    Alike (SameBuilt ev) (buildConv2DFusedBN ⟨ev, .lp64, c⟩ file info bn st)
      (buildConv2DFusedBN ⟨ev, .unbounded, c⟩ file info bn st) := by
  obtain ⟨oh, ow, hoh, how, -, hbatch, -⟩ := outShape_conv2D hs
  simp only [buildConv2DFusedBN, inShape_of_next hnext hbatch]
  refine .bind_same fun group _ => .bind_same fun bgroup _ => .bind_same fun kds _ =>
    .bind_same fun bds _ => .bind_same fun f _ => .bind_same fun b _ => .bind_same fun d _ =>
    .bind_same fun pb _ => .bind_same fun pf _ => ?_
  refine (conv2DNew_lp64 ev hoh how hbelow.1 hbelow.2 hwin.1 hwin.2).bind ?_
  rintro ⟨l, o⟩ ⟨l', o'⟩ - ⟨hl, rfl⟩
  exact hl.built _ o

end Conv

omit [LinearOrder K] in
theorem buildAveragePooling2D_lp64 {info : AveragePooling2DInfo} {h w n : ℕ} {s : Shape}
    (hs : outShape (.averagePooling2D info) (.image h w n) = some s)
    (hbelow : BelowFloat (.image h w n)) (hwin : WindowBelow (.averagePooling2D info))
    (hnext : NextFor st.next (.image h w n)) :
    Alike (SameBuilt ev) (buildAveragePooling2D ⟨ev, .lp64, c⟩ info st)
      (buildAveragePooling2D ⟨ev, .unbounded, c⟩ info st) := by
  obtain ⟨oh, ow, hoh, how, -⟩ := outShape_averagePooling2D hs
  simp only [buildAveragePooling2D, show st.next = ⟨h, w, n, 0⟩ from hnext]
  refine .bind_same fun factor _ => ?_
  refine (averagePooling2DNew_lp64 ev hoh how hbelow.1 hbelow.2 hwin.1 hwin.2).bind ?_
  rintro ⟨l, o⟩ ⟨l', o'⟩ - ⟨hl, rfl⟩
  exact hl.built ⟨h, w, n, 0⟩ o

/-- One call of `buildLayer`. Only convolutions and poolings compute with extents. -/
theorem buildLayer_lp64 {call : BuildCall} {s s' : Shape} (hs : callShape call s = some s')
    (hbelow : BelowFloat s) (hwin : CallBelow call) (hnext : NextFor st.next s) :
    Alike (SameBuilt ev) (buildLayer ⟨ev, .lp64, c⟩ file call st)
      (buildLayer ⟨ev, .unbounded, c⟩ file call st) := by
  cases call with
  | conv2DFusedBN info bn =>
    cases s with
    | image h w n => exact buildConv2DFusedBN_lp64 hs hbelow hwin hnext
    | units n => cases hs
  | denseFusedBN info bn =>
    refine alike_built (x := buildDenseFusedBN ⟨ev, .unbounded, c⟩ file info bn st) fun layer st' hb => ?_
    obtain ⟨l, rfl, -⟩ := buildDenseFusedBN_ok hb
    exact fun _ _ => rfl
  | single layer =>
    cases layer with
    | conv2D info =>
      cases s with
      | image h w n => exact buildConv2D_lp64 hs hbelow hwin hnext
      | units n => cases hs
    | averagePooling2D info =>
      cases s with
      | image h w n => exact buildAveragePooling2D_lp64 hs hbelow hwin hnext
      | units n => cases hs
    | batchNormalization name =>
      refine alike_built (x := buildBatchNormalization ⟨ev, .unbounded, c⟩ file name st) fun layer st' hb => ?_
      obtain ⟨l, rfl, -⟩ := buildBatchNormalization_ok hb
      exact fun _ _ => rfl
    | dense info =>
      refine alike_built (x := buildDense ⟨ev, .unbounded, c⟩ file info st) fun layer st' hb => ?_
      obtain ⟨l, rfl, -⟩ := buildDense_ok hb
      exact fun _ _ => rfl
    | activation name activation =>
      refine alike_built (x := buildActivation ⟨ev, .unbounded, c⟩ name activation st) fun layer st' hb => ?_
      obtain ⟨l, rfl, -⟩ := buildActivation_ok hb
      exact fun _ _ => rfl
    | flatten name => exact ⟨rfl, fun _ _ => rfl⟩
    | globalAveragePooling2D name => exact ⟨rfl, fun _ _ => rfl⟩
    | other className => rfl

/-! ## Networks -/

/-- A network in machine integers and one without bounds, with the states after them. -/
structure SameNetwork (ev : Evaluator K Pt Ct) (p p' : List (Layer Pt) × BuildState K) : Prop where
  state : p.2 = p'.2
  predict : ∀ (o : OptOption K) s,
    predictLayers ev .lp64 o p.1 s = predictLayers ev .unbounded o p'.1 s

theorem buildLayers_lp64 {calls : List BuildCall} (hwin : ∀ call ∈ calls, CallBelow call) :
    ∀ {st : BuildState K} {s s' : Shape}, s.Positive → BelowFloat s → callShapes calls s = some s' →
      NextFor st.next s → Alike (SameNetwork ev) (buildLayers ⟨ev, .lp64, c⟩ file calls st)
        (buildLayers ⟨ev, .unbounded, c⟩ file calls st) := by
  induction calls with
  | nil => exact fun _ _ _ _ => ⟨rfl, fun _ _ => rfl⟩
  | cons call calls ih =>
    intro st s s' hpos hbelow hs hnext
    obtain ⟨hcall, hwin⟩ := List.forall_mem_cons.1 hwin
    obtain ⟨s1, hs1, hs⟩ := Option.bind_eq_some_iff.1 hs
    refine (buildLayer_lp64 hs1 hbelow hcall hnext).bind ?_
    rintro ⟨layer, st1⟩ ⟨layer', st1'⟩ hb ⟨rfl, hlayer⟩
    obtain ⟨-, hnext1⟩ := buildLayer_recorded hb hs1 (sizesExact_lp64 hbelow) hpos hnext
    refine (ih hwin (callShape_positive hpos hs1) (callShape_below hs1 hbelow) hs hnext1).bind ?_
    rintro ⟨layers, st2⟩ ⟨layers', st2'⟩ - ⟨rfl, hlayers⟩
    refine ⟨rfl, fun o v => ?_⟩
    simp only [predictLayers, hlayer, hlayers]

section Model

variable {layers : List LayerInfo} {h w n units : ℕ} {o : OptOption K}

/-- `BuildNetwork` on a model with extents below `2 ^ 24`. -/
theorem buildNetwork_lp64 (hm : IsModel layers h w n units) (hbelow : ExtentsBelow layers h w) :
    Alike (SameNetwork ev) (buildNetwork ⟨ev, .lp64, c⟩ file layers .fresh o)
      (buildNetwork ⟨ev, .unbounded, c⟩ file layers .fresh o) := by
  rw [buildNetwork_fresh hm, buildNetwork_fresh hm]
  exact buildLayers_lp64 (callBelow_buildCalls hbelow.windows) hm.positive ⟨hbelow.height, hbelow.width⟩
    (callShapes_buildCalls o.enableFuseLayers layers _ ▸ hm.shapes) rfl

/-- A whole computation has the outcome it has with integers without bounds. -/
theorem buildAndPredict_lp64 (hm : IsModel layers h w n units) (hbelow : ExtentsBelow layers h w)
    (input : Tensor3 Ct) :
    buildAndPredict ⟨ev, .lp64, c⟩ file layers .fresh o input =
      buildAndPredict ⟨ev, .unbounded, c⟩ file layers .fresh o input := by
  refine ((buildNetwork_lp64 hm hbelow).bind ?_).eq
  rintro ⟨network, st⟩ ⟨network', st'⟩ - ⟨rfl, hpredict⟩
  simp only [predict, hpredict]
  exact .refl fun _ _ => rfl

/-- A network that is built in machine integers computes as one that is built without bounds. -/
theorem unbounded_of_lp64 (hm : IsModel layers h w n units) (hbelow : ExtentsBelow layers h w)
    {network : List (Layer Pt)} {st : BuildState K}
    (hbuild : buildNetwork ⟨ev, .lp64, c⟩ file layers .fresh o = .ok (network, st)) :
    ∃ network', buildNetwork ⟨ev, .unbounded, c⟩ file layers .fresh o = .ok (network', st) ∧
      ∀ o' input, predict ev .lp64 o' network input = predict ev .unbounded o' network' input := by
  have halike : Alike (SameNetwork ev) (buildNetwork ⟨ev, .lp64, c⟩ file layers .fresh o)
      (buildNetwork ⟨ev, .unbounded, c⟩ file layers .fresh o) := buildNetwork_lp64 hm hbelow
  rw [hbuild] at halike
  obtain ⟨⟨network', st'⟩, hbuild', rfl, hpredict⟩ := halike.exists_ok
  exact ⟨network', hbuild', fun o' input => by simp only [predict, hpredict]⟩

/-- What is built with integers without bounds is built with machine integers, and predicts the same. -/
theorem lp64_of_unbounded (hm : IsModel layers h w n units) (hbelow : ExtentsBelow layers h w)
    {network : List (Layer Pt)} {st : BuildState K}
    (hbuild : buildNetwork ⟨ev, .unbounded, c⟩ file layers .fresh o = .ok (network, st)) :
    ∃ network', buildNetwork ⟨ev, .lp64, c⟩ file layers .fresh o = .ok (network', st) ∧
      ∀ (o' : OptOption K) (input : Tensor3 Ct),
        predict ev .lp64 o' network' input = predict ev .unbounded o' network input := by
  have halike : Alike (SameNetwork ev) (buildNetwork ⟨ev, .lp64, c⟩ file layers .fresh o)
      (buildNetwork ⟨ev, .unbounded, c⟩ file layers .fresh o) := buildNetwork_lp64 hm hbelow
  rw [hbuild] at halike
  obtain ⟨⟨network', st'⟩, hbuild', rfl, hpredict⟩ := halike.exists_ok_left
  exact ⟨network', hbuild', fun o' input => by simp only [predict, hpredict]⟩

end Model

/-! ## An extent that a `float` does not hold -/

omit [Field K] [LinearOrder K] in
/-- A convolution with a window outside the image has nothing to rescale. -/
theorem conv2D_forward_outside {A : IntArith} {l : Conv2D Pt} {oh ow oc : ℕ} (hoh : oh < l.outHeight)
    (how : ow < l.outWidth) (hoc : oc < l.filterSize)
    (hout : ∀ p : Fin l.filterHeight × Fin l.filterWidth, isOutOfRangeInput l.inHeight l.inWidth
      (A.int (A.int ((ow : ℤ) * l.strideWidth - l.padLeft) + (p.2 : ℕ)))
      (A.int (A.int ((oh : ℤ) * l.strideHeight - l.padTop) + (p.1 : ℕ))) = true)
    (input t : Tensor3 Ct) : l.forward ev A input ≠ .ok t := by
  intro ht
  obtain ⟨cell, hcell, -⟩ := bind_eq_ok.1 ht
  have hlast := seqFin_eq_ok.1 (seqFin_eq_ok.1 (seqFin_eq_ok.1 hcell ⟨oh, hoh⟩) ⟨ow, how⟩) ⟨oc, hoc⟩
  obtain ⟨acc, hfold, hfinish⟩ := bind_eq_ok.1 hlast
  have hnone : acc.2 = none := by
    refine foldlM_preserves (P := fun acc : ℕ × Option Ct => acc.2 = none) rfl ?_ hfold
    rintro acc p acc' hacc htap
    rw [Conv2D.tap, if_pos (hout p)] at htap
    exact Except.ok.inj htap ▸ hacc
  rw [finishLinear, hnone] at hfinish
  cases hfinish

/-- A pointwise convolution of a column of `2 ^ 24 + 3` pixels. -/
def tallConv2D : Conv2DInfo where
  name := "conv2d"
  batchInputShape := some (16777219, 1, 1)
  filters := 1
  kernelSize := (1, 1)
  strides := (1, 1)
  padding := "valid"
  activation := "linear"

/-- The quotient of `float`s gives the column one row more. -/
theorem axis_tall : Axis.new .lp64 "valid" 16777219 1 1 = .ok ⟨16777220, 0, 0⟩ := by decide +kernel

omit [LinearOrder K] in
theorem convBuilt_tall {st' : BuildState K} {kernel : ℕ → ℕ → ℕ → ℕ → ℕ → K} {bias : ℕ → K}
    {l : Conv2D Pt} (hb : ConvBuilt ⟨ev, .lp64, c⟩ st tallConv2D kernel bias l st')
    (input t : Tensor3 Ct) : l.forward ev .lp64 input ≠ .ok t := by
  obtain ⟨name, inHeight, inWidth, inChannels, filterSize, filterHeight, filterWidth, strideHeight,
    strideWidth, padding, activation, vertical, horizontal, filters, biases⟩ := l
  obtain ⟨hin, rfl, hkernel, hstrides, hv, hh, -, -, -⟩ := hb
  cases hin
  cases hkernel
  cases hstrides
  obtain rfl : ⟨16777220, 0, 0⟩ = vertical := Except.ok.inj (axis_tall.symm.trans hv)
  have hwidth : Axis.new .lp64 "valid" 1 1 1 = .ok ⟨1, 0, 0⟩ := by decide +kernel
  obtain rfl : ⟨1, 0, 0⟩ = horizontal := Except.ok.inj (hwidth.symm.trans hh)
  have hlast : isOutOfRangeInput 16777219 1
      (IntArith.lp64.int (IntArith.lp64.int ((0 : ℕ) * (1 : ℕ) - 0) + (0 : ℕ)))
      (IntArith.lp64.int (IntArith.lp64.int ((16777219 : ℕ) * (1 : ℕ) - 0) + (0 : ℕ))) = true := by
    decide +kernel
  refine conv2D_forward_outside (show 16777219 < 16777220 by decide) one_pos one_pos ?_ input t
  rintro ⟨i, j⟩
  obtain rfl : i = 0 := Subsingleton.elim _ _
  obtain rfl : j = 0 := Subsingleton.elim _ _
  exact hlast

/-- A network that starts with it is not run to the end, whatever follows. -/
theorem predict_tall {rest : List LayerInfo} {next : NextLayer} {o : OptOption K}
    {network : List (Layer Pt)} {st' : BuildState K}
    (hbuild : buildNetwork ⟨ev, .lp64, c⟩ file (.conv2D tallConv2D :: rest) next o = .ok (network, st'))
    (o' : OptOption K) (input : Tensor3 Ct) (output : List Ct) :
    predict ev .lp64 o' network input ≠ .ok output := by
  intro hpredict
  obtain ⟨call, calls, hcalls, hcall⟩ := buildCalls_conv2D o.enableFuseLayers tallConv2D rest
  rw [buildNetwork, hcalls] at hbuild
  obtain ⟨layer, st1, layers, hlayer, -, rfl⟩ := buildLayers_cons hbuild
  obtain ⟨s, hrun, -⟩ := bind_eq_ok.1 hpredict
  obtain ⟨s1, hfirst, -⟩ := bind_eq_ok.1 hrun
  -- alone or with a batch normalisation, the first layer is the convolution
  have hconv : ∃ l kernel bias, layer = .conv2D l ∧
      ConvBuilt ⟨ev, .lp64, c⟩ ⟨next, o⟩ tallConv2D kernel bias l st1 := by
    rcases hcall with rfl | ⟨bn, rfl⟩
    · obtain ⟨l, rfl, hb⟩ := buildConv2D_ok hlayer
      exact ⟨l, _, _, rfl, hb⟩
    · obtain ⟨l, rfl, hb⟩ := buildConv2DFusedBN_ok hlayer
      exact ⟨l, _, _, rfl, hb⟩
  obtain ⟨l, kernel, bias, rfl, hb⟩ := hconv
  obtain ⟨x, -, hforward⟩ := bind_eq_ok.1 hfirst
  obtain ⟨t, ht, -⟩ := bind_eq_ok.1 hforward
  exact convBuilt_tall hb x t ht

end Cnn.Proof
