import PPCNN.Cnn.Proof.Build

/-!
# Building and running one layer

`Sim` relates the state of the builders, the state of `Network::predict` and a value: the network
built so far has taken the input to a representation of the value, on the level the builders have
counted, and the file-scope variables describe its shape. One lemma per builder says that the layer
it builds computes on such a state what its plaintexts were encoded for.
-/

set_option autoImplicit false

namespace Cnn.Proof

open Lib Keras

variable {K Pt Ct V : Type} [Field K] [CommRing V] [Algebra K V] {ev : Evaluator K Pt Ct}
  {I : Interp ev V} {c : Define K} {file : H5File K} {st st' : BuildState K}

def Sim (I : Interp ev V) (st : BuildState K) (s : PredictState Ct) : Value V → Prop
  | .image t => s.inputDim = 3 ∧ st.next = ⟨t.height, t.width, t.channels, 0⟩ ∧
    ∃ x σ, s.encrypted3d = some x ∧ I.RepImage st.option.consumedLevel σ x t
  | .units u => s.inputDim = 1 ∧ st.next.inUnits = u.length ∧
    ∃ σ, I.RepUnits st.option.consumedLevel σ s.encryptedUnits u

/-- A layer on an image that leaves an image. -/
theorem sim_image {lv : ℕ} {σ : K} {y : Tensor3 Ct} {s : PredictState Ct} {t : Tensor3 V}
    (hdim : s.inputDim = 3) (hlevel : st'.option.consumedLevel = lv)
    (hnext : st'.next = ⟨t.height, t.width, t.channels, 0⟩) (hrep : I.RepImage lv σ y t) :
    Sim I st' { s with encrypted3d := some y } (.image t) := by
  subst hlevel
  exact ⟨hdim, hnext, y, σ, rfl, hrep⟩

theorem sim_units {lv : ℕ} {σ : K} {y : List Ct} {s : PredictState Ct} {u : List V}
    (hdim : s.inputDim = 1) (hlevel : st'.option.consumedLevel = lv)
    (hnext : st'.next.inUnits = u.length) (hrep : I.RepUnits lv σ y u) :
    Sim I st' { s with encryptedUnits := y } (.units u) := by
  subst hlevel
  exact ⟨hdim, hnext, σ, hrep⟩

/-! ## Windows of built layers -/

theorem axes_of_windows {padding : String} {h w : ℕ} {size stride : ℕ × ℕ} {win : Windows}
    {vertical horizontal : Axis}
    (hwin : windows samePadAxis padding h w size stride = some win)
    (hv : Axis.new .unbounded padding h size.1 stride.1 = .ok vertical)
    (hh : Axis.new .unbounded padding w size.2 stride.2 = .ok horizontal) :
    win = ⟨⟨vertical.out, vertical.padBefore⟩, ⟨horizontal.out, horizontal.padBefore⟩, size, stride⟩ := by
  obtain ⟨hwv, hwh, hsize, hstride⟩ := windows_eq_some.1 hwin
  obtain ⟨a, ha, hout, hpad⟩ := axis_of_window hwv
  obtain ⟨b, hb, hout', hpad'⟩ := axis_of_window hwh
  obtain rfl : a = vertical := by simpa [ha] using hv
  obtain rfl : b = horizontal := by simpa [hb] using hh
  rw [hout, hpad, hout', hpad', ← hsize, ← hstride]

theorem hasTaps_of_windows {padding : String} {h w : ℕ} {size stride : ℕ × ℕ} {win : Windows}
    (hwin : windows samePadAxis padding h w size stride = some win) : HasTaps win h w := by
  obtain ⟨hwv, hwh, rfl, rfl⟩ := windows_eq_some.1 hwin
  exact ⟨fun o ho => window_tap hwv ho, fun o ho => window_tap hwh ho⟩

theorem allInside_of_windows {h w : ℕ} {size stride : ℕ × ℕ} {win : Windows}
    (hwin : windows samePadAxis "valid" h w size stride = some win) : AllInside win h w := by
  obtain ⟨hwv, hwh, rfl, rfl⟩ := windows_eq_some.1 hwin
  exact ⟨fun o ho i hi => window_valid hwv ho hi, fun o ho i hi => window_valid hwh ho hi⟩

/-! ## One layer -/

theorem convBuilt_sim {info : Conv2DInfo} {kernel : ℕ → ℕ → ℕ → ℕ → ℕ → K} {bias : ℕ → K}
    {l : Conv2D Pt} {x : Tensor3 Ct} {t : Tensor3 V} {σ : K} {sh : Shape}
    (hb : ConvBuilt ⟨ev, .unbounded, c⟩ st info kernel bias l st')
    (hnext : st.next = ⟨t.height, t.width, t.channels, 0⟩)
    (hrep : I.RepImage st.option.consumedLevel σ x t)
    (hshape : outShape (.conv2D info) (.image t.height t.width t.channels) = some sh)
    (hpos : 0 < t.channels) (hd : I.canDrop st.option.consumedLevel) :
    ∃ y, l.forward ev .unbounded x = .ok y ∧
      I.RepImage (st.option.consumedLevel + 1) I.scaleParam y
        (convImage samePadAxis info kernel bias t) ∧
      st'.next = ⟨(convImage samePadAxis info kernel bias t).height,
        (convImage samePadAxis info kernel bias t).width,
        (convImage samePadAxis info kernel bias t).channels, 0⟩ := by
  simp only [outShape] at hshape
  split at hshape
  · rename_i hbatch
    simp only [Option.bind_eq_bind, Option.bind_eq_some_iff] at hshape
    obtain ⟨oh, hoh, ow, how, -⟩ := hshape
    obtain ⟨win, hwin, -, -⟩ := windows_of_outSize hoh how samePadAxis
    have hin := hb.inShape
    rw [Conv2DInfo.inShape, hnext, hbatch.1, Prod.mk.injEq, Prod.mk.injEq] at hin
    obtain ⟨hih, hiw, hic⟩ := hin
    have hwin' : win = convWindows l := by
      have hv := hb.vertical
      have hh := hb.horizontal
      rw [hih, show l.filterHeight = info.kernelSize.1 by rw [← hb.kernelSize],
        show l.strideHeight = info.strides.1 by rw [← hb.strides]] at hv
      rw [hiw, show l.filterWidth = info.kernelSize.2 by rw [← hb.kernelSize],
        show l.strideWidth = info.strides.2 by rw [← hb.strides]] at hh
      rw [axes_of_windows hwin hv hh, convWindows, hb.kernelSize, hb.strides]
    have hconv : convImage samePadAxis info kernel bias t =
        win.conv2D info.filters (kernel t.channels) bias t := by
      rw [convImage, onWindows, hwin]
    obtain ⟨y, hy, hry⟩ := conv2D_rep (I := I) hrep hih hiw hic hpos
      (hwin' ▸ hasTaps_of_windows hwin)
      (fun i j ic oc => I.encodeAt (hb.filters i j ic oc)) (fun oc => I.encodeAt (hb.biases oc)) hd
    rw [← hwin', hb.filterSize, hic, ← hconv] at hry
    refine ⟨y, hy, hry, ?_⟩
    rw [hb.state, hconv, hwin', hb.filterSize, hnext]
    rfl
  · cases hshape

theorem poolBuilt_sim {info : AveragePooling2DInfo} {l : AveragePooling2D Pt} {x : Tensor3 Ct}
    {t : Tensor3 V} {σ : K} {s sh : Shape} {o : OptOption K}
    (hb : PoolBuilt ⟨ev, .unbounded, c⟩ st info l st')
    (hnext : st.next = ⟨t.height, t.width, t.channels, 0⟩)
    (hrep : I.RepImage st.option.consumedLevel σ x t)
    (hshape : outShape (.averagePooling2D info) (.image t.height t.width t.channels) = some sh)
    (hvalid : info.padding = "valid")
    (ho : o.enableOptimizePooling = st.option.enableOptimizePooling)
    (hd : ∀ i < st'.option.consumedLevel, I.canDrop i) :
    let u : Tensor3 V := poolImage samePadAxis info (fun win t =>
      if st.option.enableOptimizePooling then win.windowSum t
      else scale (poolFactor id st.option info) (win.windowSum t)) t
    ∃ y σ', l.forward ev .unbounded o x = .ok y ∧ I.RepImage st'.option.consumedLevel σ' y u ∧
      st'.next = ⟨u.height, u.width, u.channels, 0⟩ := by
  intro u
  simp only [outShape, Option.bind_eq_bind, Option.bind_eq_some_iff] at hshape
  obtain ⟨oh, hoh, ow, how, -⟩ := hshape
  obtain ⟨win, hwin, -, -⟩ := windows_of_outSize hoh how samePadAxis
  obtain ⟨-, hph, -, -⟩ := outSize_pos hoh
  obtain ⟨-, hpw, -, -⟩ := outSize_pos how
  have hin := hb.inShape
  rw [hnext, Prod.mk.injEq, Prod.mk.injEq] at hin
  obtain ⟨hih, hiw, hic⟩ := hin
  have hsize := hb.poolSize
  have hwin' : win = poolWindows l := by
    have hv := hb.vertical
    have hh := hb.horizontal
    rw [hih, show l.poolHeight = info.poolSize.1 by rw [← hsize],
      show l.strideHeight = info.strides.1 by rw [← hb.strides]] at hv
    rw [hiw, show l.poolWidth = info.poolSize.2 by rw [← hsize],
      show l.strideWidth = info.strides.2 by rw [← hb.strides]] at hh
    rw [axes_of_windows hwin hv hh, poolWindows, hsize, hb.strides]
  have hall : AllInside (poolWindows l) t.height t.width := by
    rw [← hwin']
    rw [hvalid] at hwin
    exact allInside_of_windows hwin
  rw [← hsize] at hph hpw
  have hfirst := hall.first ⟨hph, hpw⟩
  have hu : u = if st.option.enableOptimizePooling then (poolWindows l).windowSum t
      else scale (poolFactor id st.option info) ((poolWindows l).windowSum t) := by
    simp only [u, poolImage, onWindows, hwin, hwin']
  have hstate := hb.state s
  cases hpool : st.option.enableOptimizePooling with
  | true =>
    obtain ⟨y, hy, hry⟩ :=
      averagePooling2D_opt_rep (I := I) hrep hih hiw hic hfirst ⟨hph, hpw⟩ (ho.trans hpool)
    simp only [hpool, if_true] at hu
    refine ⟨y, σ, hy, ?_, ?_⟩
    · rw [hu, hstate]
      simpa [optionAfter, hpool] using hry
    · rw [hu, hstate, hnext, hic]
      rfl
  | false =>
    obtain ⟨p, hp, hencode⟩ := hb.factor hpool
    rw [I.float] at hencode
    have hlevel : st'.option.consumedLevel = st.option.consumedLevel + 1 := by
      rw [hstate]
      simp only [optionAfter, hpool, Bool.false_eq_true, if_false]
      split <;> rfl
    obtain ⟨y, hy, hry⟩ := averagePooling2D_rep (I := I) hrep hih hiw hic hfirst ⟨hph, hpw⟩
      (ho.trans hpool) hp (I.encodeAt hencode) (hd _ (by omega))
    simp only [hpool, Bool.false_eq_true, if_false] at hu
    refine ⟨y, I.rescaled st.option.consumedLevel (σ * I.scaleParam), hy, ?_, ?_⟩
    · rw [hu, hlevel]
      exact hry
    · rw [hu, hstate, hnext, hic]
      rfl

theorem denseBuilt_sim {info : DenseInfo} {kernel : ℕ → ℕ → K} {bias : ℕ → K} {l : Dense Pt}
    {x : List Ct} {u : List V} {σ : K}
    (hb : DenseBuilt ⟨ev, .unbounded, c⟩ st info kernel bias l st')
    (hnext : st.next.inUnits = u.length) (hrep : I.RepUnits st.option.consumedLevel σ x u)
    (hpos : 0 < u.length) (hd : I.canDrop st.option.consumedLevel) :
    ∃ y, l.forward ev x = .ok y ∧
      I.RepUnits (st.option.consumedLevel + 1) I.scaleParam y (dense info.units kernel bias u) := by
  obtain ⟨y, hy, hry⟩ := dense_rep (I := I) hrep (hb.inUnits.trans hnext) hpos
    (fun i o => I.encodeAt (hb.weights i o)) (fun o => I.encodeAt (hb.biases o)) hd
  rw [hb.outUnits] at hry
  exact ⟨y, hy, hry⟩

/-! ## Activations -/

theorem activate_rep {o o' : OptOption K} {activation : String} {l : Activation Pt}
    (hl : l.activation = activation)
    (hb : CoeffsBuilt (⟨ev, .unbounded, c⟩ : Env K Pt Ct) o activation l.plainPolyCoeffs)
    (hdisp : Dispatches o activation)
    (ho : o'.enableOptimizeActivation = o.enableOptimizeActivation)
    (hd : ∀ i < activationDepth o activation, I.canDrop (o.consumedLevel + i)) (σ : K) :
    ∃ σ', ∀ x (v : V), I.rep o.consumedLevel σ x v → ∃ y, l.activate ev o' x = .ok y ∧
      I.rep (o.consumedLevel + activationDepth o activation) σ' y
        (storedActivation c o activation v) := by
  subst hl
  unfold CoeffsBuilt at hb
  unfold Activation.activate storedActivation
  unfold activationDepth at hd ⊢
  by_cases hsq : l.activation = squareName
  · simp only [hsq, true_or, if_true] at hd ⊢
    exact ⟨_, fun x v hx => square_rep hx (hd 0 (by omega))⟩
  · have hne : ¬(l.activation = squareName ∨ o.activation = .square) := by
      rintro (h | h)
      · exact hsq h
      · exact (hdisp.resolve_left hsq) h
    rw [if_neg hne] at hb
    simp only [if_neg hne, if_neg hsq, ho] at hd ⊢
    refine ⟨I.scaleParam, fun x v hx => ?_⟩
    generalize hlist : l.plainPolyCoeffs = list at hb
    generalize hflag : o.enableOptimizeActivation = flag at hb hd
    cases hb with
    | plain h0 h1 h2 h3 h3' =>
      exact swishDeg4_rep hlist (I.encodeAt h0) (I.encodeAt h1) (I.encodeAt h2)
        (I.modSwitchPlain (I.encodeAt h3) h3') hx hd
    | opt h0 h1 h2 h2' =>
      exact swishDeg4Opt_rep hlist (I.encodeAt h0) (I.encodeAt h1)
        (I.modSwitchPlain (I.encodeAt h2) h2') hx hd

theorem activate_error {o o' : OptOption K} {activation : String} {l : Activation Pt}
    (hl : l.activation = activation)
    (hb : CoeffsBuilt (⟨ev, .unbounded, c⟩ : Env K Pt Ct) o activation l.plainPolyCoeffs)
    (hdisp : ¬Dispatches o activation) (hd : ∀ i, I.canDrop i) {lv : ℕ} {σ : K} {x : Ct} {v : V}
    (hx : I.rep lv σ x v) : l.activate ev o' x = .error .outOfRange := by
  subst hl
  unfold Dispatches at hdisp
  push Not at hdisp
  unfold CoeffsBuilt at hb
  rw [if_pos (.inr hdisp.2)] at hb
  obtain ⟨h1, h2⟩ : l.swishDeg4 ev x = .error .outOfRange ∧
      l.swishDeg4Opt ev x = .error .outOfRange := swish_outOfRange hb hx hd
  unfold Activation.activate
  rw [if_neg hdisp.1, h1, h2, ite_self]

theorem activation_error {name activation : String} {layer : Layer Pt} {s : PredictState Ct}
    {v : Value V} {o : OptOption K}
    (hbuild : buildActivation ⟨ev, .unbounded, c⟩ name activation st = .ok (layer, st'))
    (hsim : Sim I st s v) (hpos : v.shape.Positive) (hdisp : ¬Dispatches st.option activation)
    (hd : ∀ i, I.canDrop i) : predictLayer ev .unbounded o layer s = .error .outOfRange := by
  obtain ⟨l, rfl, hl, hb, -⟩ := buildActivation_ok hbuild
  cases v with
  | image t =>
    obtain ⟨hdim, hnext, x, σ, hx, hrep⟩ := hsim
    obtain ⟨hh, hw, hc⟩ := hpos
    rw [← hrep.height] at hh
    rw [← hrep.width] at hw
    rw [← hrep.channels] at hc
    have herr : (seqFin fun h => seqFin fun w => seqFin fun c => l.activate ev o (x.cell h w c)) =
        .error .outOfRange :=
      seqFin_error hh fun i => seqFin_error hw fun j => seqFin_error hc fun k =>
        activate_error hl hb hdisp hd (hrep.cell i j k)
    simp [predictLayer, hdim, hx, Evaluator.assigned, Activation.forward3D, Tensor3.mapM,
      Tensor3.build, herr]
  | units u =>
    obtain ⟨hdim, hnext, σ, hrep⟩ := hsim
    obtain ⟨hlen, hget⟩ := List.forall₂_iff_get.1 hrep
    have herr : (seqFin fun i : Fin s.encryptedUnits.length => l.activate ev o s.encryptedUnits[i]) =
        .error .outOfRange :=
      seqFin_error (hlen ▸ hpos) fun i =>
        activate_error hl hb hdisp hd (hget i i.isLt (i.cast hlen).isLt)
    simp only [predictLayer, hdim, if_true, Activation.forwardUnits, herr]
    rfl

end Cnn.Proof
