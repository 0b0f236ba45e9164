import PPCNN.Cnn.Proof.Run

/-!
# Networks

`BuildNetwork` and `predict` on a model: in a fresh process, the network computes `storedRun` on
the calls of `buildLayer` that the model makes.
-/

set_option autoImplicit false

namespace Cnn.Proof

open Lib Keras

variable {K Pt Ct V : Type} [Field K] [LinearOrder K] [CommRing V] [Algebra K V]
  {ev : Evaluator K Pt Ct} {I : Interp ev V} {c : Define K} {file : H5File K}

/-! ## The option of a computation -/

omit [LinearOrder K] in
/-- `compute` changes the leading coefficient only. -/
theorem computeOption_eq (c : Define K) (level : EOptLevel) (act : EActivation) (model : String) :
    ∃ coeff, computeOption c level act model =
      { OptOption.new level act with highestDegCoeff := coeff } := by
  simp only [computeOption]
  split
  · split
    · exact ⟨_, rfl⟩
    · split
      · exact ⟨_, rfl⟩
      · exact ⟨_, rfl⟩
  · exact ⟨_, rfl⟩

omit [LinearOrder K] in
@[simp] theorem computeOption_activation (c : Define K) (level : EOptLevel) (act : EActivation)
    (model : String) : (computeOption c level act model).activation = act := by
  obtain ⟨coeff, h⟩ := computeOption_eq c level act model
  rw [h]
  cases level <;> rfl

omit [LinearOrder K] in
@[simp] theorem computeOption_consumedLevel (c : Define K) (level : EOptLevel) (act : EActivation)
    (model : String) : (computeOption c level act model).consumedLevel = 0 := by
  obtain ⟨coeff, h⟩ := computeOption_eq c level act model
  rw [h]
  cases level <;> rfl

/-! ## The calls of a model -/

theorem mem_fusedCalls {layers : List LayerInfo} {call : BuildCall} (h : call ∈ fusedCalls layers) :
    (∃ l ∈ layers, call = .single l) ∨ (∃ info bn, call = .conv2DFusedBN info bn) ∨
      ∃ info bn, call = .denseFusedBN info bn := by
  fun_induction fusedCalls layers with
  | case1 => cases h
  | case2 layer => exact .inl ⟨layer, List.mem_cons_self, List.mem_singleton.1 h⟩
  | case3 conv2d bn layers ih =>
    rcases List.mem_cons.1 h with rfl | h
    · exact .inr (.inl ⟨conv2d, bn, rfl⟩)
    · exact (ih h).imp_left fun ⟨l, hl, he⟩ => ⟨l, by simp [hl], he⟩
  | case4 dense bn layers ih =>
    rcases List.mem_cons.1 h with rfl | h
    · exact .inr (.inr ⟨dense, bn, rfl⟩)
    · exact (ih h).imp_left fun ⟨l, hl, he⟩ => ⟨l, by simp [hl], he⟩
  | case5 layer next layers _ _ ih =>
    rcases List.mem_cons.1 h with rfl | h
    · exact .inl ⟨layer, List.mem_cons_self, rfl⟩
    · exact (ih h).imp_left fun ⟨l, hl, he⟩ => ⟨l, List.mem_cons_of_mem _ hl, he⟩

theorem mem_buildCalls {fuse : Bool} {layers : List LayerInfo} {call : BuildCall}
    (h : call ∈ buildCalls fuse layers) :
    (∃ l ∈ layers, call = .single l) ∨ (∃ info bn, call = .conv2DFusedBN info bn) ∨
      ∃ info bn, call = .denseFusedBN info bn := by
  cases fuse with
  | true => exact mem_fusedCalls h
  | false =>
    obtain ⟨l, hl, rfl⟩ := List.mem_map.1 h
    exact .inl ⟨l, hl, rfl⟩

/-- Activations are never fused. -/
theorem activation_mem_buildCalls {fuse : Bool} {layers : List LayerInfo} {name activation : String}
    (h : .activation name activation ∈ layers) :
    .single (.activation name activation) ∈ buildCalls fuse layers := by
  cases fuse with
  | false => exact List.mem_map_of_mem h
  | true =>
    show _ ∈ fusedCalls layers
    fun_induction fusedCalls layers with
    | case1 => cases h
    | case2 layer => simpa [eq_comm] using h
    | case3 conv2d bn layers ih => simpa using ih (by simpa using h)
    | case4 dense bn layers ih => simpa using ih (by simpa using h)
    | case5 layer next layers _ _ ih =>
      rcases List.mem_cons.1 h with rfl | h
      · exact List.mem_cons_self
      · exact List.mem_cons_of_mem _ (ih h)

theorem callShapes_fusedCalls (layers : List LayerInfo) (s : Shape) :
    callShapes (fusedCalls layers) s = outShapes layers s := by
  fun_induction fusedCalls layers generalizing s with
  | case1 => rfl
  | case2 layer => rfl
  | case3 conv2d bn layers ih =>
    simp only [callShapes, outShapes, List.foldlM_cons, callShape] at ih ⊢
    refine bind_congr fun s' => ?_
    exact ih s'
  | case4 dense bn layers ih =>
    simp only [callShapes, outShapes, List.foldlM_cons, callShape] at ih ⊢
    refine bind_congr fun s' => ?_
    exact ih s'
  | case5 layer next layers _ _ ih =>
    simp only [callShapes, outShapes, List.foldlM_cons, callShape] at ih ⊢
    exact bind_congr fun s' => ih s'

theorem callShapes_buildCalls (fuse : Bool) (layers : List LayerInfo) (s : Shape) :
    callShapes (buildCalls fuse layers) s = outShapes layers s := by
  cases fuse with
  | true => exact callShapes_fusedCalls layers s
  | false => simp [buildCalls, callShapes, outShapes, List.foldlM_map, callShape]

/-! ## The first layer -/

/-- A first convolution that declares its shape overwrites what the file-scope variables held, except
the units. -/
theorem buildLayer_first {E : Env K Pt Ct} {info : Conv2DInfo} {h w n : ℕ} {call : BuildCall}
    (hcall : call = .single (.conv2D info) ∨ ∃ bn, call = .conv2DFusedBN info bn)
    (hbatch : info.batchInputShape = some (h, w, n)) (next : NextLayer) (o : OptOption K) :
    buildLayer E file call ⟨next, o⟩ =
      buildLayer E file call ⟨⟨h, w, n, next.inUnits⟩, o⟩ := by
  obtain ⟨name, shape, filters, kernelSize, strides, padding, activation⟩ := info
  obtain rfl : shape = some (h, w, n) := hbatch
  rcases hcall with rfl | ⟨bn, rfl⟩
  · rfl
  · rfl

theorem buildCalls_conv2D (fuse : Bool) (info : Conv2DInfo) (rest : List LayerInfo) :
    ∃ call calls, buildCalls fuse (.conv2D info :: rest) = call :: calls ∧
      (call = .single (.conv2D info) ∨ ∃ bn, call = .conv2DFusedBN info bn) := by
  cases fuse with
  | false => exact ⟨_, _, rfl, .inl rfl⟩
  | true =>
    cases rest with
    | nil => exact ⟨_, _, rfl, .inl rfl⟩
    | cons l rest =>
      cases l with
      | batchNormalization bn => exact ⟨_, _, rfl, .inr ⟨bn, rfl⟩⟩
      | _ => exact ⟨_, _, rfl, .inl rfl⟩

/-- A list that starts with such a convolution is built in a fresh process as if the variables
described its input. -/
theorem buildNetwork_declared {E : Env K Pt Ct} {info : Conv2DInfo} {h w n : ℕ}
    (hbatch : info.batchInputShape = some (h, w, n)) (rest : List LayerInfo) (o : OptOption K) :
    buildNetwork E file (.conv2D info :: rest) .fresh o =
      buildLayers E file (buildCalls o.enableFuseLayers (.conv2D info :: rest)) ⟨⟨h, w, n, 0⟩, o⟩ := by
  obtain ⟨call, calls, hcalls, hcall⟩ := buildCalls_conv2D o.enableFuseLayers info rest
  rw [buildNetwork, hcalls, buildLayers, buildLayers, buildLayer_first hcall hbatch]
  rfl

theorem buildNetwork_fresh {E : Env K Pt Ct} {layers : List LayerInfo} {h w n units : ℕ}
    (hm : IsModel layers h w n units) (o : OptOption K) :
    buildNetwork E file layers .fresh o =
      buildLayers E file (buildCalls o.enableFuseLayers layers) ⟨⟨h, w, n, 0⟩, o⟩ := by
  obtain ⟨info, rest, rfl, hbatch⟩ := hm.first
  exact buildNetwork_declared hbatch rest o

theorem callValid_of_model {layers : List LayerInfo} {h w n units : ℕ}
    (hm : IsModel layers h w n units) {fuse : Bool} {call : BuildCall}
    (hcall : call ∈ buildCalls fuse layers) : CallValid call := by
  rcases mem_buildCalls hcall with ⟨l, hl, rfl⟩ | ⟨info, bn, rfl⟩ | ⟨info, bn, rfl⟩
  · exact hm.validPool l hl
  · trivial
  · trivial

/-- The activations of the model evaluate the polynomial whose coefficients they hold. -/
def AllDispatch (o : OptOption K) (layers : List LayerInfo) : Prop :=
  ∀ name activation, .activation name activation ∈ layers → Dispatches o activation

omit [Field K] [LinearOrder K] in
theorem allDispatch_default {o : OptOption K} (h : o.activation = .default)
    (layers : List LayerInfo) : AllDispatch o layers :=
  fun _ _ _ => .inr (by rw [h]; decide)

omit [Field K] [LinearOrder K] in
theorem callDispatches_of_all {o : OptOption K} {layers : List LayerInfo} (h : AllDispatch o layers)
    {fuse : Bool} {call : BuildCall} (hcall : call ∈ buildCalls fuse layers) :
    CallDispatches o call := by
  rcases mem_buildCalls hcall with ⟨l, hl, rfl⟩ | ⟨info, bn, rfl⟩ | ⟨info, bn, rfl⟩
  · cases l with
    | activation name activation => exact h name activation hl
    | _ => trivial
  · trivial
  · trivial

/-! ## Runs of a network -/

section Run

variable {layers : List LayerInfo} {h w n units : ℕ} {o : OptOption K} {network : List (Layer Pt)}
  {st' : BuildState K} {x : Tensor3 Ct} {t : Tensor3 V} {σ : K}

omit [LinearOrder K] in
/-- The state before the first layer. -/
theorem sim_start (ht : (t.height, t.width, t.channels) = (h, w, n))
    (hx : I.RepImage o.consumedLevel σ x t) :
    Sim I ⟨⟨h, w, n, 0⟩, o⟩ ⟨some x, [], 3⟩ (.image t) := by
  simp only [Prod.mk.injEq] at ht
  obtain ⟨rfl, rfl, rfl⟩ := ht
  exact ⟨rfl, rfl, x, σ, rfl, hx⟩

theorem sameFlags_buildLayers {E : Env K Pt Ct} {calls : List BuildCall} :
    ∀ {st : BuildState K} {network : List (Layer Pt)},
      buildLayers E file calls st = .ok (network, st') → SameFlags st'.option st.option := by
  induction calls with
  | nil =>
    intro st network h
    cases h
    exact .refl _
  | cons call calls ih =>
    intro st network h
    obtain ⟨layer, st1, rest, hl, hr, -⟩ := buildLayers_cons h
    exact (ih hr).trans (sameFlags_buildLayer hl)

/-- A network built in a fresh process computes the stored layers, and its output is on the level
the builders have counted. -/
theorem predict_stored (hm : IsModel layers h w n units)
    (hbuild : buildNetwork ⟨ev, .unbounded, c⟩ file layers .fresh o = .ok (network, st'))
    (ht : (t.height, t.width, t.channels) = (h, w, n)) (hx : I.RepImage o.consumedLevel σ x t)
    (hdisp : AllDispatch o layers) (hd : ∀ i < st'.option.consumedLevel, I.canDrop i) :
    st'.option = (storedRun c file (buildCalls o.enableFuseLayers layers) o (.image t)).1 ∧
    ∃ y u σ', predict ev .unbounded st'.option network x = .ok y ∧
      (storedRun c file (buildCalls o.enableFuseLayers layers) o (.image t)).2 = .units u ∧
      I.RepUnits st'.option.consumedLevel σ' y u := by
  rw [buildNetwork_fresh hm] at hbuild
  have hshape : (Value.image t).shape = .image h w n := by
    simp only [Prod.mk.injEq] at ht
    simp [Value.shape, ht]
  have hflags := sameFlags_buildLayers hbuild
  obtain ⟨ho, s', hs', hsim⟩ := buildLayers_sim (o := st'.option) hbuild (sim_start ht hx)
    (hshape ▸ hm.positive) (hshape ▸ callShapes_buildCalls o.enableFuseLayers layers _ ▸ hm.shapes)
    (fun call hcall => callValid_of_model hm hcall) hflags
    (fun call hcall => (callDispatches_congr hflags call).2 (callDispatches_of_all hdisp hcall)) hd
  refine ⟨ho, ?_⟩
  have hunits : (storedRun c file (buildCalls o.enableFuseLayers layers) o (.image t)).2.shape =
      .units units :=
    storedRun_shape (hshape ▸ callShapes_buildCalls o.enableFuseLayers layers _ ▸ hm.shapes)
  generalize (storedRun c file (buildCalls o.enableFuseLayers layers) o (.image t)).2 = v at *
  cases v with
  | image t => cases hunits
  | units u =>
    obtain ⟨-, -, σ', hrep⟩ := hsim
    exact ⟨s'.encryptedUnits, u, σ', bind_of_ok hs' _, rfl, hrep⟩

/-- A network with an activation that does not dispatch fails. -/
theorem predict_error (hm : IsModel layers h w n units)
    (hbuild : buildNetwork ⟨ev, .unbounded, c⟩ file layers .fresh o = .ok (network, st'))
    (ht : (t.height, t.width, t.channels) = (h, w, n)) (hx : I.RepImage o.consumedLevel σ x t)
    (hdisp : ¬AllDispatch o layers) (hd : ∀ i, I.canDrop i) :
    predict ev .unbounded st'.option network x = .error .outOfRange := by
  rw [buildNetwork_fresh hm] at hbuild
  have hshape : (Value.image t).shape = .image h w n := by
    simp only [Prod.mk.injEq] at ht
    simp [Value.shape, ht]
  have hflags := sameFlags_buildLayers hbuild
  unfold AllDispatch at hdisp
  push Not at hdisp
  obtain ⟨name, activation, hmem, hne⟩ := hdisp
  have herr := buildLayers_error (o := st'.option) hd hbuild (sim_start ht hx)
    (hshape ▸ hm.positive) (hshape ▸ callShapes_buildCalls o.enableFuseLayers layers _ ▸ hm.shapes)
    (fun call hcall => callValid_of_model hm hcall) hflags
    ⟨_, activation_mem_buildCalls hmem, fun h => hne ((callDispatches_congr hflags _).1 h)⟩
  rw [predict, herr, error_bind]

end Run

end Cnn.Proof
