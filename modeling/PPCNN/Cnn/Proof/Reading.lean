import PPCNN.Cnn.Structure
import PPCNN.Cnn.Proof.Network

/-!
# Structure files that can be read

A file whose elements can all be read is built as the list of layers read from it
(`buildStructure_eq`), so what is proved of `buildNetwork` is true of the file.
-/

set_option autoImplicit false

namespace Cnn

open Lib

/-! ## One element -/

/-- The element is read as the layer. -/
def ReadsAs (A : IntArith) (v : JsonValue) (info : LayerInfo) : Prop :=
  ∃ layer className, readClass v = .ok (layer, className) ∧ readLayer A layer className = .ok info

namespace Proof

variable {A : IntArith}

/-- The class of a layer. -/
def className : LayerInfo → String
  | .conv2D _ => conv2DClassName
  | .averagePooling2D _ => averagePooling2DClassName
  | .batchNormalization _ => batchNormalizationClassName
  | .flatten _ => flattenClassName
  | .dense _ => denseClassName
  | .activation _ _ => activationClassName
  | .globalAveragePooling2D _ => globalAveragePooling2DClassName
  | .other className => className

theorem readLayer_conv2D (layer : JsonObject) : readLayer A layer conv2DClassName = do
    return .conv2D (← readConv2D A (← (layer.field "config").getObject)) := rfl

theorem readLayer_averagePooling2D (layer : JsonObject) :
    readLayer A layer averagePooling2DClassName = do
      return .averagePooling2D (← readAveragePooling2D A (← (layer.field "config").getObject)) := rfl

theorem readLayer_batchNormalization (layer : JsonObject) :
    readLayer A layer batchNormalizationClassName = do
      return .batchNormalization (← readName (← (layer.field "config").getObject)) := rfl

theorem readLayer_flatten (layer : JsonObject) : readLayer A layer flattenClassName = do
    return .flatten (← readName (← (layer.field "config").getObject)) := rfl

theorem readLayer_dense (layer : JsonObject) : readLayer A layer denseClassName = do
    return .dense (← readDense A (← (layer.field "config").getObject)) := rfl

theorem readLayer_activation (layer : JsonObject) : readLayer A layer activationClassName = do
    let o ← (layer.field "config").getObject
    return .activation (← readName o) (← (o.field "activation").getString) := rfl

theorem readLayer_globalAveragePooling2D (layer : JsonObject) :
    readLayer A layer globalAveragePooling2DClassName = do
      return .globalAveragePooling2D (← readName (← (layer.field "config").getObject)) := rfl

/-- A layer has the class under which it was read. -/
theorem className_of_readLayer {layer : JsonObject} {className : String} {info : LayerInfo}
    (h : readLayer A layer className = .ok info) : Proof.className info = className := by
  by_cases hmem : className ∈ (buildLayerMap A).map Prod.fst
  · have hclass : className = conv2DClassName ∨ className = averagePooling2DClassName ∨
        className = batchNormalizationClassName ∨ className = flattenClassName ∨
        className = denseClassName ∨ className = activationClassName ∨
        className = globalAveragePooling2DClassName := by
      simpa [buildLayerMap] using hmem
    rcases hclass with rfl | rfl | rfl | rfl | rfl | rfl | rfl
    · obtain ⟨_, -, _, -, he⟩ := by simpa only [readLayer_conv2D, bind_eq_ok] using h
      cases he
      rfl
    · obtain ⟨_, -, _, -, he⟩ := by simpa only [readLayer_averagePooling2D, bind_eq_ok] using h
      cases he
      rfl
    · obtain ⟨_, -, _, -, he⟩ := by simpa only [readLayer_batchNormalization, bind_eq_ok] using h
      cases he
      rfl
    · obtain ⟨_, -, _, -, he⟩ := by simpa only [readLayer_flatten, bind_eq_ok] using h
      cases he
      rfl
    · obtain ⟨_, -, _, -, he⟩ := by simpa only [readLayer_dense, bind_eq_ok] using h
      cases he
      rfl
    · obtain ⟨_, -, _, -, _, -, he⟩ := by simpa only [readLayer_activation, bind_eq_ok] using h
      cases he
      rfl
    · obtain ⟨_, -, _, -, he⟩ := by simpa only [readLayer_globalAveragePooling2D, bind_eq_ok] using h
      cases he
      rfl
  · have hnone : (buildLayerMap A).lookup className = none := by
      rw [List.lookup_eq_none_iff]
      intro p hp
      simp only [bne_iff_ne, ne_eq]
      rintro rfl
      exact hmem (List.mem_map_of_mem hp)
    rw [readLayer, hnone] at h
    cases h
    rfl

/-- The call for a layer that has a next one, and whether the iterator steps over that one. -/
def callOf : LayerInfo → LayerInfo → BuildCall × Bool
  | .conv2D conv2d, .batchNormalization bn => (.conv2DFusedBN conv2d bn, true)
  | .dense dense, .batchNormalization bn => (.denseFusedBN dense bn, true)
  | info, _ => (.single info, false)

theorem readCall_of_reads {layer next : JsonObject} {className nextClassName : String}
    {info info' : LayerInfo} (h : readLayer A layer className = .ok info)
    (h' : readLayer A next nextClassName = .ok info') :
    readCall A layer next className nextClassName = .ok (callOf info info') := by
  have hinfo := className_of_readLayer h
  have hinfo' := className_of_readLayer h'
  unfold readCall
  by_cases hbn : nextClassName = batchNormalizationClassName
  · subst hbn
    obtain ⟨bnConfig, hbnConfig, bn, hbn, he⟩ := by
      simpa only [readLayer_batchNormalization, bind_eq_ok] using h'
    cases he
    by_cases hconv : className = conv2DClassName
    · subst hconv
      obtain ⟨config, hconfig, conv2d, hconv2d, he⟩ := by
        simpa only [readLayer_conv2D, bind_eq_ok] using h
      cases he
      simp only [and_self, if_true, hconfig, hbnConfig, hconv2d, hbn, ok_bind, pure_eq_ok, callOf]
    · rw [if_neg fun hc => hconv hc.1]
      by_cases hdense : className = denseClassName
      · subst hdense
        obtain ⟨config, hconfig, dense, hdense, he⟩ := by
          simpa only [readLayer_dense, bind_eq_ok] using h
        cases he
        simp only [and_self, if_true, hconfig, hbnConfig, hdense, hbn, ok_bind, pure_eq_ok, callOf]
      · rw [if_neg fun hc => hdense hc.1, h, ok_bind, pure_eq_ok]
        cases info with
        | conv2D info => exact absurd hinfo.symm hconv
        | dense info => exact absurd hinfo.symm hdense
        | _ => rfl
  · rw [if_neg fun hc => hbn hc.2, if_neg fun hc => hbn hc.2, h, ok_bind]
    cases info' with
    | batchNormalization name => exact absurd hinfo'.symm hbn
    | _ => cases info <;> rfl

/-! ## The loops -/

variable {K Pt Ct : Type} [Field K] [LinearOrder K] {E : Env K Pt Ct} {file : H5File K}

theorem buildEach_eq {values : List JsonValue} {layers : List LayerInfo}
    (h : List.Forall₂ (ReadsAs E.arith) values layers) (st : BuildState K) :
    buildEach E file values st = buildLayers E file (layers.map .single) st := by
  induction h generalizing st with
  | nil => rfl
  | cons hv _ ih =>
    obtain ⟨layer, className, hclass, hread⟩ := hv
    simp only [buildEach, hclass, hread, ok_bind, List.map_cons, buildLayers, buildLayer, ih]

theorem buildFused_eq {layers : List LayerInfo} {values : List JsonValue}
    (h : List.Forall₂ (ReadsAs E.arith) values layers) (st : BuildState K) :
    buildFused E file values st = buildLayers E file (fusedCalls layers) st := by
  fun_induction fusedCalls layers generalizing values st with
  | case1 =>
    cases h
    rfl
  | case2 info =>
    obtain ⟨v, _, ⟨layer, className, hclass, hread⟩, htail, rfl⟩ := List.forall₂_cons_right_iff.1 h
    cases htail
    simp only [buildFused, hclass, hread, ok_bind, buildLayers, buildLayer, pure_eq_ok]
  | case3 conv2d bn layers ih =>
    obtain ⟨v, _, ⟨layer, className, hclass, hread⟩, htail, rfl⟩ := List.forall₂_cons_right_iff.1 h
    obtain ⟨v', values, ⟨next, nextClass, hclass', hread'⟩, hrest, rfl⟩ :=
      List.forall₂_cons_right_iff.1 htail
    simp only [buildFused, hclass, hclass', readCall_of_reads hread hread', callOf, ok_bind,
      buildLayers, if_true, ih hrest]
  | case4 dense bn layers ih =>
    obtain ⟨v, _, ⟨layer, className, hclass, hread⟩, htail, rfl⟩ := List.forall₂_cons_right_iff.1 h
    obtain ⟨v', values, ⟨next, nextClass, hclass', hread'⟩, hrest, rfl⟩ :=
      List.forall₂_cons_right_iff.1 htail
    simp only [buildFused, hclass, hclass', readCall_of_reads hread hread', callOf, ok_bind,
      buildLayers, if_true, ih hrest]
  | case5 info info' layers hconv hdense ih =>
    obtain ⟨v, _, ⟨layer, className, hclass, hread⟩, htail, rfl⟩ := List.forall₂_cons_right_iff.1 h
    obtain ⟨v', values, ⟨next, nextClass, hclass', hread'⟩, _, rfl⟩ :=
      List.forall₂_cons_right_iff.1 htail
    have hcall : readCall E.arith layer next className nextClass = .ok (.single info, false) := by
      rw [readCall_of_reads hread hread']
      unfold callOf
      split
      · exact absurd rfl (hconv _ _ rfl)
      · exact absurd rfl (hdense _ _ rfl)
      · rfl
    simp only [buildFused, hclass, hclass', hcall, ok_bind, buildLayers, Bool.false_eq_true, if_false,
      ih htail]

/-- A file whose elements can all be read is built as the list of the layers. -/
theorem buildStructure_eq {json : JsonValue} {values : List JsonValue} {layers : List LayerInfo}
    (hload : loadLayers json = .ok values) (h : List.Forall₂ (ReadsAs E.arith) values layers)
    (next : NextLayer) (option : OptOption K) :
    buildStructure E file json next option = buildNetwork E file layers next option := by
  rw [buildStructure, hload, ok_bind, buildNetwork, buildCalls]
  split
  · exact buildFused_eq h _
  · exact buildEach_eq h _

end Proof

end Cnn
