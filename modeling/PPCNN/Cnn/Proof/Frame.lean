import PPCNN.Cnn.Network

/-!
# The file-scope variables a call reads and writes

A call of `buildLayer` reads some of the four variables `next_layer_in_*` (`Agrees`) and writes some
(`carry`). `buildLayer_frame`: from values that agree on what is read, it builds the same layer, or
throws the same error, and leaves the variables it does not write as they were.
-/

set_option autoImplicit false

namespace Cnn.Proof

open Lib

/-- The values agree on the extents and the channels. -/
def SameImage (a b : NextLayer) : Prop :=
  a.inHeight = b.inHeight ∧ a.inWidth = b.inWidth ∧ a.inChannels = b.inChannels

instance (a b : NextLayer) : Decidable (SameImage a b) :=
  inferInstanceAs (Decidable (_ ∧ _ ∧ _))

/-- The values agree on what the call reads. -/
def Agrees (a b : NextLayer) : BuildCall → Prop
  | .single (.conv2D info) | .conv2DFusedBN info _ =>
    info.batchInputShape = none → SameImage a b
  | .single (.averagePooling2D _) | .single (.flatten _) | .single (.globalAveragePooling2D _) =>
    SameImage a b
  | .single (.batchNormalization _) => a.bnDim = b.bnDim
  | .single (.dense _) | .denseFusedBN _ _ => a.inUnits = b.inUnits
  | .single (.activation _ _) | .single (.other _) => True

instance (a b : NextLayer) : DecidablePred (Agrees a b)
  | .single (.conv2D info) | .conv2DFusedBN info _ =>
    inferInstanceAs (Decidable (info.batchInputShape = none → SameImage a b))
  | .single (.averagePooling2D _) | .single (.flatten _) | .single (.globalAveragePooling2D _) =>
    inferInstanceAs (Decidable (SameImage a b))
  | .single (.batchNormalization _) => inferInstanceAs (Decidable (a.bnDim = b.bnDim))
  | .single (.dense _) | .denseFusedBN _ _ => inferInstanceAs (Decidable (a.inUnits = b.inUnits))
  | .single (.activation _ _) | .single (.other _) => inferInstanceAs (Decidable True)

/-- The values `b`, with those the call writes taken from `a`. -/
def carry (a b : NextLayer) : BuildCall → NextLayer
  | .single (.conv2D _) | .conv2DFusedBN _ _ | .single (.averagePooling2D _) =>
    { a with inUnits := b.inUnits }
  | .single (.flatten _) | .single (.globalAveragePooling2D _) | .single (.dense _)
  | .denseFusedBN _ _ => { b with inUnits := a.inUnits }
  | _ => b

variable {K Pt Ct : Type} [Field K] [LinearOrder K] (E : Env K Pt Ct) (file : H5File K)

/-- A result with other file-scope variables before the call. -/
def onNext (call : BuildCall) (b : NextLayer) (p : Layer Pt × BuildState K) :
    Layer Pt × BuildState K :=
  (p.1, ⟨carry p.2.next b call, p.2.option⟩)

theorem inShape_agrees {info : Conv2DInfo} {a b : NextLayer}
    (h : info.batchInputShape = none → SameImage a b) : info.inShape a = info.inShape b := by
  cases hs : info.batchInputShape with
  | some shape => simp [Conv2DInfo.inShape, hs]
  | none =>
    obtain ⟨h1, h2, h3⟩ := h hs
    simp [Conv2DInfo.inShape, hs, h1, h2, h3]

theorem buildConv2D_frame {info : Conv2DInfo} {a b : NextLayer} (o : OptOption K)
    (h : info.batchInputShape = none → SameImage a b) :
    buildConv2D E file info ⟨b, o⟩ =
      onNext (.single (.conv2D info)) b <$> buildConv2D E file info ⟨a, o⟩ := by
  rw [buildConv2D, buildConv2D, inShape_agrees h]
  simp only [map_bind, map_pure]
  rfl

theorem buildConv2DFusedBN_frame {info : Conv2DInfo} {bn : String} {a b : NextLayer} (o : OptOption K)
    (h : info.batchInputShape = none → SameImage a b) :
    buildConv2DFusedBN E file info bn ⟨b, o⟩ =
      onNext (.conv2DFusedBN info bn) b <$> buildConv2DFusedBN E file info bn ⟨a, o⟩ := by
  rw [buildConv2DFusedBN, buildConv2DFusedBN, inShape_agrees h]
  simp only [map_bind, map_pure]
  rfl

omit [LinearOrder K] in
theorem buildAveragePooling2D_frame {info : AveragePooling2DInfo} {a b : NextLayer} (o : OptOption K)
    (h : SameImage a b) :
    buildAveragePooling2D E info ⟨b, o⟩ =
      onNext (.single (.averagePooling2D info)) b <$> buildAveragePooling2D E info ⟨a, o⟩ := by
  obtain ⟨h1, h2, h3⟩ := h
  rw [buildAveragePooling2D, buildAveragePooling2D]
  simp only [h1, h2, h3, map_bind, map_pure]
  rfl

omit [LinearOrder K] in
theorem buildBatchNormalization_frame {name : String} {a b : NextLayer} (o : OptOption K)
    (h : a.bnDim = b.bnDim) :
    buildBatchNormalization E file name ⟨b, o⟩ =
      onNext (.single (.batchNormalization name)) b <$> buildBatchNormalization E file name ⟨a, o⟩ := by
  rw [buildBatchNormalization, buildBatchNormalization]
  dsimp only
  rw [h]
  simp only [map_bind, map_pure]
  rfl

theorem buildDense_frame {info : DenseInfo} {a b : NextLayer} (o : OptOption K)
    (h : a.inUnits = b.inUnits) :
    buildDense E file info ⟨b, o⟩ =
      onNext (.single (.dense info)) b <$> buildDense E file info ⟨a, o⟩ := by
  rw [buildDense, buildDense]
  dsimp only
  rw [h]
  simp only [map_bind, map_pure]
  rfl

theorem buildDenseFusedBN_frame {info : DenseInfo} {bn : String} {a b : NextLayer} (o : OptOption K)
    (h : a.inUnits = b.inUnits) :
    buildDenseFusedBN E file info bn ⟨b, o⟩ =
      onNext (.denseFusedBN info bn) b <$> buildDenseFusedBN E file info bn ⟨a, o⟩ := by
  rw [buildDenseFusedBN, buildDenseFusedBN]
  dsimp only
  rw [h]
  simp only [map_bind, map_pure]
  rfl

/-- From values that agree on what it reads, a call builds the same layer and writes the same
values. -/
theorem buildLayer_frame {call : BuildCall} {a b : NextLayer} (o : OptOption K)
    (h : Agrees a b call) :
    buildLayer E file call ⟨b, o⟩ = onNext call b <$> buildLayer E file call ⟨a, o⟩ := by
  cases call with
  | conv2DFusedBN info bn => exact buildConv2DFusedBN_frame E file o h
  | denseFusedBN info bn => exact buildDenseFusedBN_frame E file o h
  | single layer =>
    cases layer with
    | conv2D info => exact buildConv2D_frame E file o h
    | averagePooling2D info => exact buildAveragePooling2D_frame E o h
    | batchNormalization name => exact buildBatchNormalization_frame E file o h
    | flatten name =>
      obtain ⟨h1, h2, h3⟩ := h
      simp [buildLayer, buildSingle, buildFlatten, onNext, carry, h1, h2, h3]
    | dense info => exact buildDense_frame E file o h
    | activation name activation =>
      simp only [buildLayer, buildSingle, buildActivation, map_bind, map_pure]
      rfl
    | globalAveragePooling2D name =>
      obtain ⟨h1, h2, h3⟩ := h
      simp [buildLayer, buildSingle, buildGlobalAveragePooling2D, onNext, carry, h1, h2, h3]
    | other className => rfl

end Cnn.Proof
