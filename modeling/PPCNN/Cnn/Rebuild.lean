import PPCNN.Cnn.Proof.Frame
import PPCNN.Cnn.Proof.Complete
import Mathlib.Data.Rat.Sqrt
import Mathlib.Algebra.Order.Ring.Rat

/-!
# Building one network after another

The four file-scope variables keep their values between two calls of `BuildNetwork`. A first
convolution with a `batch_input_shape` sets three of them; `next_layer_in_units` is still what the
models before have left. `rebuild_iff` says which models do not read it: without a standalone batch
normalisation of another dimension before the first `Flatten`, `GlobalAveragePooling2D` or `Dense`.
-/

set_option autoImplicit false

namespace Cnn

open Lib Keras Proof

variable {K Pt Ct : Type} [Field K] [LinearOrder K]

/-! ## A server process -/

/-- What one call of `BuildNetwork` is made with. -/
structure Job (K Pt Ct : Type) where
  env : Env K Pt Ct
  file : H5File K
  layers : List LayerInfo
  option : OptOption K

/-- The file-scope variables after calls of `buildLayer`, the last of which may throw. -/
def nextAfter (E : Env K Pt Ct) (file : H5File K) : List BuildCall → BuildState K → NextLayer
  | [], st => st.next
  | call :: calls, st =>
    match buildLayer E file call st with
    | .ok (_, st') => nextAfter E file calls st'
    | .error _ => st.next

def Job.calls (job : Job K Pt Ct) : List BuildCall := buildCalls job.option.enableFuseLayers job.layers

/-- `BuildNetwork` for a job, from given values of the file-scope variables. -/
def Job.build (job : Job K Pt Ct) (next : NextLayer) :
    Except Error (List (Layer Pt) × BuildState K) :=
  buildNetwork job.env job.file job.layers next job.option

/-- The file-scope variables after jobs, one after the other in one process. -/
def processJobs (jobs : List (Job K Pt Ct)) (next : NextLayer) : NextLayer :=
  jobs.foldl (fun next job => nextAfter job.env job.file job.calls ⟨next, job.option⟩) next

/-- The layers of a network, or the error. -/
def layersOf (x : Except Error (List (Layer Pt) × BuildState K)) : Except Error (List (Layer Pt)) :=
  Prod.fst <$> x

/-- The layers with the option object that building them leaves. -/
def outcomeOf (x : Except Error (List (Layer Pt) × BuildState K)) :
    Except Error (List (Layer Pt) × OptOption K) :=
  (fun p => (p.1, p.2.option)) <$> x

/-! ## Calls that do not read the units of another model -/

/-- No call reads `next_layer_in_units` with another result than zero gives, if it has the value `u`:
batch normalisations have `u` channels, and `Flatten` or `GlobalAveragePooling2D` come before
`Dense`. -/
def NoStaleRead (u : ℕ) : List BuildCall → ℕ → Prop
  | [], _ => True
  | call :: calls, channels =>
    match call with
    | .single (.conv2D info) | .conv2DFusedBN info _ => NoStaleRead u calls info.filters
    | .single (.averagePooling2D _) | .single (.activation _ _) => NoStaleRead u calls channels
    | .single (.batchNormalization _) => channels = u ∧ NoStaleRead u calls channels
    | .single (.dense _) | .denseFusedBN _ _ => False
    | .single (.flatten _) | .single (.globalAveragePooling2D _) | .single (.other _) => True

/-- The values with the units of another model. -/
def withUnits (u : ℕ) (a : NextLayer) : NextLayer := { a with inUnits := u }

variable {E : Env K Pt Ct} {file : H5File K} {u : ℕ} {st st' : BuildState K} {layer : Layer Pt}

omit [Field K] [LinearOrder K] in
theorem layersOf_congr {x y : Except Error (List (Layer Pt) × BuildState K)}
    (h : outcomeOf x = outcomeOf y) : layersOf x = layersOf y := by
  have hfst : ∀ x : Except Error (List (Layer Pt) × BuildState K),
      layersOf x = Prod.fst <$> outcomeOf x := by
    intro x
    cases x <;> rfl
  rw [hfst, hfst, h]

omit [Field K] [LinearOrder K] in
theorem outcomeOf_cons {x : Except Error (Layer Pt × BuildState K)}
    {f : BuildState K → Except Error (List (Layer Pt) × BuildState K)} :
    outcomeOf (do
      let (layer, st) ← x
      let (layers, st) ← f st
      return (layer :: layers, st)) =
    (do
      let (layer, st) ← x
      let (layers, o) ← outcomeOf (f st)
      return (layer :: layers, o)) := by
  cases x with
  | error e => rfl
  | ok p =>
    obtain ⟨layer, st⟩ := p
    simp only [ok_bind, outcomeOf]
    cases f st <;> rfl

/-- A call whose reads agree builds the same layer from both values. -/
theorem outcomeOf_buildLayers_congr {call : BuildCall} {calls : List BuildCall} {a b : NextLayer}
    {o : OptOption K} (hread : Agrees a b call)
    (hrest : ∀ layer st', buildLayer E file call ⟨a, o⟩ = .ok (layer, st') →
      outcomeOf (buildLayers E file calls ⟨carry st'.next b call, st'.option⟩) =
        outcomeOf (buildLayers E file calls st')) :
    outcomeOf (buildLayers E file (call :: calls) ⟨b, o⟩) =
      outcomeOf (buildLayers E file (call :: calls) ⟨a, o⟩) := by
  rw [buildLayers, buildLayers, outcomeOf_cons, outcomeOf_cons, buildLayer_frame E file o hread]
  cases hb : buildLayer E file call ⟨a, o⟩ with
  | error e => rfl
  | ok p =>
    obtain ⟨layer, st'⟩ := p
    rw [map_ok, ok_bind, ok_bind]
    simp only [onNext, hrest layer st' hb]

/-- If both networks have the same layers, so have their first calls and the rest. -/
theorem layersOf_cons_inj {call : BuildCall} {calls : List BuildCall} {sa sb : BuildState K}
    (hsuc : Succeeds (buildLayers E file (call :: calls) sa))
    (heq : layersOf (buildLayers E file (call :: calls) sb) =
      layersOf (buildLayers E file (call :: calls) sa)) :
    ∃ layer sa' sb', buildLayer E file call sa = .ok (layer, sa') ∧
      buildLayer E file call sb = .ok (layer, sb') ∧ Succeeds (buildLayers E file calls sa') ∧
      layersOf (buildLayers E file calls sb') = layersOf (buildLayers E file calls sa') := by
  obtain ⟨p, hp⟩ := hsuc
  have hp' := hp
  rw [buildLayers] at hp
  obtain ⟨⟨layer, sa'⟩, ha, hp⟩ := bind_eq_ok.1 hp
  obtain ⟨⟨layers, sa''⟩, hra, hp⟩ := bind_eq_ok.1 hp
  cases hp
  have hlayers : layersOf (buildLayers E file (call :: calls) sb) = .ok (layer :: layers) := by
    rw [heq, hp']
    rfl
  obtain ⟨q, hq, hlayers⟩ := map_eq_ok.1 hlayers
  rw [buildLayers] at hq
  obtain ⟨⟨layer', sb'⟩, hb, hq⟩ := bind_eq_ok.1 hq
  obtain ⟨⟨layers', sb''⟩, hrb, hq⟩ := bind_eq_ok.1 hq
  cases hq
  cases hlayers
  exact ⟨layer, sa', sb', ha, hb, ⟨_, hra⟩, by rw [hrb, hra]; rfl⟩

/-! ## Both directions -/

theorem outcomeOf_of_noStaleRead (hu : u ≠ 0) {calls : List BuildCall} :
    ∀ {a : NextLayer} {o : OptOption K}, a.inUnits = 0 → NoStaleRead u calls a.inChannels →
      outcomeOf (buildLayers E file calls ⟨withUnits u a, o⟩) =
        outcomeOf (buildLayers E file calls ⟨a, o⟩) := by
  induction calls with
  | nil => exact fun _ _ => rfl
  | cons call calls ih =>
    intro a o h0 h
    cases call with
    | conv2DFusedBN info bn =>
      refine outcomeOf_buildLayers_congr (fun _ => ⟨rfl, rfl, rfl⟩) fun layer st' hb => ?_
      obtain ⟨l, -, hb⟩ := buildConv2DFusedBN_ok hb
      rw [hb.state]
      have h : NoStaleRead u calls info.filters := h
      exact ih h0 (hb.filterSize.symm ▸ h)
    | denseFusedBN info bn => exact absurd h id
    | single layer =>
      cases layer with
      | conv2D info =>
        refine outcomeOf_buildLayers_congr (fun _ => ⟨rfl, rfl, rfl⟩) fun layer st' hb => ?_
        obtain ⟨l, -, hb⟩ := buildConv2D_ok hb
        rw [hb.state]
        have h : NoStaleRead u calls info.filters := h
        exact ih h0 (hb.filterSize.symm ▸ h)
      | averagePooling2D info =>
        refine outcomeOf_buildLayers_congr ⟨rfl, rfl, rfl⟩ fun layer st' hb => ?_
        obtain ⟨l, -, hb⟩ := buildAveragePooling2D_ok hb
        have hchannels : l.inChannels = a.inChannels := (Prod.mk.inj (Prod.mk.inj hb.inShape).2).2
        rw [hb.state (.units 0)]
        have h : NoStaleRead u calls a.inChannels := h
        exact ih h0 (hchannels.symm ▸ h)
      | batchNormalization name =>
        refine outcomeOf_buildLayers_congr ?_ fun layer st' hb => ?_
        · simp [Agrees, NextLayer.bnDim, withUnits, h0, hu, h.1]
        · obtain ⟨l, -, -, -, rfl⟩ := buildBatchNormalization_ok hb
          exact ih h0 h.2
      | flatten name =>
        refine outcomeOf_buildLayers_congr ⟨rfl, rfl, rfl⟩ fun layer st' hb => ?_
        cases hb
        rfl
      | dense info => exact absurd h id
      | activation name activation =>
        refine outcomeOf_buildLayers_congr trivial fun layer st' hb => ?_
        obtain ⟨l, -, -, -, hst⟩ := buildActivation_ok hb
        rw [hst (.units 0)]
        exact ih h0 h
      | globalAveragePooling2D name =>
        refine outcomeOf_buildLayers_congr ⟨rfl, rfl, rfl⟩ fun layer st' hb => ?_
        cases hb
        rfl
      | other className => rfl

theorem layersOf_of_noStaleRead (hu : u ≠ 0) {calls : List BuildCall} {a : NextLayer} {o : OptOption K}
    (h0 : a.inUnits = 0) (h : NoStaleRead u calls a.inChannels) :
    layersOf (buildLayers E file calls ⟨withUnits u a, o⟩) = layersOf (buildLayers E file calls ⟨a, o⟩) :=
  layersOf_congr (outcomeOf_of_noStaleRead hu h0 h)

theorem noStaleRead_of_layersOf (hu : u ≠ 0) {calls : List BuildCall} :
    ∀ {a : NextLayer} {o : OptOption K}, a.inUnits = 0 →
      Succeeds (buildLayers E file calls ⟨a, o⟩) →
      layersOf (buildLayers E file calls ⟨withUnits u a, o⟩) =
        layersOf (buildLayers E file calls ⟨a, o⟩) → NoStaleRead u calls a.inChannels := by
  induction calls with
  | nil => exact fun _ _ _ => trivial
  | cons call calls ih =>
    intro a o h0 hsuc heq
    obtain ⟨layer, sa', sb', ha, hb, hsuc', heq'⟩ := layersOf_cons_inj hsuc heq
    cases call with
    | conv2DFusedBN info bn =>
      obtain ⟨l, rfl, hla⟩ := buildConv2DFusedBN_ok ha
      obtain ⟨l', hl', hlb⟩ := buildConv2DFusedBN_ok hb
      cases hl'
      rw [hla.state] at hsuc' heq'
      rw [hlb.state] at heq'
      have h : NoStaleRead u calls l.filterSize :=
        ih (a := ⟨l.outHeight, l.outWidth, l.filterSize, a.inUnits⟩) h0 hsuc' heq'
      show NoStaleRead u calls info.filters
      exact hla.filterSize ▸ h
    | denseFusedBN info bn =>
      obtain ⟨l, rfl, hla⟩ := buildDenseFusedBN_ok ha
      obtain ⟨l', hl', hlb⟩ := buildDenseFusedBN_ok hb
      cases hl'
      exact hu ((hlb.inUnits.symm.trans hla.inUnits).trans h0)
    | single layer =>
      cases layer with
      | conv2D info =>
        obtain ⟨l, rfl, hla⟩ := buildConv2D_ok ha
        obtain ⟨l', hl', hlb⟩ := buildConv2D_ok hb
        cases hl'
        rw [hla.state] at hsuc' heq'
        rw [hlb.state] at heq'
        have h : NoStaleRead u calls l.filterSize :=
          ih (a := ⟨l.outHeight, l.outWidth, l.filterSize, a.inUnits⟩) h0 hsuc' heq'
        show NoStaleRead u calls info.filters
        exact hla.filterSize ▸ h
      | averagePooling2D info =>
        obtain ⟨l, rfl, hla⟩ := buildAveragePooling2D_ok ha
        obtain ⟨l', hl', hlb⟩ := buildAveragePooling2D_ok hb
        cases hl'
        have hchannels : l.inChannels = a.inChannels := (Prod.mk.inj (Prod.mk.inj hla.inShape).2).2
        rw [hla.state (.units 0)] at hsuc' heq'
        rw [hlb.state (.units 0)] at heq'
        have h : NoStaleRead u calls l.inChannels :=
          ih (a := ⟨l.outHeight, l.outWidth, l.inChannels, a.inUnits⟩) h0 hsuc' heq'
        show NoStaleRead u calls a.inChannels
        exact hchannels ▸ h
      | batchNormalization name =>
        obtain ⟨l, rfl, hla, -⟩ := buildBatchNormalization_length ha
        obtain ⟨l', hl', hlb, -⟩ := buildBatchNormalization_length hb
        cases hl'
        obtain ⟨-, -, -, -, rfl⟩ := buildBatchNormalization_ok ha
        obtain ⟨-, -, -, -, rfl⟩ := buildBatchNormalization_ok hb
        refine ⟨?_, ih h0 hsuc' heq'⟩
        have hdim := hla.symm.trans hlb
        simpa [NextLayer.bnDim, withUnits, h0, hu] using hdim
      | flatten name => trivial
      | dense info =>
        obtain ⟨l, rfl, hla⟩ := buildDense_ok ha
        obtain ⟨l', hl', hlb⟩ := buildDense_ok hb
        cases hl'
        exact hu ((hlb.inUnits.symm.trans hla.inUnits).trans h0)
      | activation name activation =>
        obtain ⟨l, rfl, -, -, hsta⟩ := buildActivation_ok ha
        obtain ⟨l', -, -, -, hstb⟩ := buildActivation_ok hb
        rw [hsta (.units 0)] at hsuc' heq'
        rw [hstb (.units 0)] at heq'
        exact ih h0 hsuc' heq'
      | globalAveragePooling2D name => trivial
      | other className => trivial

/-- A first convolution with a declared shape leaves only the units of the values before. -/
theorem buildNetwork_withUnits {info : Conv2DInfo} {h w n : ℕ}
    (hbatch : info.batchInputShape = some (h, w, n)) (E : Env K Pt Ct) (file : H5File K)
    (rest : List LayerInfo) (next : NextLayer) (o : OptOption K) :
    buildNetwork E file (.conv2D info :: rest) next o =
      buildLayers E file (buildCalls o.enableFuseLayers (.conv2D info :: rest))
        ⟨withUnits next.inUnits ⟨h, w, n, 0⟩, o⟩ := by
  obtain ⟨call, calls, hcalls, hcall⟩ := buildCalls_conv2D o.enableFuseLayers info rest
  rw [buildNetwork, hcalls, buildLayers, buildLayers, buildLayer_first hcall hbatch]
  rfl

/-- The network and the option object are those of a fresh process, if no call reads the units. -/
theorem outcomeOf_buildNetwork {info : Conv2DInfo} {h w n : ℕ}
    (hbatch : info.batchInputShape = some (h, w, n)) (E : Env K Pt Ct) (file : H5File K)
    {rest : List LayerInfo} {next : NextLayer} {o : OptOption K}
    (hread : next.inUnits = 0 ∨
      NoStaleRead next.inUnits (buildCalls o.enableFuseLayers (.conv2D info :: rest)) n) :
    outcomeOf (buildNetwork E file (.conv2D info :: rest) next o) =
      outcomeOf (buildNetwork E file (.conv2D info :: rest) .fresh o) := by
  rw [buildNetwork_withUnits hbatch, buildNetwork_withUnits hbatch E file rest .fresh]
  by_cases hu : next.inUnits = 0
  · rw [hu]
    rfl
  · exact outcomeOf_of_noStaleRead hu rfl (hread.resolve_left hu)

omit [Field K] [LinearOrder K] in
theorem alike_of_outcomeOf {x y : Except Error (List (Layer Pt) × BuildState K)}
    (h : outcomeOf x = outcomeOf y) : Alike (fun p q => p.1 = q.1 ∧ p.2.option = q.2.option) x y := by
  cases x with
  | error e =>
    cases y with
    | error e' => exact Except.error.inj h
    | ok q => cases h
  | ok p =>
    cases y with
    | error e' => cases h
    | ok q => exact Prod.mk.inj (Except.ok.inj h)

/-- What a computation does with the network and the option object of a build. -/
theorem buildAndPredict_outcome (E : Env K Pt Ct) (file : H5File K) (layers : List LayerInfo)
    (next : NextLayer) (o : OptOption K) (input : Tensor3 Ct) :
    buildAndPredict E file layers next o input =
      (outcomeOf (buildNetwork E file layers next o) >>= fun p => predict E.ev E.arith p.2 p.1 input) := by
  rw [buildAndPredict]
  cases buildNetwork E file layers next o <;> rfl

/-- A computation in a process that has built other models has the outcome it has in a fresh one, if no
call reads their units. -/
theorem buildAndPredict_fresh {layers : List LayerInfo} {h w n units : ℕ}
    (hm : IsModel layers h w n units) {next : NextLayer} {o : OptOption K}
    (hread : next.inUnits = 0 ∨ NoStaleRead next.inUnits (buildCalls o.enableFuseLayers layers) n)
    (E : Env K Pt Ct) (file : H5File K) (input : Tensor3 Ct) :
    buildAndPredict E file layers next o input = buildAndPredict E file layers .fresh o input := by
  obtain ⟨info, rest, rfl, hbatch⟩ := hm.first
  rw [buildAndPredict_outcome, buildAndPredict_outcome, outcomeOf_buildNetwork hbatch E file hread]

/-- A model that starts with a declared convolution gets the layers it gets in a fresh process, if the
jobs before left no units or no call reads them; else it does not, unless it is not built at all. -/
theorem rebuild_iff (jobs : List (Job K Pt Ct)) (job : Job K Pt Ct) (info : Conv2DInfo)
    (rest : List LayerInfo) (h w n : ℕ) (hlayers : job.layers = .conv2D info :: rest)
    (hbatch : info.batchInputShape = some (h, w, n)) :
    ((processJobs jobs .fresh).inUnits = 0 ∨
        NoStaleRead (processJobs jobs .fresh).inUnits job.calls n →
      layersOf (job.build (processJobs jobs .fresh)) = layersOf (job.build .fresh)) ∧
    (Succeeds (job.build .fresh) →
      layersOf (job.build (processJobs jobs .fresh)) = layersOf (job.build .fresh) →
      (processJobs jobs .fresh).inUnits = 0 ∨
        NoStaleRead (processJobs jobs .fresh).inUnits job.calls n) := by
  generalize processJobs jobs .fresh = next
  have hbuild : ∀ next, job.build next = buildLayers job.env job.file job.calls
      ⟨withUnits next.inUnits ⟨h, w, n, 0⟩, job.option⟩ := by
    intro next
    obtain ⟨call, calls, hcalls, hcall⟩ := buildCalls_conv2D job.option.enableFuseLayers info rest
    rw [Job.build, Job.calls, buildNetwork, hlayers, hcalls, buildLayers, buildLayers,
      buildLayer_first hcall hbatch]
    rfl
  rw [hbuild next, hbuild .fresh]
  by_cases hu : next.inUnits = 0
  · rw [hu]
    exact ⟨fun _ => rfl, fun _ _ => .inl rfl⟩
  · exact ⟨fun hcond => layersOf_of_noStaleRead hu rfl (hcond.resolve_left hu),
      fun hsuc heq => .inr (noStaleRead_of_layersOf hu rfl hsuc heq)⟩

section Sample

def rebuildEnv : Env ℚ ℚ ℚ := ⟨.exact ℚ, .lp64, Define.source Rat.sqrt⟩

def tenDense : LayerInfo := .dense { name := "dense", units := 10, activation := "linear" }

/-- A model with ten outputs. -/
def firstJob : Job ℚ ℚ ℚ where
  env := rebuildEnv
  file := unitFile fun _ => 1
  layers := [unitConv "conv2d" (some (2, 2, 1)), .flatten "flatten", tenDense]
  option := computeOption (Define.source Rat.sqrt) .noOpt .default "HCNN"

/-- A model with a batch normalisation of one channel. -/
def secondJob : Job ℚ ℚ ℚ where
  env := rebuildEnv
  file := unitFile fun _ => 1
  layers := [unitConv "conv2d" (some (2, 2, 1)), .batchNormalization "batch_normalization",
    .flatten "flatten", tenDense]
  option := computeOption (Define.source Rat.sqrt) .noOpt .default "HCNN-BN"

theorem rebuild_iff_sample :
    ((processJobs [firstJob] .fresh).inUnits = 0 ∨
        NoStaleRead (processJobs [firstJob] .fresh).inUnits firstJob.calls 1) ∧
      layersOf (firstJob.build (processJobs [firstJob] .fresh)) = layersOf (firstJob.build .fresh) :=
  have hcond : (processJobs [firstJob] .fresh).inUnits = 0 ∨
      NoStaleRead (processJobs [firstJob] .fresh).inUnits firstJob.calls 1 := .inr trivial
  ⟨hcond, (rebuild_iff [firstJob] firstJob _ _ 2 2 1 rfl rfl).1 hcond⟩

/-- How many weights each batch normalisation has. -/
def bnWeightCounts (layers : List (Layer Pt)) : List ℕ :=
  layers.filterMap fun layer =>
    match layer with
    | .batchNormalization l => some l.plainWeights.length
    | _ => none

/-- Alone the batch normalisation has one weight, after the model with ten outputs it has ten. -/
theorem rebuild_differs :
    bnWeightCounts <$> layersOf (secondJob.build .fresh) = .ok [1] ∧
    bnWeightCounts <$> layersOf (secondJob.build (processJobs [firstJob] .fresh)) = .ok [10] := by
  constructor <;> decide +kernel

end Sample

end Cnn
