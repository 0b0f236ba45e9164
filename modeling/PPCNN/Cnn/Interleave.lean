import PPCNN.Cnn.Rebuild
import PPCNN.Lib.System

/-!
# Building networks at the same time

Every calculation thread runs `BuildNetwork` for its query; all of them write the same four
file-scope variables. The steps of the system are the calls of `buildLayer`. `interleaved_build`: a
thread builds the network it builds alone if every call finds, in the variables it reads, what the
calls of its own thread have left there.
-/

set_option autoImplicit false

namespace Cnn

open Lib Proof

variable {K Pt Ct ι : Type} [Field K] [LinearOrder K] [DecidableEq ι]

/-! ## The system -/

/-- A thread in the loop of `BuildNetwork`. -/
structure Builder (K Pt : Type) where
  /-- the calls of `buildLayer` that are still to be made -/
  calls : List BuildCall
  option : OptOption K
  layers : List (Layer Pt)
  /-- the exception that ended the loop -/
  error : Option Error
  /-- the values this thread's calls have written last, as a record of the past: no step reads it -/
  own : NextLayer

structure Builders (K Pt ι : Type) where
  next : NextLayer
  builders : ι → Builder K Pt

/-- Thread `i` makes its next call. -/
def buildStep (jobs : ι → Job K Pt Ct) (s : Builders K Pt ι) (i : ι) : Option (Builders K Pt ι) :=
  let b := s.builders i
  match b.calls with
  | [] => none
  | call :: calls =>
    match buildLayer (jobs i).env (jobs i).file call ⟨s.next, b.option⟩ with
    | .ok (layer, st) => some {
        next := st.next
        builders := Function.update s.builders i {
          calls, option := st.option, layers := b.layers ++ [layer], error := none
          own := carry st.next b.own call } }
    | .error e => some { s with
        builders := Function.update s.builders i { b with calls := [], error := some e } }

def startBuilder (job : Job K Pt Ct) : Builder K Pt where
  calls := job.calls
  option := job.option
  layers := []
  error := none
  own := .fresh

/-- The variables start with any values, those that earlier queries have left. -/
def buildSystem (jobs : ι → Job K Pt Ct) : System (Builders K Pt ι) ι where
  init s := ∀ i, s.builders i = startBuilder (jobs i)
  step := buildStep jobs

/-- The next call of thread `i` reads what the calls of this thread have written. -/
def ReadsOwn (s : Builders K Pt ι) (i : ι) : Prop :=
  ∀ call ∈ (s.builders i).calls.head?, Agrees (s.builders i).own s.next call

instance (s : Builders K Pt ι) (i : ι) : Decidable (ReadsOwn s i) :=
  inferInstanceAs (Decidable (∀ call ∈ (s.builders i).calls.head?, _))

/-! ## The invariant -/

theorem buildLayers_append {E : Env K Pt Ct} {file : H5File K} (calls calls' : List BuildCall)
    (st : BuildState K) :
    buildLayers E file (calls ++ calls') st = (do
      let (layers, st) ← buildLayers E file calls st
      let (layers', st) ← buildLayers E file calls' st
      return (layers ++ layers', st)) := by
  induction calls generalizing st with
  | nil =>
    simp only [List.nil_append, buildLayers, ok_bind]
    cases buildLayers E file calls' st <;> rfl
  | cons call calls ih =>
    rw [List.cons_append, buildLayers, buildLayers]
    cases buildLayer E file call st with
    | error e => rfl
    | ok p =>
      obtain ⟨layer, st1⟩ := p
      simp only [ok_bind, ih]
      cases buildLayers E file calls st1 with
      | error e => rfl
      | ok p =>
        obtain ⟨layers, st2⟩ := p
        simp only [ok_bind, pure_eq_ok]
        cases buildLayers E file calls' st2 <;> rfl

/-- What a thread has built is what it builds alone, up to the same call. -/
def BuilderInv (job : Job K Pt Ct) (b : Builder K Pt) : Prop :=
  match b.error with
  | none => ∃ made, job.calls = made ++ b.calls ∧
      buildLayers job.env job.file made ⟨.fresh, job.option⟩ = .ok (b.layers, ⟨b.own, b.option⟩)
  | some e => b.calls = [] ∧ job.build .fresh = .error e

theorem carry_carry (a b c : NextLayer) (call : BuildCall) :
    carry (carry a b call) c call = carry a c call := by
  cases call with
  | single layer => cases layer <;> rfl
  | _ => rfl

theorem agrees_refl (a : NextLayer) (call : BuildCall) : Agrees a a call := by
  cases call with
  | single layer => cases layer <;> first | exact ⟨rfl, rfl, rfl⟩ | exact fun _ => ⟨rfl, rfl, rfl⟩ | rfl | trivial
  | conv2DFusedBN info bn => exact fun _ => ⟨rfl, rfl, rfl⟩
  | denseFusedBN info bn => rfl

/-- A call that reads what the thread has written keeps the invariant. -/
theorem BuilderInv.step {job : Job K Pt Ct} {b : Builder K Pt} (h : BuilderInv job b)
    {call : BuildCall} {calls : List BuildCall} (hcalls : b.calls = call :: calls) {next : NextLayer}
    (hread : Agrees b.own next call) :
    (∀ layer st, buildLayer job.env job.file call ⟨next, b.option⟩ = .ok (layer, st) →
      BuilderInv job ⟨calls, st.option, b.layers ++ [layer], none, carry st.next b.own call⟩) ∧
    ∀ e, buildLayer job.env job.file call ⟨next, b.option⟩ = .error e →
      BuilderInv job { b with calls := [], error := some e } := by
  obtain ⟨bcalls, option, layers, error, own⟩ := b
  obtain rfl : bcalls = call :: calls := hcalls
  cases error with
  | some e => cases h.1
  | none =>
    obtain ⟨made, hmade, halone⟩ := h
    have hframe : buildLayer job.env job.file call ⟨next, option⟩ =
        onNext call next <$> buildLayer job.env job.file call ⟨own, option⟩ :=
      buildLayer_frame job.env job.file option hread
    have hself : buildLayer job.env job.file call ⟨own, option⟩ =
        onNext call own <$> buildLayer job.env job.file call ⟨own, option⟩ :=
      buildLayer_frame job.env job.file option (agrees_refl own call)
    show (∀ layer st, buildLayer job.env job.file call ⟨next, option⟩ = .ok (layer, st) → _) ∧
      ∀ e, buildLayer job.env job.file call ⟨next, option⟩ = .error e → _
    rw [hframe]
    cases hown : buildLayer job.env job.file call ⟨own, option⟩ with
    | error e =>
      refine ⟨fun layer st hok => (by cases hok), fun e' he => ?_⟩
      cases he
      refine ⟨rfl, ?_⟩
      show buildLayers job.env job.file job.calls ⟨.fresh, job.option⟩ = .error e
      rw [hmade, buildLayers_append]
      simp only [halone, ok_bind, buildLayers, hown, error_bind]
    | ok p =>
      obtain ⟨layer', st'⟩ := p
      refine ⟨fun layer st hok => ?_, fun e he => (by cases he)⟩
      cases hok
      rw [hown] at hself
      have hnext : carry st'.next own call = st'.next :=
        (congrArg (fun p => p.2.next) (Except.ok.inj hself)).symm
      refine ⟨made ++ [call], by simp [hmade], ?_⟩
      rw [buildLayers_append]
      simp only [halone, hown, ok_bind, buildLayers, pure_eq_ok, carry_carry, hnext]

theorem builderInv_reachable {jobs : ι → Job K Pt Ct} {s : Builders K Pt ι}
    (h : (buildSystem jobs).Reachable ReadsOwn s) (i : ι) : BuilderInv (jobs i) (s.builders i) := by
  refine h.invariant (I := fun s => ∀ i, BuilderInv (jobs i) (s.builders i)) ?_ ?_ i
  · intro s hs i
    rw [hs i]
    exact ⟨[], rfl, rfl⟩
  · intro s i s' hinv hread hstep
    simp only [buildSystem, buildStep] at hstep
    split at hstep
    · cases hstep
    · rename_i call calls hcalls
      obtain ⟨hok, herr⟩ := (hinv i).step hcalls (hread call (by rw [hcalls]; rfl))
      split at hstep
      · rename_i layer st hb
        cases hstep
        exact (Function.forall_update_iff _ fun j b => BuilderInv (jobs j) b).2
          ⟨hok layer st hb, fun j _ => hinv j⟩
      · rename_i e hb
        cases hstep
        exact (Function.forall_update_iff _ fun j b => BuilderInv (jobs j) b).2
          ⟨herr e hb, fun j _ => hinv j⟩

/-- In a run in which every call reads what its own thread has written, a thread that has finished
has the network, or the exception, that it gets alone in a fresh process. -/
theorem interleaved_build (jobs : ι → Job K Pt Ct) (s : Builders K Pt ι)
    (h : (buildSystem jobs).Reachable ReadsOwn s) (i : ι) (hdone : (s.builders i).calls = []) :
    match (s.builders i).error with
    | none => layersOf ((jobs i).build .fresh) = .ok (s.builders i).layers
    | some e => (jobs i).build .fresh = .error e := by
  have hinv := builderInv_reachable h i
  unfold BuilderInv at hinv
  cases herr : (s.builders i).error with
  | none =>
    rw [herr] at hinv
    obtain ⟨made, hmade, halone⟩ := hinv
    rw [hdone, List.append_nil] at hmade
    show layersOf (buildLayers _ _ (jobs i).calls _) = _
    rw [hmade, halone]
    rfl
  | some e =>
    rw [herr] at hinv
    exact hinv.2

section Sample

/-- Input and output extents, channels and units of a layer. -/
def layerShape (layer : Layer Pt) : List ℕ :=
  match layer with
  | .conv2D l => [l.inHeight, l.inWidth, l.inChannels, l.outHeight, l.outWidth, l.outChannels]
  | .averagePooling2D l =>
    [l.inHeight, l.inWidth, l.inChannels, l.outHeight, l.outWidth, l.outChannels]
  | .batchNormalization l => [l.plainWeights.length]
  | .flatten l => [l.inHeight, l.inWidth, l.inChannels, l.outUnits]
  | .dense l => [l.inUnits, l.outUnits]
  | .activation _ => []
  | .globalAveragePooling2D l => [l.inHeight, l.inWidth, l.inChannels, l.outUnits]

/-- Two queries: images of 4 × 4, and images of 2 × 2. -/
def twoJobs (i : Bool) : Job ℚ ℚ ℚ where
  env := rebuildEnv
  file := unitFile fun _ => 1
  layers :=
    if i then [unitConv "conv2d" (some (4, 4, 1)), squarePool "average_pooling2d" 2]
    else [unitConv "conv2d" (some (2, 2, 1)), .activation "activation" "square"]
  option := computeOption (Define.source Rat.sqrt) .noOpt .default "HCNN"

def twoBuilders : Builders ℚ ℚ Bool where
  next := .fresh
  builders i := startBuilder (twoJobs i)

/-- The calls of the two threads in turn: the activation between the two calls of the first thread
leaves the extents that its pooling reads. -/
theorem interleaved_build_sample : ∃ s, (buildSystem twoJobs).Reachable ReadsOwn s ∧
    match (s.builders true).error with
    | none => layersOf ((twoJobs true).build .fresh) = .ok (s.builders true).layers
    | some e => (twoJobs true).build .fresh = .error e := by
  have hcalls : ((buildSystem twoJobs).run ReadsOwn twoBuilders [false, true, false, true]).map
      (fun s => (s.builders true).calls) = some [] := by
    decide +kernel
  obtain ⟨s, hs, hdone⟩ := Option.map_eq_some_iff.1 hcalls
  have hreach : (buildSystem twoJobs).Reachable ReadsOwn s := (System.Reachable.init fun _ => rfl).run hs
  exact ⟨s, hreach, interleaved_build twoJobs s hreach true hdone⟩

/-- The second convolution between the calls of the first thread: its pooling gets 2 × 2 images. -/
theorem interleaved_build_differs :
    (∃ s, (buildSystem twoJobs).Reachable System.anyStep s ∧ (s.builders true).calls = [] ∧
      (s.builders true).layers.map layerShape = [[4, 4, 1, 4, 4, 1], [2, 2, 1, 1, 1, 1]]) ∧
    List.map layerShape <$> layersOf ((twoJobs true).build .fresh) =
      .ok [[4, 4, 1, 4, 4, 1], [4, 4, 1, 2, 2, 1]] := by
  have hrun : ((buildSystem twoJobs).run System.anyStep twoBuilders [true, false, true]).map
      (fun s => ((s.builders true).calls, (s.builders true).layers.map layerShape)) =
      some ([], [[4, 4, 1, 4, 4, 1], [2, 2, 1, 1, 1, 1]]) := by
    decide +kernel
  obtain ⟨s, hs, hshapes⟩ := Option.map_eq_some_iff.1 hrun
  exact ⟨⟨s, (System.Reachable.init fun _ => rfl).run hs, congrArg Prod.fst hshapes,
    congrArg Prod.snd hshapes⟩, by decide +kernel⟩

end Sample

end Cnn
