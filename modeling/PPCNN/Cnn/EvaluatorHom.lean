import PPCNN.Cnn.Network
import Mathlib.Algebra.Algebra.Pi

/-!
# Maps of ciphertexts (`network.cpp` and the layers)

`Evaluator.Hom ev ev'` is a map of ciphertexts that every operation of SEAL commutes with, errors
included. The program touches ciphertexts through these operations only, so building and predicting
commute with it (`buildAndPredict_hom`), whatever the layers, the option and the extents are.

`slotHom` is the projection to one slot. So the images of a batch do not see each other
(`buildAndPredict_slot`): slot `k` of the results is what the network gives for slot `k` of the
cells, and a batch fails exactly as each of its images does.
-/

set_option autoImplicit false

namespace Cnn

open Lib

variable {K Pt Ct Ct' : Type}

/-- A map of ciphertexts that the operations commute with. Both sides have the same plaintexts. -/
structure Evaluator.Hom (ev : Evaluator K Pt Ct) (ev' : Evaluator K Pt Ct') where
  toFun : Ct → Ct'
  float : ev'.float = ev.float
  encode : ev'.encode = ev.encode
  modSwitchPlain : ev'.modSwitchPlain = ev.modSwitchPlain
  modSwitch : ∀ x, ev'.modSwitch (toFun x) = toFun <$> ev.modSwitch x
  multiplyPlain : ∀ x p, ev'.multiplyPlain (toFun x) p = toFun <$> ev.multiplyPlain x p
  add : ∀ x y, ev'.add (toFun x) (toFun y) = toFun <$> ev.add x y
  addPlain : ∀ x p, ev'.addPlain (toFun x) p = toFun <$> ev.addPlain x p
  square : ∀ x, ev'.square (toFun x) = toFun <$> ev.square x
  relinearize : ∀ x, ev'.relinearize (toFun x) = toFun <$> ev.relinearize x
  rescale : ∀ x, ev'.rescale (toFun x) = toFun <$> ev.rescale x
  setScale : ∀ x, ev'.setScale (toFun x) = toFun (ev.setScale x)

/-! ## Containers -/

theorem readVector_map {α β : Type} (f : α → β) (v : List α) (i : ℕ) :
    readVector (v.map f) i = f <$> readVector v i := by
  simp only [readVector, List.getElem?_map]
  cases v[i]? <;> rfl

namespace Tensor3

variable {α β : Type}

theorem read_map (f : α → β) (t : Tensor3 α) (y x : ℤ) (c : ℕ) :
    (t.map f).read y x c = f <$> t.read y x c := by
  by_cases h : (0 ≤ y ∧ y.toNat < t.height) ∧ (0 ≤ x ∧ x.toNat < t.width) ∧ c < t.channels
  · have hread : t.read y x c = .ok (t.cell ⟨y.toNat, h.1.2⟩ ⟨x.toNat, h.2.1.2⟩ ⟨c, h.2.2⟩) :=
      dif_pos h
    rw [hread]
    exact dif_pos h
  · have hread : t.read y x c = .error .outOfRange := dif_neg h
    rw [hread]
    exact dif_neg h

theorem build_map (f : α → β) (height width channels : ℕ)
    (g : Fin height → Fin width → Fin channels → Except Error α) :
    build height width channels (fun h w c => f <$> g h w c) =
      map f <$> build height width channels g := by
  have hcells : (seqFin fun h => seqFin fun w => seqFin fun c => f <$> g h w c) =
      (fun cell h w c => f (cell h w c)) <$> seqFin fun h => seqFin fun w => seqFin fun c => g h w c := by
    simp only [seqFin_map _ fun _ => f, seqFin_map _ fun _ => fun (xs : Fin channels → α) i => f (xs i),
      seqFin_map _ fun _ => fun (xs : Fin width → Fin channels → α) i j => f (xs i j)]
  rw [build, build, hcells]
  cases seqFin fun h => seqFin fun w => seqFin fun c => g h w c <;> rfl

theorem mapM_map {γ δ : Type} {f : α → Except Error β} {f' : γ → Except Error δ} {φ : α → γ} {ψ : β → δ}
    (h : ∀ x, f' (φ x) = ψ <$> f x) (t : Tensor3 α) : (t.map φ).mapM f' = map ψ <$> t.mapM f := by
  rw [mapM, mapM, ← build_map]
  exact congrArg (build t.height t.width t.channels)
    (funext fun r => funext fun c => funext fun ch => h (t.cell r c ch))

end Tensor3

/-- The loop of a `forward` over the units of a vector. -/
theorem seqFin_units {α β γ δ : Type} {f : ℕ → α → Except Error β} {f' : ℕ → γ → Except Error δ}
    {φ : α → γ} {ψ : β → δ} (h : ∀ i x, f' i (φ x) = ψ <$> f i x) (v : List α) :
    (do return List.ofFn (← seqFin fun u : Fin (v.map φ).length => f' u (getElem (v.map φ) u u.isLt)) :
      Except Error (List δ)) =
      List.map ψ <$> (do return List.ofFn (← seqFin fun u : Fin v.length => f u (getElem v u u.isLt))) := by
  have hcast : ∀ {n : ℕ} (hn : n = v.length),
      (do return List.ofFn (← seqFin fun u : Fin n => ψ <$> f u v[u]) : Except Error (List δ)) =
        List.map ψ <$> (do return List.ofFn (← seqFin fun u : Fin v.length => f u v[u])) := by
    rintro n rfl
    rw [seqFin_map _ fun _ => ψ]
    cases seqFin fun u : Fin v.length => f u v[u] with
    | error e => rfl
    | ok g => exact congrArg Except.ok List.map_ofFn.symm
  rw [← hcast (List.length_map φ)]
  simp only [Fin.getElem_fin, List.getElem_map, h]

/-! ## Steps of a computation -/

namespace Evaluator.Hom

/-- A computation on the image of a result, in a `do` block. -/
theorem map_bind {α α' β β' : Type} {φ : α → α'} {ψ : β → β'} {x : Except Error α}
    {f : α → Except Error β} {f' : α' → Except Error β'} (h : ∀ a, f' (φ a) = ψ <$> f a) :
    (φ <$> x >>= f') = ψ <$> (x >>= f) := by
  cases x with
  | error e => rfl
  | ok a => exact h a

theorem bind_map {α β β' : Type} {ψ : β → β'} {x : Except Error α} {f : α → Except Error β}
    {f' : α → Except Error β'} (h : ∀ a, f' a = ψ <$> f a) : (x >>= f') = ψ <$> (x >>= f) := by
  cases x with
  | error e => rfl
  | ok a => exact h a

variable {ev : Evaluator K Pt Ct} {ev' : Evaluator K Pt Ct'} (φ : Hom ev ev')

theorem assigned (out : Option Ct) :
    Evaluator.assigned (out.map φ.toFun) = φ.toFun <$> Evaluator.assigned out := by
  cases out <;> rfl

theorem assigned_tensor (out : Option (Tensor3 Ct)) :
    Evaluator.assigned (out.map (Tensor3.map φ.toFun)) =
      Tensor3.map φ.toFun <$> Evaluator.assigned out := by
  cases out <;> rfl

theorem assignOrAdd (first : Bool) (out : Option Ct) (x : Ct) :
    ev'.assignOrAdd first (out.map φ.toFun) (φ.toFun x) =
      Option.map φ.toFun <$> ev.assignOrAdd first out x := by
  cases first with
  | true => rfl
  | false =>
    cases out with
    | none => rfl
    | some y =>
      show (ev'.add (φ.toFun y) (φ.toFun x) >>= fun z => .ok (some z)) =
        Option.map φ.toFun <$> (ev.add y x >>= fun z => .ok (some z))
      rw [φ.add]
      exact map_bind fun z => rfl

/-! ## Layers -/

theorem finishLinear (out : Option Ct) (plainBias : Pt) :
    Cnn.finishLinear ev' (out.map φ.toFun) plainBias = φ.toFun <$> Cnn.finishLinear ev out plainBias := by
  rw [Cnn.finishLinear, φ.assigned]
  refine map_bind fun x => ?_
  rw [φ.rescale]
  refine map_bind fun y => ?_
  rw [φ.setScale, φ.addPlain]

theorem conv2D_tap (A : IntArith) (l : Conv2D Pt) (input : Tensor3 Ct) (targetTop targetLeft : ℤ)
    (oc : Fin l.filterSize) (acc : ℕ × Option Ct) (p : Fin l.filterHeight × Fin l.filterWidth) :
    l.tap ev' A (input.map φ.toFun) targetTop targetLeft oc (acc.1, acc.2.map φ.toFun) p =
      (fun acc => (acc.1, acc.2.map φ.toFun)) <$> l.tap ev A input targetTop targetLeft oc acc p := by
  unfold Conv2D.tap
  dsimp only
  split
  · rfl
  · rw [@foldlM_map _ _ _ _ _ _ (Option.map φ.toFun) ?_]
    · exact map_bind fun out => rfl
    · intro out ic
      rw [Tensor3.read_map]
      refine map_bind fun x => ?_
      rw [φ.multiplyPlain]
      exact map_bind fun y => φ.assignOrAdd _ out y

theorem conv2D_forward (A : IntArith) (l : Conv2D Pt) (input : Tensor3 Ct) :
    l.forward ev' A (input.map φ.toFun) = Tensor3.map φ.toFun <$> l.forward ev A input := by
  rw [Conv2D.forward, Conv2D.forward, ← Tensor3.build_map]
  refine congrArg (Tensor3.build l.outHeight l.outWidth l.filterSize)
    (funext fun oh => funext fun ow => funext fun oc => ?_)
  have hloop := @foldlM_map _ _ _ _ _ _ (fun acc : ℕ × Option Ct => (acc.1, acc.2.map φ.toFun))
    (φ.conv2D_tap A l input (A.int ((oh : ℕ) * l.strideHeight - l.padTop))
      (A.int ((ow : ℕ) * l.strideWidth - l.padLeft)) oc)
    (windowTaps l.filterHeight l.filterWidth) (0, none)
  refine (congrArg (· >>= _) hloop).trans (map_bind fun acc => ?_)
  exact φ.finishLinear acc.2 (l.plainBiases oc)

theorem averagePooling2D_tap (A : IntArith) (l : AveragePooling2D Pt) (input : Tensor3 Ct)
    (targetTop targetLeft : ℤ) (oc : ℕ) (out : Option Ct) (p : Fin l.poolHeight × Fin l.poolWidth) :
    l.tap ev' A (input.map φ.toFun) targetTop targetLeft oc (out.map φ.toFun) p =
      Option.map φ.toFun <$> l.tap ev A input targetTop targetLeft oc out p := by
  unfold AveragePooling2D.tap
  dsimp only
  split
  · rfl
  · rw [Tensor3.read_map]
    exact map_bind fun x => φ.assignOrAdd _ out x

theorem averagePooling2D_forward (A : IntArith) (l : AveragePooling2D Pt) (option : OptOption K)
    (input : Tensor3 Ct) :
    l.forward ev' A option (input.map φ.toFun) = Tensor3.map φ.toFun <$> l.forward ev A option input := by
  rw [AveragePooling2D.forward, AveragePooling2D.forward, ← Tensor3.build_map]
  refine congrArg (Tensor3.build l.outHeight l.outWidth l.inChannels)
    (funext fun oh => funext fun ow => funext fun oc => ?_)
  have hloop := @foldlM_map _ _ _ _ _ _ (Option.map φ.toFun)
    (φ.averagePooling2D_tap A l input (A.int ((oh : ℕ) * l.strideHeight - l.padTop))
      (A.int ((ow : ℕ) * l.strideWidth - l.padLeft)) oc)
    (windowTaps l.poolHeight l.poolWidth) none
  refine (congrArg (· >>= _) hloop).trans (map_bind fun out => ?_)
  rw [φ.assigned]
  split
  · rfl
  · refine map_bind fun x => bind_map fun p => ?_
    rw [φ.multiplyPlain]
    exact map_bind fun y => φ.rescale y

theorem batchNormalization_apply (l : BatchNormalization Pt) (c : ℕ) (x : Ct) :
    l.apply ev' c (φ.toFun x) = φ.toFun <$> l.apply ev c x := by
  refine bind_map fun p => ?_
  rw [φ.multiplyPlain]
  refine map_bind fun y => ?_
  rw [φ.rescale]
  refine map_bind fun z => bind_map fun b => ?_
  rw [φ.setScale, φ.addPlain]

theorem batchNormalization_forward3D (l : BatchNormalization Pt) (input : Tensor3 Ct) :
    l.forward3D ev' (input.map φ.toFun) = Tensor3.map φ.toFun <$> l.forward3D ev input := by
  rw [BatchNormalization.forward3D, BatchNormalization.forward3D, ← Tensor3.build_map]
  exact congrArg (Tensor3.build input.height input.width input.channels)
    (funext fun h => funext fun w => funext fun c => φ.batchNormalization_apply l c (input.cell h w c))

theorem batchNormalization_forwardUnits (l : BatchNormalization Pt) (input : List Ct) :
    l.forwardUnits ev' (input.map φ.toFun) = List.map φ.toFun <$> l.forwardUnits ev input :=
  seqFin_units (φ.batchNormalization_apply l) input

theorem flatten_flatten (l : Flatten) (input : Tensor3 Ct) :
    l.flatten (input.map φ.toFun) = List.map φ.toFun <$> l.flatten input := by
  rw [Flatten.flatten, Flatten.flatten]
  simp only [Tensor3.read_map, Tensor3.build_map]
  exact map_bind fun cells => congrArg Except.ok (cells.toUnits_map φ.toFun)

/-- The computation of each unit of a layer, and the vector of them. -/
theorem ofFn_seqFin {n : ℕ} {f : Fin n → Except Error Ct} {f' : Fin n → Except Error Ct'}
    (h : ∀ i, f' i = φ.toFun <$> f i) :
    (do return List.ofFn (← seqFin f') : Except Error (List Ct')) =
      List.map φ.toFun <$> (do return List.ofFn (← seqFin f)) := by
  rw [funext h, seqFin_map f fun _ => φ.toFun]
  exact map_bind fun g => congrArg Except.ok List.map_ofFn.symm

theorem dense_forward (l : Dense Pt) (input : List Ct) :
    l.forward ev' (input.map φ.toFun) = List.map φ.toFun <$> l.forward ev input := by
  refine φ.ofFn_seqFin fun ou => ?_
  rw [← Option.map_none φ.toFun, @foldlM_map _ _ _ _ _ _ (Option.map φ.toFun) ?_]
  · exact map_bind fun out => φ.finishLinear out (l.plainBiases ou)
  · intro out iu
    rw [readVector_map]
    refine map_bind fun x => ?_
    rw [φ.multiplyPlain]
    exact map_bind fun y => φ.assignOrAdd _ out y

theorem squareRelin (x : Ct) :
    Activation.squareRelin ev' (φ.toFun x) = φ.toFun <$> Activation.squareRelin ev x := by
  rw [Activation.squareRelin, φ.square]
  exact map_bind fun y => φ.relinearize y

theorem activation_square (x : Ct) :
    Activation.square ev' (φ.toFun x) = φ.toFun <$> Activation.square ev x := by
  rw [Activation.square, φ.squareRelin]
  exact map_bind fun y => φ.rescale y

/-- The sum of two terms that are scaled alike, with a third, and what follows. -/
theorem polynomial (a b c : Ct) (last : Except Error Pt) :
    (do
      let y ← ev'.add (ev'.setScale (φ.toFun a)) (ev'.setScale (φ.toFun b))
      let y ← ev'.add y (ev'.setScale (φ.toFun c))
      let y ← ev'.rescale y
      ev'.addPlain (ev'.setScale y) (← last)) =
    φ.toFun <$> (do
      let y ← ev.add (ev.setScale a) (ev.setScale b)
      let y ← ev.add y (ev.setScale c)
      let y ← ev.rescale y
      ev.addPlain (ev.setScale y) (← last)) := by
  rw [φ.setScale, φ.setScale, φ.setScale, φ.add]
  refine map_bind fun y => ?_
  rw [φ.add]
  refine map_bind fun y => ?_
  rw [φ.rescale]
  refine map_bind fun y => bind_map fun d => ?_
  rw [φ.setScale, φ.addPlain]

theorem swishDeg4 (l : Activation Pt) (x : Ct) :
    l.swishDeg4 ev' (φ.toFun x) = φ.toFun <$> l.swishDeg4 ev x := by
  rw [Activation.swishDeg4, Activation.swishDeg4, φ.squareRelin]
  refine map_bind fun y => ?_
  rw [φ.rescale]
  refine map_bind fun x2 => ?_
  rw [φ.squareRelin]
  refine map_bind fun y => ?_
  rw [φ.rescale]
  refine map_bind fun x4 => ?_
  rw [φ.modSwitch]
  refine map_bind fun x2 => ?_
  rw [φ.modSwitch]
  refine map_bind fun x => ?_
  rw [φ.modSwitch]
  refine map_bind fun x => bind_map fun a => ?_
  rw [φ.multiplyPlain]
  refine map_bind fun ax4 => bind_map fun b => ?_
  rw [φ.multiplyPlain]
  refine map_bind fun bx2 => bind_map fun c => ?_
  rw [φ.multiplyPlain]
  exact map_bind fun cx => φ.polynomial ax4 bx2 cx _

theorem swishDeg4Opt (l : Activation Pt) (x : Ct) :
    l.swishDeg4Opt ev' (φ.toFun x) = φ.toFun <$> l.swishDeg4Opt ev x := by
  rw [Activation.swishDeg4Opt, Activation.swishDeg4Opt, φ.squareRelin]
  refine map_bind fun y => ?_
  rw [φ.rescale]
  refine map_bind fun x2 => ?_
  rw [φ.squareRelin]
  refine map_bind fun x4 => ?_
  rw [φ.modSwitch]
  refine map_bind fun x => bind_map fun b => ?_
  rw [φ.multiplyPlain]
  refine map_bind fun bx2 => bind_map fun c => ?_
  rw [φ.multiplyPlain]
  exact map_bind fun cx => φ.polynomial x4 bx2 cx _

theorem activate (l : Activation Pt) (option : OptOption K) (x : Ct) :
    l.activate ev' option (φ.toFun x) = φ.toFun <$> l.activate ev option x := by
  unfold Activation.activate
  split
  · exact φ.activation_square x
  · split
    · exact φ.swishDeg4Opt l x
    · exact φ.swishDeg4 l x

theorem globalAveragePooling2D_flatten (l : GlobalAveragePooling2D) (input : Tensor3 Ct) :
    l.flatten ev' (input.map φ.toFun) = List.map φ.toFun <$> l.flatten ev input := by
  refine φ.ofFn_seqFin fun ou => ?_
  rw [Tensor3.read_map]
  refine map_bind fun first => foldlM_map (fun out p => ?_) _ first
  split
  · rw [Tensor3.read_map]
    exact map_bind fun x => φ.add out x
  · rfl

/-! ## Networks -/

/-- The variables of `predict` under a map of the ciphertexts. -/
def predictState (s : PredictState Ct) : PredictState Ct' where
  encrypted3d := s.encrypted3d.map (Tensor3.map φ.toFun)
  encryptedUnits := s.encryptedUnits.map φ.toFun
  inputDim := s.inputDim

theorem predictLayer (A : IntArith) (option : OptOption K) (layer : Layer Pt) (s : PredictState Ct) :
    Cnn.predictLayer ev' A option layer (φ.predictState s) =
      φ.predictState <$> Cnn.predictLayer ev A option layer s := by
  have himage := φ.assigned_tensor s.encrypted3d
  cases layer with
  | conv2D l =>
    refine (congrArg (· >>= _) himage).trans (map_bind fun t => ?_)
    rw [φ.conv2D_forward]
    exact map_bind fun t => rfl
  | averagePooling2D l =>
    refine (congrArg (· >>= _) himage).trans (map_bind fun t => ?_)
    rw [φ.averagePooling2D_forward]
    exact map_bind fun t => rfl
  | activation l =>
    by_cases hdim : s.inputDim = 1
    · have hmapped : (φ.predictState s).inputDim = 1 := hdim
      rw [Cnn.predictLayer, Cnn.predictLayer, if_pos hdim, if_pos hmapped, predictState,
        Activation.forwardUnits, seqFin_units fun _ => φ.activate l option]
      exact map_bind fun units => rfl
    · have hmapped : ¬(φ.predictState s).inputDim = 1 := hdim
      rw [Cnn.predictLayer, Cnn.predictLayer, if_neg hdim, if_neg hmapped, predictState, himage]
      refine map_bind fun t => ?_
      rw [Activation.forward3D, Tensor3.mapM_map (φ.activate l option)]
      exact map_bind fun t => rfl
  | batchNormalization l =>
    by_cases hdim : s.inputDim = 1
    · have hmapped : (φ.predictState s).inputDim = 1 := hdim
      rw [Cnn.predictLayer, Cnn.predictLayer, if_pos hdim, if_pos hmapped, predictState,
        φ.batchNormalization_forwardUnits]
      exact map_bind fun units => rfl
    · have hmapped : ¬(φ.predictState s).inputDim = 1 := hdim
      rw [Cnn.predictLayer, Cnn.predictLayer, if_neg hdim, if_neg hmapped, predictState, himage]
      refine map_bind fun t => ?_
      rw [φ.batchNormalization_forward3D]
      exact map_bind fun t => rfl
  | flatten l =>
    refine (congrArg (· >>= _) himage).trans (map_bind fun t => ?_)
    rw [φ.flatten_flatten]
    exact map_bind fun units => rfl
  | globalAveragePooling2D l =>
    refine (congrArg (· >>= _) himage).trans (map_bind fun t => ?_)
    rw [φ.globalAveragePooling2D_flatten]
    exact map_bind fun units => rfl
  | dense l =>
    simp only [Cnn.predictLayer, predictState, φ.dense_forward]
    exact map_bind fun units => rfl

theorem predictLayers (A : IntArith) (option : OptOption K) (layers : List (Layer Pt))
    (s : PredictState Ct) :
    Cnn.predictLayers ev' A option layers (φ.predictState s) =
      φ.predictState <$> Cnn.predictLayers ev A option layers s := by
  induction layers generalizing s with
  | nil => rfl
  | cons layer layers ih =>
    rw [Cnn.predictLayers, φ.predictLayer]
    exact map_bind fun s' => ih s'

theorem predict (A : IntArith) (option : OptOption K) (layers : List (Layer Pt)) (input : Tensor3 Ct) :
    Cnn.predict ev' A option layers (input.map φ.toFun) =
      List.map φ.toFun <$> Cnn.predict ev A option layers input := by
  have hlayers := φ.predictLayers A option layers ⟨some input, [], 3⟩
  exact (congrArg (· >>= _) hlayers).trans (map_bind fun s => rfl)

include φ in
/-- The builders reach SEAL through `encode` and `mod_switch_to_next_inplace` of plaintexts. -/
theorem encodeAt (lv : ℕ) (w : K) : ev'.encodeAt lv w = ev.encodeAt lv w := by
  have htimes : ∀ n p, ev'.modSwitchPlainTimes n p = ev.modSwitchPlainTimes n p := by
    intro n
    induction n with
    | zero => exact fun p => rfl
    | succ n ih =>
      intro p
      simp only [Evaluator.modSwitchPlainTimes, φ.modSwitchPlain, ih]
  simp only [Evaluator.encodeAt, φ.encode, htimes]

variable [Field K] [LinearOrder K]

include φ in
theorem buildLayer (A : IntArith) (c : Define K) (file : H5File K) (call : BuildCall) (st : BuildState K) :
    Cnn.buildLayer ⟨ev', A, c⟩ file call st = Cnn.buildLayer ⟨ev, A, c⟩ file call st := by
  cases call with
  | single layer =>
    cases layer with
    | conv2D info => simp only [Cnn.buildLayer, buildSingle, buildConv2D, φ.encodeAt, φ.float]
    | averagePooling2D info =>
      simp only [Cnn.buildLayer, buildSingle, buildAveragePooling2D, poolMulFactor, φ.encodeAt, φ.float]
    | batchNormalization name =>
      simp only [Cnn.buildLayer, buildSingle, buildBatchNormalization, φ.encodeAt, φ.float]
    | dense info => simp only [Cnn.buildLayer, buildSingle, buildDense, φ.encodeAt, φ.float]
    | activation name activation =>
      simp only [Cnn.buildLayer, buildSingle, buildActivation, Activation.new, Activation.newSwish,
        φ.encodeAt, φ.modSwitchPlain]
    | globalAveragePooling2D name =>
      simp only [Cnn.buildLayer, buildSingle, buildGlobalAveragePooling2D, φ.float]
    | _ => rfl
  | conv2DFusedBN info bn => simp only [Cnn.buildLayer, buildConv2DFusedBN, φ.encodeAt, φ.float]
  | denseFusedBN info bn => simp only [Cnn.buildLayer, buildDenseFusedBN, φ.encodeAt, φ.float]

include φ in
theorem buildNetwork (A : IntArith) (c : Define K) (file : H5File K) (layers : List LayerInfo)
    (next : NextLayer) (option : OptOption K) :
    Cnn.buildNetwork ⟨ev', A, c⟩ file layers next option =
      Cnn.buildNetwork ⟨ev, A, c⟩ file layers next option := by
  have hcalls : ∀ calls st,
      buildLayers ⟨ev', A, c⟩ file calls st = buildLayers ⟨ev, A, c⟩ file calls st := by
    intro calls
    induction calls with
    | nil => exact fun st => rfl
    | cons call calls ih =>
      intro st
      rw [buildLayers, buildLayers, φ.buildLayer]
      exact bind_congr fun built => by simp only [ih]
  exact hcalls _ _

theorem buildAndPredict (A : IntArith) (c : Define K) (file : H5File K) (layers : List LayerInfo)
    (next : NextLayer) (option : OptOption K) (input : Tensor3 Ct) :
    Cnn.buildAndPredict ⟨ev', A, c⟩ file layers next option (input.map φ.toFun) =
      List.map φ.toFun <$> Cnn.buildAndPredict ⟨ev, A, c⟩ file layers next option input := by
  rw [Cnn.buildAndPredict, Cnn.buildAndPredict, φ.buildNetwork]
  exact bind_map fun built => φ.predict A built.2.option built.1 input

end Evaluator.Hom

/-! ## Slots -/

section Slots

variable [Field K] {V W : Type} [CommRing V] [Algebra K V] [CommRing W] [Algebra K W]

/-- The values of a ciphertext under a map of the values. -/
def Leveled.map (f : V → W) (x : Leveled K V) : Leveled K W := ⟨x.level, x.scale, f x.value⟩

/-- Exact arithmetic commutes with maps that respect the operations and the constants. -/
def exactHom (f : V →ₐ[K] W) : (Evaluator.exact (K := K) V).Hom (.exact W) where
  toFun := f
  float := rfl
  encode := rfl
  modSwitchPlain := rfl
  modSwitch _ := rfl
  multiplyPlain x p := congrArg Except.ok (map_smul f p x).symm
  add x y := congrArg Except.ok (map_add f x y).symm
  addPlain x p := congrArg Except.ok (by rw [map_add, f.commutes])
  square x := congrArg Except.ok (map_mul f x x).symm
  relinearize _ := rfl
  rescale _ := rfl
  setScale _ := rfl

variable [DecidableEq K]

/-- So does arithmetic with levels: they do not depend on the values. -/
def leveledHom (f : V →ₐ[K] W) (ch : Chain K) : (Evaluator.leveled V ch).Hom (.leveled W ch) where
  toFun := Leveled.map f
  float := rfl
  encode := rfl
  modSwitchPlain := rfl
  modSwitch x := by simp only [Evaluator.leveled, Leveled.map]; split <;> rfl
  multiplyPlain x p := by
    simp only [Evaluator.leveled, Leveled.map]
    split
    · rw [map_ok, Leveled.map, map_smul]
    · rfl
  add x y := by
    simp only [Evaluator.leveled, Leveled.map]
    split
    · split
      · rw [map_ok, Leveled.map, map_add]
      · rfl
    · rfl
  addPlain x p := by
    simp only [Evaluator.leveled, Leveled.map]
    split
    · split
      · rw [map_ok, Leveled.map, map_add, f.commutes]
      · rfl
    · rfl
  square x := by simp only [Evaluator.leveled, Leveled.map, map_ok, map_mul]
  relinearize x := rfl
  rescale x := by simp only [Evaluator.leveled, Leveled.map]; split <;> rfl
  setScale x := rfl

/-- A slot of a ciphertext. -/
def slotHom (slotCount : ℕ) (k : Fin slotCount) : (Fin slotCount → K) →ₐ[K] K :=
  Pi.evalAlgHom K (fun _ => K) k

end Slots

/-- Every slot of a batch is computed as if it were alone: the same values, levels and scales, and
the same error where the batch fails. -/
theorem buildAndPredict_slot [Field K] [LinearOrder K] (ch : Chain K) (A : IntArith) (c : Define K)
    (file : H5File K) (layers : List LayerInfo) (next : NextLayer) (option : OptOption K)
    (slotCount : ℕ) (input : Tensor3 (Leveled K (Fin slotCount → K))) (k : Fin slotCount) :
    buildAndPredict ⟨.leveled K ch, A, c⟩ file layers next option
        (input.map (Leveled.map fun slots => slots k)) =
      List.map (Leveled.map fun slots => slots k) <$>
        buildAndPredict ⟨.leveled (Fin slotCount → K) ch, A, c⟩ file layers next option input :=
  (leveledHom (slotHom slotCount k) ch).buildAndPredict A c file layers next option input

end Cnn
