import PPCNN.Cnn.EvaluatorHom
import PPCNN.Cnn.QueryData
import PPCNN.Cnn.Architecture

/-!
# The computation of a query (`ppcnn_server_calcthread.cpp`)

`compute` as a whole: the network of the model files, the tensor of the query, and the prediction on it.
A cell of the tensor may be a ciphertext that has not been assigned, which SEAL refuses to work on; so the
network runs on cells that may fail (`Evaluator.lift`).

`compute_represents`: an implementation of SEAL that computes slot values computes those of the exact
network, slot by slot (`compute_slots`).
-/

set_option autoImplicit false

namespace Cnn

open Lib Keras Proof

variable {K Pt Ct V : Type}

/-- The operations on ciphertexts that may be unassigned. -/
def Evaluator.lift (ev : Evaluator K Pt Ct) : Evaluator K Pt (Except Error Ct) where
  float := ev.float
  encode := ev.encode
  modSwitchPlain := ev.modSwitchPlain
  modSwitch x := do return .ok (← ev.modSwitch (← x))
  multiplyPlain x p := do return .ok (← ev.multiplyPlain (← x) p)
  add x y := do return .ok (← ev.add (← x) (← y))
  addPlain x p := do return .ok (← ev.addPlain (← x) p)
  square x := do return .ok (← ev.square (← x))
  relinearize x := do return .ok (← ev.relinearize (← x))
  rescale x := do return .ok (← ev.rescale (← x))
  setScale x := ev.setScale <$> x

/-- On assigned ciphertexts they are the operations of SEAL. -/
def liftHom (ev : Evaluator K Pt Ct) : ev.Hom ev.lift where
  toFun := .ok
  float := rfl
  encode := rfl
  modSwitchPlain := rfl
  modSwitch _ := rfl
  multiplyPlain _ _ := rfl
  add _ _ := rfl
  addPlain _ _ := rfl
  square _ := rfl
  relinearize _ := rfl
  rescale _ := rfl
  setScale _ := rfl

variable [Field K] [LinearOrder K]

/-- `CalcThread::Impl::compute`, to its `encrypted_results`. -/
def compute (E : Env K Pt Ct) (file : H5File K) (layers : List LayerInfo) (next : NextLayer)
    (option : OptOption K) (rows cols channels : ℕ) (ctxts : List Ct) :
    Except Error (List (Except Error Ct)) := do
  let (network, st) ← buildNetwork E file layers next option
  let storage ← copyCtxts E.arith rows cols channels ctxts
  predict E.ev.lift E.arith st.option network (inputTensor rows cols channels storage)

/-- The ciphertexts of a tensor in row-major order are computed as this tensor. -/
theorem compute_toUnits (E : Env K Pt Ct) (file : H5File K) (layers : List LayerInfo) (next : NextLayer)
    (option : OptOption K) {t : Tensor3 Ct}
    (hsize : (E.arith.size (t.height * t.width * t.channels)).toNat = t.toUnits.length) :
    compute E file layers next option t.height t.width t.channels t.toUnits =
      List.map .ok <$> buildAndPredict E file layers next option t := by
  rw [compute, buildAndPredict]
  refine Evaluator.Hom.bind_map ?_
  rintro ⟨network, st⟩
  simp only [copyCtxts_eq hsize, ok_bind, inputTensor_toUnits]
  exact (liftHom E.ev).predict E.arith st.option network t

/-! ## Ciphertexts that represent slots -/

variable [CommRing V] [Algebra K V] {ev : Evaluator K Pt Ct} {I : Interp ev V} {c : Define K}
  {file : H5File K} {layers : List LayerInfo} {h w n units : ℕ} {option : OptOption K}

/-- An implementation that represents values computes the ones that exact arithmetic computes. -/
theorem buildAndPredict_represents (hm : IsModel layers h w n units) {network : List (Layer Pt)}
    {st : BuildState K}
    (hbuild : buildNetwork ⟨ev, .unbounded, c⟩ file layers .fresh option = .ok (network, st))
    (hdisp : AllDispatch option layers) (hlevels : ∀ i < st.option.consumedLevel, I.canDrop i)
    {x : Tensor3 Ct} {t : Tensor3 V} (ht : (t.height, t.width, t.channels) = (h, w, n)) {σ : K}
    (hx : I.RepImage option.consumedLevel σ x t) {values : List V}
    (hexact : buildAndPredict ⟨.exact V, .unbounded, c⟩ file layers .fresh option t = .ok values) :
    ∃ results σ', buildAndPredict ⟨ev, .unbounded, c⟩ file layers .fresh option x = .ok results ∧
      I.RepUnits st.option.consumedLevel σ' results values := by
  obtain ⟨⟨network', st'⟩, hbuild', hpredict'⟩ := bind_eq_ok.1 hexact
  obtain ⟨-, y, u, σ', hy, hu, hrep⟩ := predict_stored hm hbuild ht hx hdisp hlevels
  obtain ⟨-, y', u', τ, hy', hu', hrep'⟩ := predict_stored (I := exactInterp K V) hm hbuild' ht
    (repImage_exact t _ 1) hdisp fun _ _ => trivial
  -- both networks hold the values of the same stored layers
  have hvalues : u = values := by
    rw [Value.units.inj (hu.symm.trans hu'), ← repUnits_exact hrep']
    exact Except.ok.inj (hy'.symm.trans hpredict')
  exact ⟨y, σ', (bind_of_ok hbuild _).trans hy, hvalues ▸ hrep⟩

/-- The values of each slot are what the network computes on that slot of the cells. -/
theorem buildAndPredict_slots {slotCount : ℕ} (layers : List LayerInfo) (option : OptOption K)
    (A : IntArith) {t : Tensor3 (Fin slotCount → K)} {perSlot : Fin slotCount → List K}
    (hslot : ∀ k, buildAndPredict ⟨.exact K, A, c⟩ file layers .fresh option (t.map fun v => v k) =
      .ok (perSlot k)) (hpos : 0 < slotCount) :
    ∃ values, buildAndPredict ⟨.exact (Fin slotCount → K), A, c⟩ file layers .fresh option t = .ok values ∧
      ∀ k, values.map (fun v => v k) = perSlot k := by
  have hmap : ∀ k, .ok (perSlot k) = List.map (fun v => v k) <$>
      buildAndPredict ⟨.exact (Fin slotCount → K), A, c⟩ file layers .fresh option t := fun k =>
    (hslot k).symm.trans
      ((exactHom (slotHom slotCount k)).buildAndPredict A c file layers .fresh option t)
  cases hvalues : buildAndPredict ⟨.exact (Fin slotCount → K), A, c⟩ file layers .fresh option t with
  | error e =>
    have hfail := hmap ⟨0, hpos⟩
    rw [hvalues] at hfail
    cases hfail
  | ok values =>
    refine ⟨values, rfl, fun k => ?_⟩
    have hk := hmap k
    rw [hvalues] at hk
    exact (Except.ok.inj hk).symm

end Cnn
