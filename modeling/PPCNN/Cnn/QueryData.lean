import PPCNN.Cnn.InputTensor
import PPCNN.Cnn.Proof.Complete

/-!
# The data of a query (`ppcnn_server_calcthread.cpp`)

`compute` builds the network from the model files, allocates a tensor of the extents that the query gives,
and copies the ciphertexts of the query into it. It compares none of the three. So a query is computed
on its own cells only if it fits the model to begin with (`query_fits_iff`).
-/

set_option autoImplicit false

namespace Cnn

open Lib Keras Proof

variable {K Pt Ct : Type}

/-! ## What a convolution reads -/

/-- The cells that `Conv2D::forward` reads. -/
def Conv2D.Reads (A : IntArith) (l : Conv2D Pt) (y x : ℤ) (ic : ℕ) : Prop :=
  (0 < l.filterSize ∧ ic < l.inChannels) ∧ isOutOfRangeInput l.inHeight l.inWidth x y = false ∧
  (∃ oh < l.outHeight, ∃ i < l.filterHeight,
    y = A.int (A.int ((oh : ℤ) * l.strideHeight - l.padTop) + i)) ∧
  ∃ ow < l.outWidth, ∃ j < l.filterWidth, x = A.int (A.int ((ow : ℤ) * l.strideWidth - l.padLeft) + j)

section Forward

variable {ev : Evaluator K Pt Ct} {A : IntArith} {l : Conv2D Pt} {input input' : Tensor3 Ct}

/-- It reads no others. -/
theorem conv2D_forward_congr
    (h : ∀ y x ic, l.Reads A y x ic → input.read y x ic = input'.read y x ic) :
    l.forward ev A input = l.forward ev A input' := by
  refine congrArg (Tensor3.build l.outHeight l.outWidth l.filterSize)
    (funext fun oh => funext fun ow => funext fun oc => ?_)
  have htap : l.tap ev A input (A.int (oh * l.strideHeight - l.padTop))
      (A.int (ow * l.strideWidth - l.padLeft)) oc =
      l.tap ev A input' (A.int (oh * l.strideHeight - l.padTop))
        (A.int (ow * l.strideWidth - l.padLeft)) oc := by
    funext acc p
    unfold Conv2D.tap
    dsimp only
    split
    · rfl
    · rename_i hin
      have hread := fun ic : Fin l.inChannels => h _ _ ic
        ⟨⟨oc.pos, ic.isLt⟩, Bool.not_eq_true _ ▸ hin, ⟨oh, oh.isLt, p.1, p.1.isLt, rfl⟩,
          ow, ow.isLt, p.2, p.2.isLt, rfl⟩
      simp only [hread]
  exact congrArg (fun tap => (windowTaps l.filterHeight l.filterWidth).foldlM tap (0, none) >>=
    fun acc => finishLinear ev acc.2 (l.plainBiases oc)) htap

/-- It reads each of them. -/
theorem conv2D_forward_reads {t : Tensor3 Ct} (ht : l.forward ev A input = .ok t) {y x : ℤ} {ic : ℕ}
    (h : l.Reads A y x ic) : ∃ ct, input.read y x ic = .ok ct := by
  obtain ⟨⟨hf, hic⟩, hin, ⟨oh, hoh, i, hi, rfl⟩, ow, how, j, hj, rfl⟩ := h
  obtain ⟨cell, hcell, -⟩ := bind_eq_ok.1 ht
  have hcell := seqFin_eq_ok.1 (seqFin_eq_ok.1 (seqFin_eq_ok.1 hcell ⟨oh, hoh⟩) ⟨ow, how⟩) ⟨0, hf⟩
  obtain ⟨acc, hfold, -⟩ := bind_eq_ok.1 hcell
  have hmem : ((⟨i, hi⟩, ⟨j, hj⟩) : Fin l.filterHeight × Fin l.filterWidth) ∈
      windowTaps l.filterHeight l.filterWidth :=
    List.mem_product.2 ⟨List.mem_finRange _, List.mem_finRange _⟩
  obtain ⟨before, after, htap⟩ := foldlM_eq_ok_mem hfold hmem
  unfold Conv2D.tap at htap
  dsimp only at htap
  rw [hin] at htap
  obtain ⟨out, hchannels, -⟩ := bind_eq_ok.1 htap
  obtain ⟨_, _, hchannel⟩ := foldlM_eq_ok_mem hchannels (List.mem_finRange ⟨ic, hic⟩)
  obtain ⟨ct, hread, -⟩ := bind_eq_ok.1 hchannel
  exact ⟨ct, hread⟩

end Forward

/-! ## Queries -/

variable [Field K] [LinearOrder K]

/-- `compute` until it calls `predict`: the network, and the storage of the tensor. -/
def computeInput (E : Env K Pt Ct) (file : H5File K) (layers : List LayerInfo) (next : NextLayer)
    (option : OptOption K) (rows cols channels : ℕ) (ctxts : List Ct) :
    Except Error (List (Layer Pt) × List (Option Ct)) := do
  let (network, _) ← buildNetwork E file layers next option
  let storage ← copyCtxts E.arith rows cols channels ctxts
  return (network, storage)

/-- The ciphertexts of a query are the cells of the tensor that the first layer reads. -/
structure QueryFits (l : Conv2D Pt) (batchInputShape : ℕ × ℕ × ℕ) (rows cols channels : ℕ)
    (ctxts : List Ct) (storage : List (Option Ct)) : Prop where
  count : ctxts.length = rows * cols * channels
  noWrap : rows * cols * channels < 2 ^ 64
  extents : (rows, cols, channels) = batchInputShape
  cells : storage.length = rows * cols * channels
  copied : storage = ctxts.map some
  reads : ∀ y x ic, l.Reads .lp64 y x ic →
    ∃ ctxt, (inputTensor rows cols channels storage).read y x ic = .ok (.ok ctxt)

variable {ev : Evaluator K Pt Ct} {c : Define K} {file : H5File K} {info : Conv2DInfo} {h w n : ℕ}

theorem conv2D_of_buildNetwork {E : Env K Pt Ct} (hbatch : info.batchInputShape = some (h, w, n))
    {rest : List LayerInfo} {next : NextLayer} {o : OptOption K} {network : List (Layer Pt)}
    {st : BuildState K} (hbuild : buildNetwork E file (.conv2D info :: rest) next o = .ok (network, st)) :
    ∃ l network', network = .conv2D l :: network' ∧ (l.inHeight, l.inWidth, l.inChannels) = (h, w, n) := by
  obtain ⟨call, calls, hcalls, hcall⟩ := buildCalls_conv2D o.enableFuseLayers info rest
  rw [buildNetwork, hcalls] at hbuild
  obtain ⟨layer, st1, network', hlayer, -, rfl⟩ := buildLayers_cons hbuild
  have hshape : info.inShape next = (h, w, n) := by
    rw [Conv2DInfo.inShape, hbatch]
    rfl
  rcases hcall with rfl | ⟨bn, rfl⟩
  · obtain ⟨l, rfl, hb⟩ := buildConv2D_ok hlayer
    exact ⟨l, network', rfl, hb.inShape.trans hshape⟩
  · obtain ⟨l, rfl, hb⟩ := buildConv2DFusedBN_ok hlayer
    exact ⟨l, network', rfl, hb.inShape.trans hshape⟩

/-- A full storage has a ciphertext for every cell. -/
theorem read_of_full {rows cols channels : ℕ} {ctxts : List Ct}
    (hcount : ctxts.length = rows * cols * channels) {y x : ℤ} {ic : ℕ}
    (hin : (0 ≤ y ∧ y.toNat < rows) ∧ (0 ≤ x ∧ x.toNat < cols) ∧ ic < channels) :
    ∃ ctxt, (inputTensor rows cols channels (ctxts.map some)).read y x ic = .ok (.ok ctxt) := by
  have hpos : (y.toNat * cols + x.toNat) * channels + ic < ctxts.length := by
    rw [hcount]
    exact Tensor3.rowMajor_lt hin.1.2 hin.2.1.2 hin.2.2
  refine ⟨ctxts[(y.toNat * cols + x.toNat) * channels + ic], ?_⟩
  have hcell : (inputTensor rows cols channels (ctxts.map some)).read y x ic =
      .ok ((inputTensor rows cols channels (ctxts.map some)).cell ⟨y.toNat, hin.1.2⟩
        ⟨x.toNat, hin.2.1.2⟩ ⟨ic, hin.2.2⟩) := dif_pos hin
  rw [hcell]
  simp only [inputTensor, List.getElem?_map, List.getElem?_eq_getElem hpos, Option.map_some]

/-- A query that fits the model to begin with is copied into every cell. -/
theorem queryFits_of_eq {l : Conv2D Pt} (hin : (l.inHeight, l.inWidth, l.inChannels) = (h, w, n))
    {ctxts : List Ct} (hcount : ctxts.length = h * w * n) (hwrap : h * w * n < 2 ^ 64) :
    QueryFits l (h, w, n) h w n ctxts (ctxts.map some) where
  count := hcount
  noWrap := hwrap
  extents := rfl
  cells := by rw [List.length_map, hcount]
  copied := rfl
  reads := by
    rintro y x ic ⟨⟨-, hic⟩, hrange, -, -⟩
    simp only [Prod.mk.injEq] at hin
    obtain ⟨rfl, rfl, rfl⟩ := hin
    obtain ⟨⟨hy, hy'⟩, hx, hx'⟩ := isOutOfRangeInput_iff.1 hrange
    exact read_of_full hcount ⟨⟨hy, hy'⟩, ⟨hx, hx'⟩, hic⟩

/-- A query is refused, or its ciphertexts are the cells the first layer reads, exactly if the model
cannot be built or the query fits it to begin with. -/
theorem query_fits_iff (hbatch : info.batchInputShape = some (h, w, n)) (rest : List LayerInfo)
    (next : NextLayer) (o : OptOption K) (rows cols channels : ℕ) (ctxts : List Ct) :
    ((∃ e, buildNetwork ⟨ev, .lp64, c⟩ file (.conv2D info :: rest) next o = .error e ∧
        computeInput ⟨ev, .lp64, c⟩ file (.conv2D info :: rest) next o rows cols channels ctxts = .error e) ∨
      ∃ l network storage,
        computeInput ⟨ev, .lp64, c⟩ file (.conv2D info :: rest) next o rows cols channels ctxts =
          .ok (.conv2D l :: network, storage) ∧
        QueryFits l (h, w, n) rows cols channels ctxts storage) ↔
    (∃ e, buildNetwork ⟨ev, .lp64, c⟩ file (.conv2D info :: rest) next o = .error e) ∨
      ((rows, cols, channels) = (h, w, n) ∧ ctxts.length = h * w * n ∧ h * w * n < 2 ^ 64) := by
  unfold computeInput
  constructor
  · rintro (⟨e, he, -⟩ | ⟨l, network, storage, -, hfits⟩)
    · exact .inl ⟨e, he⟩
    · obtain ⟨rfl, rfl, rfl⟩ : rows = h ∧ cols = w ∧ channels = n := by simpa using hfits.extents
      exact .inr ⟨rfl, hfits.count, hfits.noWrap⟩
  · cases hbuild : buildNetwork ⟨ev, .lp64, c⟩ file (.conv2D info :: rest) next o with
    | error e => exact fun _ => .inl ⟨e, rfl, rfl⟩
    | ok built =>
      obtain ⟨network, st⟩ := built
      rintro (⟨e, he⟩ | ⟨hextents, hcount, hwrap⟩)
      · cases he
      · simp only [Prod.mk.injEq] at hextents
        obtain ⟨rfl, rfl, rfl⟩ := hextents
        obtain ⟨l, network', rfl, hin⟩ := conv2D_of_buildNetwork hbatch hbuild
        have hsize : (IntArith.lp64.size (rows * cols * channels)).toNat = ctxts.length := by
          rw [hcount]
          exact_mod_cast IntArith.toNat_size_lp64 hwrap
        have hcopy := copyCtxts_eq hsize
        refine .inr ⟨l, network', ctxts.map some, ?_, queryFits_of_eq hin hcount hwrap⟩
        simp only [hcopy]
        rfl

def singleLayer : List LayerInfo := [unitConv "conv2d" (some (1, 1, 1))]

def singleEnv : Env ℚ ℚ ℚ := ⟨.exact ℚ, .lp64, Define.source fun _ => 1⟩

theorem singleLayer_succeeds : Succeeds (buildNetwork singleEnv (unitFile fun _ => 1) singleLayer .fresh
    (OptOption.new .noOpt .default)) :=
  ⟨_, rfl⟩

/-- Images of 2 × 3 pixels and two channels. -/
def pairLayer : List LayerInfo := [unitConv "conv2d" (some (2, 3, 2))]

theorem query_fits_iff_sample : ∃ l network storage,
    computeInput singleEnv (unitFile fun _ => 1) pairLayer .fresh (OptOption.new .noOpt .default)
      2 3 2 [1, 2, 3, 4, 5, 6, 7, 8, 9, 10, 11, 12] = .ok (.conv2D l :: network, storage) ∧
    QueryFits l (2, 3, 2) 2 3 2 [1, 2, 3, 4, 5, 6, 7, 8, 9, 10, 11, 12] storage := by
  have hbuild : Succeeds (buildNetwork singleEnv (unitFile fun _ => 1) pairLayer .fresh
      (OptOption.new .noOpt .default)) := ⟨_, rfl⟩
  obtain ⟨built, hbuild⟩ := hbuild
  refine ((query_fits_iff rfl [] .fresh (OptOption.new .noOpt .default) 2 3 2
    [1, 2, 3, 4, 5, 6, 7, 8, 9, 10, 11, 12]).2 (.inr ⟨rfl, rfl, by decide⟩)).resolve_left ?_
  rintro ⟨e, he, -⟩
  cases hbuild.symm.trans he

/-- Two ciphertexts for an image of one pixel are copied past the end of the tensor. -/
theorem query_fits_iff_differs :
    computeInput singleEnv (unitFile fun _ => 1) singleLayer .fresh (OptOption.new .noOpt .default)
      1 1 1 [5, 7] = .error .bufferOverflow ∧
    ¬((∃ e, buildNetwork singleEnv (unitFile fun _ => 1) singleLayer .fresh
          (OptOption.new .noOpt .default) = .error e ∧
        computeInput singleEnv (unitFile fun _ => 1) singleLayer .fresh (OptOption.new .noOpt .default)
          1 1 1 [5, 7] = .error e) ∨
      ∃ l network storage,
        computeInput singleEnv (unitFile fun _ => 1) singleLayer .fresh (OptOption.new .noOpt .default)
          1 1 1 [5, 7] = .ok (.conv2D l :: network, storage) ∧
        QueryFits l (1, 1, 1) 1 1 1 [5, 7] storage) := by
  have hover : computeInput singleEnv (unitFile fun _ => 1) singleLayer .fresh
      (OptOption.new .noOpt .default) 1 1 1 [5, 7] = .error .bufferOverflow := rfl
  refine ⟨hover, ?_⟩
  rintro (⟨e, he, -⟩ | ⟨l, network, storage, hinput, -⟩)
  · obtain ⟨built, hbuild⟩ := singleLayer_succeeds
    cases hbuild.symm.trans he
  · cases hover.symm.trans hinput

end Cnn
