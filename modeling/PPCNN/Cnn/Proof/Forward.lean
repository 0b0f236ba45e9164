import PPCNN.Cnn.Proof.Interp
import PPCNN.Cnn.Proof.Window
import Mathlib.Data.List.ProdSigma
import Mathlib.Data.List.Nodup

/-!
# What `forward` computes

For each layer: on an input that represents a tensor (or vector) of values on the level its
plaintexts were made for, `forward` succeeds, and its output represents the value the reference
operation gives, on the next level. One lemma per layer, for any `Interp`.
-/

set_option autoImplicit false

namespace Cnn.Proof

open Lib Keras
open Finset (range)

variable {K Pt Ct V : Type} {ev : Evaluator K Pt Ct} [Field K] [CommRing V] [Algebra K V]
  {I : Interp ev V} {lv : ℕ} {s : K}

/-! ## Represented tensors and vectors -/

structure Interp.RepImage (I : Interp ev V) (lv : ℕ) (s : K) (t : Tensor3 Ct) (v : Tensor3 V) :
    Prop where
  height : t.height = v.height
  width : t.width = v.width
  channels : t.channels = v.channels
  cell : ∀ h w c, I.rep lv s (t.cell h w c) (v.cell (h.cast height) (w.cast width) (c.cast channels))

def Interp.RepUnits (I : Interp ev V) (lv : ℕ) (s : K) (u : List Ct) (v : List V) : Prop :=
  List.Forall₂ (I.rep lv s) u v

theorem build_rep {h w c : ℕ} {f : Fin h → Fin w → Fin c → Except Error Ct} {v : Tensor3 V}
    (hh : h = v.height) (hw : w = v.width) (hc : c = v.channels)
    (hf : ∀ i j k, ∃ x, f i j k = .ok x ∧
      I.rep lv s x (v.cell (i.cast hh) (j.cast hw) (k.cast hc))) :
    ∃ t, Tensor3.build h w c f = .ok t ∧ I.RepImage lv s t v := by
  obtain ⟨cells, hcells, hrep⟩ := seqFin_ok fun i => seqFin_ok fun j => seqFin_ok fun k => hf i j k
  exact ⟨⟨h, w, c, cells⟩, by simp [Tensor3.build, hcells], hh, hw, hc, hrep⟩

theorem build_units_rep {n : ℕ} {f : Fin n → Except Error Ct} {g : Fin n → V}
    (hf : ∀ i, ∃ x, f i = .ok x ∧ I.rep lv s x (g i)) :
    ∃ u, (do return List.ofFn (← seqFin f)) = (.ok u : Except Error (List Ct)) ∧
      I.RepUnits lv s u (List.ofFn g) := by
  obtain ⟨xs, hxs, hrep⟩ := seqFin_ok hf
  refine ⟨List.ofFn xs, by simp [hxs], ?_⟩
  rw [Interp.RepUnits, List.forall₂_iff_get]
  exact ⟨by simp, fun i h1 h2 => by simpa using hrep ⟨i, by simpa using h1⟩⟩

theorem Interp.RepImage.read {t : Tensor3 Ct} {v : Tensor3 V} (h : I.RepImage lv s t v) {y x : ℤ}
    {c : ℕ} (hin : (0 ≤ y ∧ y.toNat < v.height) ∧ (0 ≤ x ∧ x.toNat < v.width) ∧ c < v.channels) :
    ∃ ct, t.read y x c = .ok ct ∧ I.rep lv s ct (v.padded y x c) := by
  obtain ⟨hh, hw, hc, hcell⟩ := h
  have hin' := hin
  rw [← hh, ← hw, ← hc] at hin'
  refine ⟨_, by rw [Tensor3.read, dif_pos hin'], ?_⟩
  rw [Tensor3.padded, dif_pos hin]
  exact hcell _ _ _

theorem Interp.RepUnits.length {u : List Ct} {v : List V} (h : I.RepUnits lv s u v) :
    u.length = v.length :=
  List.Forall₂.length_eq h

theorem Interp.RepUnits.read {u : List Ct} {v : List V} (h : I.RepUnits lv s u v) {i : ℕ}
    (hi : i < v.length) : ∃ ct, readVector u i = .ok ct ∧ I.rep lv s ct (v.getD i 0) := by
  have hu : i < u.length := by rw [h.length]; exact hi
  refine ⟨u[i], by simp [readVector, hu], ?_⟩
  have := (List.forall₂_iff_get.1 h).2 i hu hi
  simpa [List.getD_eq_getElem?_getD, hi] using this

/-! ## Loop bounds -/

theorem sum_finRange {n : ℕ} (f : ℕ → V) :
    ((List.finRange n).map fun i : Fin n => f i).sum = ∑ i ∈ range n, f i := by
  rw [Finset.sum_range, Fin.sum_univ_def]

theorem sum_windowTaps {h w : ℕ} (f : ℕ → ℕ → V) :
    ((windowTaps h w).map fun p => f p.1 p.2).sum = ∑ i ∈ range h, ∑ j ∈ range w, f i j := by
  simp only [windowTaps, List.product, List.flatMap_def, List.map_flatten, List.sum_flatten,
    List.map_map, Function.comp_def]
  simp only [sum_finRange (f _)]
  exact sum_finRange fun i => ∑ j ∈ range w, f i j

/-- The first pair of indices is `(0, 0)`. -/
theorem windowTaps_split {h w : ℕ} {pre post : List (Fin h × Fin w)} {p : Fin h × Fin w}
    (hl : windowTaps h w = pre ++ p :: post) :
    (p.1.val == 0 && p.2.val == 0) = pre.isEmpty := by
  obtain ⟨⟨i, hi⟩, ⟨j, hj⟩⟩ := p
  obtain ⟨h, rfl⟩ : ∃ k, h = k + 1 := ⟨h - 1, by omega⟩
  obtain ⟨w, rfl⟩ : ∃ k, w = k + 1 := ⟨w - 1, by omega⟩
  have hhead : (windowTaps (h + 1) (w + 1)).head? = some (0, 0) := by
    simp [windowTaps, List.finRange_succ, List.product]
  have hnodup : (windowTaps (h + 1) (w + 1)).Nodup :=
    (List.nodup_finRange _).product (List.nodup_finRange _)
  rw [hl] at hhead hnodup
  cases pre with
  | nil => simpa using hhead
  | cons q pre =>
    obtain rfl : q = (0, 0) := by simpa using hhead
    have hne : ((0 : Fin (h + 1)), (0 : Fin (w + 1))) ≠ (⟨i, hi⟩, ⟨j, hj⟩) := by
      intro he
      rw [he] at hnodup
      simp at hnodup
    simp only [List.isEmpty_cons, Bool.and_eq_false_iff, beq_eq_false_iff_ne]
    by_contra hc
    push Not at hc
    obtain ⟨rfl, rfl⟩ := hc
    exact hne rfl

theorem isOutOfRangeInput_iff {h w : ℕ} {x y : ℤ} :
    isOutOfRangeInput h w x y = false ↔ (0 ≤ y ∧ y.toNat < h) ∧ (0 ≤ x ∧ x.toNat < w) := by
  simp only [isOutOfRangeInput, Bool.or_eq_false_iff, decide_eq_false_iff_not]
  omega

/-! ## The end of a linear layer -/

theorem finishLinear_rep {out : Option Ct} {v : V} {p : Pt} {b : K} (h : I.Acc lv s out v)
    (ho : out.isSome) (hp : I.repPlain (lv + 1) p b) (hd : I.canDrop lv) :
    ∃ y, finishLinear ev out p = .ok y ∧
      I.rep (lv + 1) I.scaleParam y (v + algebraMap K V b) := by
  obtain ⟨x, rfl, hx⟩ := h.of_isSome ho
  obtain ⟨y, hy, hry⟩ := I.rescale hx hd
  obtain ⟨z, hz, hrz⟩ := I.addPlain (I.setScale hry) hp
  exact ⟨z, by simp [finishLinear, Evaluator.assigned, hy, hz], hrz⟩

/-! ## Conv2D -/

/-- The windows the constructor has computed. -/
def convWindows (l : Conv2D Pt) : Windows where
  vertical := ⟨l.vertical.out, l.vertical.padBefore⟩
  horizontal := ⟨l.horizontal.out, l.horizontal.padBefore⟩
  size := (l.filterHeight, l.filterWidth)
  stride := (l.strideHeight, l.strideWidth)

/-- Every window of an operation on an image of the given extents has a tap in the image. -/
def HasTaps (w : Windows) (height width : ℕ) : Prop :=
  (∀ oh < w.vertical.out, ∃ i < w.size.1, w.vertical.inside height w.stride.1 oh i) ∧
  ∀ ow < w.horizontal.out, ∃ j < w.size.2, w.horizontal.inside width w.stride.2 ow j

theorem Windows.read_of_not_inside {w : Windows} {t : Tensor3 V} {oh ow i j c : ℕ}
    (h : ¬(w.vertical.inside t.height w.stride.1 oh i ∧ w.horizontal.inside t.width w.stride.2 ow j)) :
    w.read t oh ow i j c = 0 :=
  Tensor3.padded_of_not fun hc => h ⟨hc.1, hc.2.1⟩

/-- A tap adds its products, one for each channel. -/
theorem conv2DTap_rep {l : Conv2D Pt} {input : Tensor3 Ct} {v : Tensor3 V} {oh ow : ℕ}
    {oc : Fin l.filterSize} {kernel : ℕ → ℕ → ℕ → ℕ → K} {acc : ℕ × Option Ct} {u : V}
    {p : Fin l.filterHeight × Fin l.filterWidth}
    (hin : I.RepImage lv s input v) (hh : l.inHeight = v.height) (hw : l.inWidth = v.width)
    (hc : l.inChannels = v.channels) (hpos : 0 < v.channels)
    (hk : ∀ i j c o, I.repPlain lv (l.plainFilters i j c o) (kernel i j c o))
    (hacc : I.Acc lv (s * I.scaleParam) acc.2 u) (hcount : acc.2.isNone = (acc.1 == 0)) :
    ∃ acc', l.tap ev .unbounded input (oh * l.strideHeight - l.padTop)
        (ow * l.strideWidth - l.padLeft) oc acc p = .ok acc' ∧
      I.Acc lv (s * I.scaleParam) acc'.2 (u + ∑ c ∈ range v.channels,
        kernel p.1 p.2 c oc • (convWindows l).read v oh ow p.1 p.2 c) ∧
      acc'.2.isNone = (acc'.1 == 0) ∧
      (acc'.2.isNone → acc.2.isNone ∧
        ¬((convWindows l).vertical.inside v.height l.strideHeight oh p.1 ∧
          (convWindows l).horizontal.inside v.width l.strideWidth ow p.2)) := by
  obtain ⟨i, j⟩ := p
  have hiff : isOutOfRangeInput l.inHeight l.inWidth
      (IntArith.unbounded.int ((ow * l.strideWidth - l.padLeft) + (j : ℕ)))
      (IntArith.unbounded.int ((oh * l.strideHeight - l.padTop) + (i : ℕ))) = false ↔
      (convWindows l).vertical.inside v.height l.strideHeight oh i ∧
        (convWindows l).horizontal.inside v.width l.strideWidth ow j := by
    rw [isOutOfRangeInput_iff, hh, hw]
    rfl
  simp only [Conv2D.tap]
  by_cases hout : (convWindows l).vertical.inside v.height l.strideHeight oh i ∧
      (convWindows l).horizontal.inside v.width l.strideWidth ow j
  · rw [hiff.2 hout]
    obtain ⟨out, hfold, hacc', hnone⟩ := Interp.foldlM_assignOrAdd (l := List.finRange l.inChannels)
      (b := fun ic => acc.1 + 1 == 1 && ic.val == 0)
      (g := fun ic : Fin l.inChannels =>
        kernel i j ic oc • (convWindows l).read v oh ow i j ic)
      (f := fun out ic => do
        let weightedPixel ← ev.multiplyPlain
          (← input.read (IntArith.unbounded.int ((oh * l.strideHeight - l.padTop) + (i : ℕ)))
            (IntArith.unbounded.int ((ow * l.strideWidth - l.padLeft) + (j : ℕ))) ic)
          (l.plainFilters i j ic oc)
        ev.assignOrAdd (acc.1 + 1 == 1 && ic.val == 0) out weightedPixel) hacc
      (by
        intro ic _
        obtain ⟨x, hx, hrx⟩ := hin.read (y := (convWindows l).vertical.coord l.strideHeight oh i)
          (x := (convWindows l).horizontal.coord l.strideWidth ow j) (c := ic)
          ⟨hout.1, hout.2, hc ▸ ic.isLt⟩
        obtain ⟨y, hy, hry⟩ := I.multiplyPlain hrx (hk i j ic oc)
        refine ⟨y, hry, fun out => ?_⟩
        have hx' : input.read (IntArith.unbounded.int ((oh * l.strideHeight - l.padTop) + (i : ℕ)))
            (IntArith.unbounded.int ((ow * l.strideWidth - l.padLeft) + (j : ℕ))) ic = .ok x := hx
        rw [hx', ok_bind, hy, ok_bind])
      (by
        intro pre ic post hl
        rw [hcount, finRange_split hl]
        cases pre <;> simp)
    refine ⟨(acc.1 + 1, out), by simp only [hfold]; rfl, ?_, ?_, ?_⟩
    · rw [sum_finRange fun c => kernel i j c oc • (convWindows l).read v oh ow i j c, hc] at hacc'
      exact hacc'
    · rw [hnone]
      simp [hc, hpos.ne']
    · rw [hnone]
      simp [hc, hpos.ne']
  · have htrue := (Bool.not_eq_false _).mp (mt hiff.1 hout)
    rw [htrue]
    refine ⟨acc, rfl, ?_, hcount, fun hn => ⟨hn, hout⟩⟩
    rw [Finset.sum_eq_zero, add_zero]
    · exact hacc
    · intro c _
      rw [Windows.read_of_not_inside hout, smul_zero]

/-- `Conv2D::forward` computes the convolution. -/
theorem conv2D_rep {l : Conv2D Pt} {input : Tensor3 Ct} {v : Tensor3 V}
    {kernel : ℕ → ℕ → ℕ → ℕ → K} {bias : ℕ → K}
    (hin : I.RepImage lv s input v) (hh : l.inHeight = v.height) (hw : l.inWidth = v.width)
    (hc : l.inChannels = v.channels) (hpos : 0 < v.channels)
    (htaps : HasTaps (convWindows l) v.height v.width)
    (hk : ∀ i j c o, I.repPlain lv (l.plainFilters i j c o) (kernel i j c o))
    (hb : ∀ o, I.repPlain (lv + 1) (l.plainBiases o) (bias o)) (hd : I.canDrop lv) :
    ∃ t, l.forward ev .unbounded input = .ok t ∧
      I.RepImage (lv + 1) I.scaleParam t ((convWindows l).conv2D l.filterSize kernel bias v) := by
  refine build_rep rfl rfl rfl fun oh ow oc => ?_
  obtain ⟨i, hi, hiin⟩ := htaps.1 oh oh.isLt
  obtain ⟨j, hj, hjin⟩ := htaps.2 ow ow.isLt
  let tapValue (p : Fin l.filterHeight × Fin l.filterWidth) : V :=
    ∑ c ∈ range v.channels, kernel p.1 p.2 c oc • (convWindows l).read v oh ow p.1 p.2 c
  let inside (p : Fin l.filterHeight × Fin l.filterWidth) : Prop :=
    (convWindows l).vertical.inside v.height l.strideHeight oh p.1 ∧
      (convWindows l).horizontal.inside v.width l.strideWidth ow p.2
  obtain ⟨acc, hfold, hacc, -, hnone⟩ := foldlM_invariant
    (l := windowTaps l.filterHeight l.filterWidth)
    (f := l.tap ev .unbounded input (oh * l.strideHeight - l.padTop)
      (ow * l.strideWidth - l.padLeft) oc) (b := (0, none))
    (I := fun pre acc => I.Acc lv (s * I.scaleParam) acc.2 (pre.map tapValue).sum ∧
      acc.2.isNone = (acc.1 == 0) ∧ (acc.2.isNone → ∀ p ∈ pre, ¬inside p))
    ⟨rfl, rfl, by simp⟩
    (by
      rintro pre p post acc - ⟨hacc, hcount, hnone⟩
      obtain ⟨acc', hacc', hsum, hcount', hnone'⟩ :=
        conv2DTap_rep (p := p) hin hh hw hc hpos hk hacc hcount
      refine ⟨acc', hacc', by simpa [tapValue] using hsum, hcount', fun hn => ?_⟩
      intro q hq
      rcases List.mem_append.1 hq with hq | hq
      · exact hnone (hnone' hn).1 q hq
      · rw [List.mem_singleton.1 hq]
        exact (hnone' hn).2)
  have hsome : acc.2.isSome := by
    rw [Option.isSome_iff_ne_none]
    intro hn
    exact hnone (by simp [hn]) (⟨i, hi⟩, ⟨j, hj⟩)
      (List.mem_product.2 ⟨List.mem_finRange _, List.mem_finRange _⟩) ⟨hiin, hjin⟩
  obtain ⟨y, hy, hry⟩ := finishLinear_rep hacc hsome (hb oc) hd
  refine ⟨y, (bind_of_ok hfold _).trans hy, ?_⟩
  rw [sum_windowTaps fun i j => ∑ c ∈ range v.channels,
      kernel i j c oc • (convWindows l).read v oh ow i j c] at hry
  exact hry

/-! ## AveragePooling2D -/

def poolWindows (l : AveragePooling2D Pt) : Windows where
  vertical := ⟨l.vertical.out, l.vertical.padBefore⟩
  horizontal := ⟨l.horizontal.out, l.horizontal.padBefore⟩
  size := (l.poolHeight, l.poolWidth)
  stride := (l.strideHeight, l.strideWidth)

/-- Every tap of every window lies in the image. -/
def AllInside (w : Windows) (height width : ℕ) : Prop :=
  (∀ oh < w.vertical.out, ∀ i < w.size.1, w.vertical.inside height w.stride.1 oh i) ∧
  ∀ ow < w.horizontal.out, ∀ j < w.size.2, w.horizontal.inside width w.stride.2 ow j

/-- The first tap of every window lies in the image. -/
def FirstInside (w : Windows) (height width : ℕ) : Prop :=
  (∀ oh < w.vertical.out, w.vertical.inside height w.stride.1 oh 0) ∧
  ∀ ow < w.horizontal.out, w.horizontal.inside width w.stride.2 ow 0

theorem AllInside.first {w : Windows} {height width : ℕ} (h : AllInside w height width)
    (hsize : 0 < w.size.1 ∧ 0 < w.size.2) : FirstInside w height width :=
  ⟨fun oh hoh => h.1 oh hoh 0 hsize.1, fun ow how => h.2 ow how 0 hsize.2⟩

/-- The loops of `AveragePooling2D::forward` sum the window: its first tap is assigned, and a tap
outside the image is left out. -/
theorem windowSum_rep {l : AveragePooling2D Pt} {input : Tensor3 Ct} {v : Tensor3 V} {oh ow oc : ℕ}
    (hin : I.RepImage lv s input v) (hh : l.inHeight = v.height) (hw : l.inWidth = v.width)
    (hfirst : FirstInside (poolWindows l) v.height v.width) (hoh : oh < l.outHeight)
    (how : ow < l.outWidth) (hoc : oc < v.channels) (hsize : 0 < l.poolHeight ∧ 0 < l.poolWidth) :
    ∃ x, (windowTaps l.poolHeight l.poolWidth).foldlM
        (l.tap ev .unbounded input (oh * l.strideHeight - l.padTop)
          (ow * l.strideWidth - l.padLeft) oc) none = .ok (some x) ∧
      I.rep lv s x (∑ i ∈ range l.poolHeight, ∑ j ∈ range l.poolWidth,
        (poolWindows l).read v oh ow i j oc) := by
  obtain ⟨out, hfold, hacc, hnone⟩ := foldlM_invariant
    (l := windowTaps l.poolHeight l.poolWidth)
    (f := l.tap ev .unbounded input (oh * l.strideHeight - l.padTop)
      (ow * l.strideWidth - l.padLeft) oc) (b := none)
    (I := fun pre out => I.Acc lv s out
        (pre.map fun p => (poolWindows l).read v oh ow p.1 p.2 oc).sum ∧ out.isNone = pre.isEmpty)
    ⟨rfl, rfl⟩
    (by
      rintro pre ⟨i, j⟩ post out hl ⟨hacc, hnone⟩
      have hiff : isOutOfRangeInput l.inHeight l.inWidth
          (IntArith.unbounded.int ((ow * l.strideWidth - l.padLeft) + (j : ℕ)))
          (IntArith.unbounded.int ((oh * l.strideHeight - l.padTop) + (i : ℕ))) = false ↔
          (poolWindows l).vertical.inside v.height l.strideHeight oh i ∧
            (poolWindows l).horizontal.inside v.width l.strideWidth ow j := by
        rw [isOutOfRangeInput_iff, hh, hw]
        rfl
      simp only [AveragePooling2D.tap]
      by_cases hout : (poolWindows l).vertical.inside v.height l.strideHeight oh i ∧
          (poolWindows l).horizontal.inside v.width l.strideWidth ow j
      · rw [hiff.2 hout, windowTaps_split hl, ← hnone]
        have hread : ∃ x, input.read (IntArith.unbounded.int ((oh * l.strideHeight - l.padTop) + (i : ℕ)))
            (IntArith.unbounded.int ((ow * l.strideWidth - l.padLeft) + (j : ℕ))) oc = .ok x ∧
              I.rep lv s x ((poolWindows l).read v oh ow i j oc) :=
          hin.read ⟨hout.1, hout.2, hoc⟩
        obtain ⟨x, hx, hrx⟩ := hread
        obtain ⟨y, hy, hry⟩ := hacc.assignOrAdd hrx
        exact ⟨some y, (bind_of_ok hx _).trans hy, by simpa [Interp.Acc] using hry, by simp⟩
      · rw [(Bool.not_eq_false _).mp (mt hiff.1 hout)]
        have hpre : pre.isEmpty = false := by
          -- the first tap is inside
          rw [← windowTaps_split hl, ← Bool.not_eq_true]
          intro hzero
          simp only [Bool.and_eq_true, beq_iff_eq] at hzero
          rw [hzero.1, hzero.2] at hout
          exact hout ⟨hfirst.1 oh hoh, hfirst.2 ow how⟩
        refine ⟨out, rfl, ?_, by simp [hnone, hpre]⟩
        have hzero : (poolWindows l).read v oh ow i j oc = 0 := Windows.read_of_not_inside hout
        simpa [hzero] using hacc)
  obtain ⟨x, rfl, hx⟩ := hacc.of_isSome (by
    rw [← Option.not_isNone, hnone]
    have hmem : ((⟨0, hsize.1⟩, ⟨0, hsize.2⟩) : Fin l.poolHeight × Fin l.poolWidth) ∈
        windowTaps l.poolHeight l.poolWidth :=
      List.mem_product.2 ⟨List.mem_finRange _, List.mem_finRange _⟩
    simpa using List.ne_nil_of_mem hmem)
  refine ⟨x, hfold, ?_⟩
  rw [sum_windowTaps fun i j => (poolWindows l).read v oh ow i j oc] at hx
  exact hx

/-- With optimised pooling, `forward` gives the sums. -/
theorem averagePooling2D_opt_rep {l : AveragePooling2D Pt} {o : OptOption K} {input : Tensor3 Ct}
    {v : Tensor3 V} (hin : I.RepImage lv s input v) (hh : l.inHeight = v.height)
    (hw : l.inWidth = v.width) (hc : l.inChannels = v.channels)
    (hfirst : FirstInside (poolWindows l) v.height v.width)
    (hsize : 0 < l.poolHeight ∧ 0 < l.poolWidth) (ho : o.enableOptimizePooling = true) :
    ∃ t, l.forward ev .unbounded o input = .ok t ∧
      I.RepImage lv s t ((poolWindows l).windowSum v) := by
  refine build_rep rfl rfl hc fun oh ow oc => ?_
  obtain ⟨x, hfold, hx⟩ :=
    windowSum_rep hin hh hw hfirst oh.isLt ow.isLt (oc.isLt.trans_eq hc) hsize
  refine ⟨x, (bind_of_ok hfold _).trans ?_, hx⟩
  rw [ho, if_pos rfl]
  rfl

/-- Without, they are multiplied by the factor of the layer. -/
theorem averagePooling2D_rep {l : AveragePooling2D Pt} {o : OptOption K} {input : Tensor3 Ct}
    {v : Tensor3 V} {p : Pt} {f : K} (hin : I.RepImage lv s input v) (hh : l.inHeight = v.height)
    (hw : l.inWidth = v.width) (hc : l.inChannels = v.channels)
    (hfirst : FirstInside (poolWindows l) v.height v.width)
    (hsize : 0 < l.poolHeight ∧ 0 < l.poolWidth) (ho : o.enableOptimizePooling = false)
    (hp : l.plainMulFactor = some p) (hf : I.repPlain lv p f) (hd : I.canDrop lv) :
    ∃ t, l.forward ev .unbounded o input = .ok t ∧
      I.RepImage (lv + 1) (I.rescaled lv (s * I.scaleParam)) t
        (scale f ((poolWindows l).windowSum v)) := by
  refine build_rep rfl rfl hc fun oh ow oc => ?_
  obtain ⟨x, hfold, hx⟩ :=
    windowSum_rep hin hh hw hfirst oh.isLt ow.isLt (oc.isLt.trans_eq hc) hsize
  obtain ⟨y, hy, hry⟩ := I.multiplyPlain hx hf
  obtain ⟨z, hz, hrz⟩ := I.rescale hry hd
  refine ⟨z, (bind_of_ok hfold _).trans ?_, hrz⟩
  rw [ho, hp]
  exact (bind_of_ok hy _).trans hz

/-! ## BatchNormalization -/

theorem batchNormalization_rep {l : BatchNormalization Pt} {weight bias : ℕ → K} {n i : ℕ} {x : Ct}
    {v : V} (hw : ∀ i < n, ∃ p, readVector l.plainWeights i = .ok p ∧ I.repPlain lv p (weight i))
    (hb : ∀ i < n, ∃ p, readVector l.plainBiases i = .ok p ∧ I.repPlain (lv + 1) p (bias i))
    (hd : I.canDrop lv) (hi : i < n) (hx : I.rep lv s x v) :
    ∃ y, l.apply ev i x = .ok y ∧
      I.rep (lv + 1) I.scaleParam y (affine weight bias i v) := by
  obtain ⟨p, hp, hrp⟩ := hw i hi
  obtain ⟨q, hq, hrq⟩ := hb i hi
  obtain ⟨y, hy, hry⟩ := I.multiplyPlain hx hrp
  obtain ⟨z, hz, hrz⟩ := I.rescale hry hd
  obtain ⟨r, hr, hrr⟩ := I.addPlain (I.setScale hrz) hrq
  exact ⟨r, by simp [BatchNormalization.apply, hp, hy, hz, hq, hr], hrr⟩

theorem batchNormalization_forward3D_rep {l : BatchNormalization Pt} {weight bias : ℕ → K}
    {input : Tensor3 Ct} {v : Tensor3 V}
    (hw : ∀ i < v.channels, ∃ p, readVector l.plainWeights i = .ok p ∧ I.repPlain lv p (weight i))
    (hb : ∀ i < v.channels, ∃ p, readVector l.plainBiases i = .ok p ∧
      I.repPlain (lv + 1) p (bias i))
    (hd : I.canDrop lv) (hin : I.RepImage lv s input v) :
    ∃ t, l.forward3D ev input = .ok t ∧
      I.RepImage (lv + 1) I.scaleParam t (v.mapChannels (affine weight bias)) :=
  build_rep hin.height hin.width hin.channels fun h w c =>
    batchNormalization_rep hw hb hd (c.isLt.trans_eq hin.channels) (hin.cell h w c)

/-- A loop over the units that replaces each by a computation on it. -/
theorem mapUnits_rep {lv' : ℕ} {s' : K} {input : List Ct} {v : List V}
    {f : ℕ → Ct → Except Error Ct} {g : ℕ → V → V} (hin : I.RepUnits lv s input v)
    (hf : ∀ i < v.length, ∀ x y, I.rep lv s x y → ∃ z, f i x = .ok z ∧ I.rep lv' s' z (g i y)) :
    ∃ u, (do return List.ofFn (← seqFin fun i : Fin input.length => f i (input.get i))) =
        (.ok u : Except Error (List Ct)) ∧ I.RepUnits lv' s' u (v.mapIdx g) := by
  obtain ⟨hlen, hget⟩ := List.forall₂_iff_get.1 hin
  have hunit : ∀ i : Fin input.length, ∃ z, f i (input.get i) = .ok z ∧
      I.rep lv' s' z (g i (v.get (i.cast hlen))) :=
    fun i => hf i (i.isLt.trans_eq hlen) _ _ (hget i i.isLt (i.cast hlen).isLt)
  obtain ⟨u, hu, hrep⟩ := build_units_rep hunit
  refine ⟨u, hu, ?_⟩
  convert hrep using 1
  exact List.ext_get (by simp [hlen]) fun i h1 h2 => by simp

theorem batchNormalization_forwardUnits_rep {l : BatchNormalization Pt} {weight bias : ℕ → K}
    {input : List Ct} {v : List V}
    (hw : ∀ i < v.length, ∃ p, readVector l.plainWeights i = .ok p ∧ I.repPlain lv p (weight i))
    (hb : ∀ i < v.length, ∃ p, readVector l.plainBiases i = .ok p ∧ I.repPlain (lv + 1) p (bias i))
    (hd : I.canDrop lv) (hin : I.RepUnits lv s input v) :
    ∃ u, l.forwardUnits ev input = .ok u ∧
      I.RepUnits (lv + 1) I.scaleParam u (v.mapIdx (affine weight bias)) :=
  mapUnits_rep hin fun _ hi _ _ hx => batchNormalization_rep hw hb hd hi hx

/-! ## Flatten -/

theorem Interp.RepImage.toUnits {t : Tensor3 Ct} {v : Tensor3 V} (h : I.RepImage lv s t v) :
    I.RepUnits lv s t.toUnits v.toUnits := by
  obtain ⟨th, tw, tc, cell⟩ := t
  obtain ⟨vh, vw, vc, vcell⟩ := v
  obtain ⟨hh, hw, hc, hcell⟩ := h
  dsimp only at hh hw hc hcell
  subst hh hw hc
  refine List.rel_flatMap (R := Eq) (List.forall₂_refl _) fun i _ hi => ?_
  refine List.rel_flatMap (R := Eq) (List.forall₂_refl _) fun j _ hj => ?_
  subst hi hj
  simp only [List.forall₂_map_left_iff, List.forall₂_map_right_iff]
  exact List.forall₂_same.2 fun k _ => hcell i j k

theorem flatten_rep {l : Flatten} {input : Tensor3 Ct} {v : Tensor3 V}
    (hin : I.RepImage lv s input v) (hh : l.inHeight = v.height) (hw : l.inWidth = v.width)
    (hc : l.inChannels = v.channels) :
    ∃ u, l.flatten input = .ok u ∧ I.RepUnits lv s u v.toUnits := by
  have hcells : ∀ (i : Fin l.inHeight) (j : Fin l.inWidth) (k : Fin l.inChannels), ∃ x,
      input.read (i : ℕ) (j : ℕ) k = .ok x ∧
        I.rep lv s x (v.cell (i.cast hh) (j.cast hw) (k.cast hc)) := by
    intro i j k
    obtain ⟨x, hx, hrx⟩ := hin.read (y := (i : ℕ)) (x := (j : ℕ)) (c := k)
      ⟨⟨by omega, by simpa using i.isLt.trans_eq hh⟩, ⟨by omega, by simpa using j.isLt.trans_eq hw⟩,
        k.isLt.trans_eq hc⟩
    have hcell := v.padded_cell (i.cast hh) (j.cast hw) (k.cast hc)
    exact ⟨x, hx, hcell ▸ hrx⟩
  obtain ⟨t, ht, hrep⟩ := build_rep hh hw hc hcells
  exact ⟨t.toUnits, bind_of_ok ht _, hrep.toUnits⟩

/-! ## Dense -/

theorem dense_rep {l : Dense Pt} {input : List Ct} {v : List V} {kernel : ℕ → ℕ → K}
    {bias : ℕ → K} (hin : I.RepUnits lv s input v) (hlen : l.inUnits = v.length)
    (hpos : 0 < v.length) (hk : ∀ i o, I.repPlain lv (l.plainWeights i o) (kernel i o))
    (hb : ∀ o, I.repPlain (lv + 1) (l.plainBiases o) (bias o)) (hd : I.canDrop lv) :
    ∃ u, l.forward ev input = .ok u ∧
      I.RepUnits (lv + 1) I.scaleParam u (dense l.outUnits kernel bias v) := by
  refine build_units_rep fun ou => ?_
  have hstart : I.Acc lv (s * I.scaleParam) none (0 : V) := rfl
  obtain ⟨out, hfold, hacc, hnone⟩ := Interp.foldlM_assignOrAdd (l := List.finRange l.inUnits)
    (b := fun iu => iu.val == 0) (g := fun iu : Fin l.inUnits => kernel iu ou • v.getD iu 0)
    (f := fun out iu => do
      let weightedUnit ← ev.multiplyPlain (← readVector input iu) (l.plainWeights iu ou)
      ev.assignOrAdd (iu.val == 0) out weightedUnit) hstart
    (by
      intro iu _
      obtain ⟨x, hx, hrx⟩ := hin.read (iu.isLt.trans_eq hlen)
      obtain ⟨y, hy, hry⟩ := I.multiplyPlain hrx (hk iu ou)
      exact ⟨y, hry, fun out => by rw [hx, ok_bind, hy, ok_bind]⟩)
    (by
      intro pre iu post hl
      rw [finRange_split hl]
      cases pre <;> simp)
  obtain ⟨y, hy, hry⟩ := finishLinear_rep hacc (by
    rw [← Option.not_isNone, hnone]
    simp only [Option.isNone_none, Bool.true_and, List.isEmpty_eq_false_iff, Bool.not_eq_true',
      ne_eq, List.finRange_eq_nil_iff]
    omega) (hb ou) hd
  refine ⟨y, (bind_of_ok hfold _).trans hy, ?_⟩
  rw [zero_add, sum_finRange fun i => kernel i ou • v.getD i 0, hlen] at hry
  exact hry

/-! ## GlobalAveragePooling2D -/

/-- The loop body of `GlobalAveragePooling2D::flatten` for one unit. -/
theorem globalSum_rep {input : Tensor3 Ct} {v : Tensor3 V} {h w c : ℕ}
    (hin : I.RepImage lv s input v) (hh : h = v.height) (hw : w = v.width) (hc : c < v.channels)
    (hpos : 0 < h ∧ 0 < w) :
    ∃ y, (do
      let first ← input.read 0 0 c
      (windowTaps h w).foldlM (fun out (p : Fin h × Fin w) =>
        if p.1.val ≠ 0 ∨ p.2.val ≠ 0 then do
          ev.add out (← input.read (p.1 : ℕ) (p.2 : ℕ) c)
        else .ok out) first) = .ok y ∧
      I.rep lv s y (∑ i ∈ range h, ∑ j ∈ range w, v.padded (i : ℕ) (j : ℕ) c) := by
  have hread : ∀ i < h, ∀ j < w, ∃ x, input.read (i : ℕ) (j : ℕ) c = .ok x ∧
      I.rep lv s x (v.padded (i : ℕ) (j : ℕ) c) := fun i hi j hj =>
    hin.read ⟨⟨by omega, by simpa using hi.trans_eq hh⟩,
      ⟨by omega, by simpa using hj.trans_eq hw⟩, hc⟩
  obtain ⟨x, hx, hrx⟩ := hread 0 hpos.1 0 hpos.2
  obtain ⟨y, hy, hry⟩ := foldlM_invariant (l := windowTaps h w) (b := x)
    (f := fun out (p : Fin h × Fin w) =>
      if p.1.val ≠ 0 ∨ p.2.val ≠ 0 then do
        ev.add out (← input.read (p.1 : ℕ) (p.2 : ℕ) c)
      else .ok out)
    (I := fun pre out => I.rep lv s out (if pre = [] then v.padded (0 : ℕ) (0 : ℕ) c
      else (pre.map fun p : Fin h × Fin w => v.padded (p.1 : ℕ) (p.2 : ℕ) c).sum))
    (by simpa using hrx)
    (by
      rintro pre ⟨i, j⟩ post out hl hout
      have hfirst := windowTaps_split hl
      cases pre with
      | nil =>
        -- the first position has been assigned already
        simp only [List.isEmpty_nil, Bool.and_eq_true, beq_iff_eq] at hfirst
        exact ⟨out, by simp [hfirst], by simpa [hfirst] using hout⟩
      | cons q pre =>
        have hij : i.val ≠ 0 ∨ j.val ≠ 0 := by
          simp only [List.isEmpty_cons, Bool.and_eq_false_iff, beq_eq_false_iff_ne] at hfirst
          exact hfirst
        obtain ⟨z, hz, hrz⟩ := hread i i.isLt j j.isLt
        obtain ⟨r, hr, hrr⟩ := I.add hout hrz
        refine ⟨r, by simp only [if_pos hij, hz, ok_bind, hr], ?_⟩
        simpa [add_assoc] using hrr)
  refine ⟨y, (bind_of_ok hx _).trans hy, ?_⟩
  have hmem : ((⟨0, hpos.1⟩, ⟨0, hpos.2⟩) : Fin h × Fin w) ∈ windowTaps h w :=
    List.mem_product.2 ⟨List.mem_finRange _, List.mem_finRange _⟩
  rw [if_neg (List.ne_nil_of_mem hmem),
    sum_windowTaps fun i j => v.padded (i : ℕ) (j : ℕ) c] at hry
  exact hry

theorem globalAveragePooling2D_rep {l : GlobalAveragePooling2D} {input : Tensor3 Ct}
    {v : Tensor3 V} (hin : I.RepImage lv s input v) (hh : l.inHeight = v.height)
    (hw : l.inWidth = v.width) (hu : l.outUnits = v.channels) (hpos : 0 < v.height ∧ 0 < v.width) :
    ∃ u, l.flatten ev input = .ok u ∧ I.RepUnits lv s u (channelSum v) := by
  obtain ⟨u, hflatten, hrep⟩ := build_units_rep fun ou : Fin l.outUnits =>
    globalSum_rep hin hh hw (ou.isLt.trans_eq hu) ⟨hpos.1.trans_eq hh.symm, hpos.2.trans_eq hw.symm⟩
  refine ⟨u, hflatten, ?_⟩
  rw [channelSum, List.ofFn_congr hu.symm, ← hh, ← hw]
  exact hrep

/-! ## Activation -/

theorem squareRelin_rep {x : Ct} {v : V} (hx : I.rep lv s x v) :
    ∃ y, Activation.squareRelin ev x = .ok y ∧ I.rep lv (s * s) y (v * v) := by
  obtain ⟨a, ha, hra⟩ := I.square hx
  obtain ⟨b, hb, hrb⟩ := I.relinearize hra
  exact ⟨b, (bind_of_ok ha _).trans hb, hrb⟩

theorem square_rep {x : Ct} {v : V} (hx : I.rep lv s x v) (hd : I.canDrop lv) :
    ∃ y, Activation.square ev x = .ok y ∧ I.rep (lv + 1) (I.rescaled lv (s * s)) y (v * v) := by
  obtain ⟨a, ha, hra⟩ := squareRelin_rep hx
  obtain ⟨b, hb, hrb⟩ := I.rescale hra hd
  exact ⟨b, (bind_of_ok ha _).trans hb, hrb⟩

/-- `a x⁴ + b x² + c x + d`, on three levels. -/
theorem swishDeg4_rep {l : Activation Pt} {x : Ct} {v : V} {p0 p1 p2 p3 : Pt} {a b c d : K}
    (hl : l.plainPolyCoeffs = [p0, p1, p2, p3]) (h0 : I.repPlain (lv + 2) p0 a)
    (h1 : I.repPlain (lv + 2) p1 b) (h2 : I.repPlain (lv + 2) p2 c)
    (h3 : I.repPlain (lv + 3) p3 d) (hx : I.rep lv s x v) (hd : ∀ i < 3, I.canDrop (lv + i)) :
    ∃ y, l.swishDeg4 ev x = .ok y ∧ I.rep (lv + 3) I.scaleParam y
      (a • v ^ 4 + b • v ^ 2 + c • v + algebraMap K V d) := by
  have hd0 := hd 0 (by omega)
  have hd1 := hd 1 (by omega)
  have hd2 := hd 2 (by omega)
  obtain ⟨w2, hw2, hrw2⟩ := squareRelin_rep hx
  obtain ⟨x2, hx2, hr2⟩ := I.rescale hrw2 hd0
  obtain ⟨w4, hw4, hrw4⟩ := squareRelin_rep hr2
  obtain ⟨x4, hx4, hr4⟩ := I.rescale hrw4 hd1
  obtain ⟨y2, hy2, hry2⟩ := I.modSwitch hr2 hd1
  obtain ⟨y0, hy0, hry0⟩ := I.modSwitch hx hd0
  obtain ⟨y1, hy1, hry1⟩ := I.modSwitch hry0 hd1
  obtain ⟨ax4, hax4, hrax4⟩ := I.multiplyPlain hr4 h0
  obtain ⟨bx2, hbx2, hrbx2⟩ := I.multiplyPlain hry2 h1
  obtain ⟨cx, hcx, hrcx⟩ := I.multiplyPlain hry1 h2
  obtain ⟨z1, hz1, hrz1⟩ := I.add (I.setScale hrax4) (I.setScale hrbx2)
  obtain ⟨z2, hz2, hrz2⟩ := I.add hrz1 (I.setScale hrcx)
  obtain ⟨z3, hz3, hrz3⟩ := I.rescale hrz2 hd2
  obtain ⟨z4, hz4, hrz4⟩ := I.addPlain (I.setScale hrz3) h3
  refine ⟨z4, ?_, ?_⟩
  · simp [Activation.swishDeg4, hl, readVector, hw2, hx2, hw4, hx4, hy2, hy0, hy1, hax4, hbx2, hcx,
      hz1, hz2, hz3, hz4]
  · rw [show v ^ 4 = v * v * (v * v) by ring, show v ^ 2 = v * v by ring]
    exact hrz4

/-- `x⁴ + b x² + c x + d`, on two levels. -/
theorem swishDeg4Opt_rep {l : Activation Pt} {x : Ct} {v : V} {p0 p1 p2 : Pt} {b c d : K}
    (hl : l.plainPolyCoeffs = [p0, p1, p2]) (h0 : I.repPlain (lv + 1) p0 b)
    (h1 : I.repPlain (lv + 1) p1 c) (h2 : I.repPlain (lv + 2) p2 d)
    (hx : I.rep lv s x v) (hd : ∀ i < 2, I.canDrop (lv + i)) :
    ∃ y, l.swishDeg4Opt ev x = .ok y ∧ I.rep (lv + 2) I.scaleParam y
      (v ^ 4 + b • v ^ 2 + c • v + algebraMap K V d) := by
  have hd0 := hd 0 (by omega)
  have hd1 := hd 1 (by omega)
  obtain ⟨w2, hw2, hrw2⟩ := squareRelin_rep hx
  obtain ⟨x2, hx2, hr2⟩ := I.rescale hrw2 hd0
  obtain ⟨x4, hx4, hr4⟩ := squareRelin_rep hr2
  obtain ⟨y0, hy0, hry0⟩ := I.modSwitch hx hd0
  obtain ⟨bx2, hbx2, hrbx2⟩ := I.multiplyPlain hr2 h0
  obtain ⟨cx, hcx, hrcx⟩ := I.multiplyPlain hry0 h1
  obtain ⟨z1, hz1, hrz1⟩ := I.add (I.setScale hr4) (I.setScale hrbx2)
  obtain ⟨z2, hz2, hrz2⟩ := I.add hrz1 (I.setScale hrcx)
  obtain ⟨z3, hz3, hrz3⟩ := I.rescale hrz2 hd1
  obtain ⟨z4, hz4, hrz4⟩ := I.addPlain (I.setScale hrz3) h2
  refine ⟨z4, ?_, ?_⟩
  · simp [Activation.swishDeg4Opt, hl, readVector, hw2, hx2, hx4, hy0, hbx2, hcx, hz1, hz2, hz3,
      hz4]
  · rw [show v ^ 4 = v * v * (v * v) by ring, show v ^ 2 = v * v by ring]
    exact hrz4

/-- Without coefficients, both polynomials read outside the vector. -/
theorem swish_outOfRange {l : Activation Pt} {x : Ct} {v : V} (hl : l.plainPolyCoeffs = [])
    (hx : I.rep lv s x v) (hd : ∀ i, I.canDrop i) :
    l.swishDeg4 ev x = .error .outOfRange ∧ l.swishDeg4Opt ev x = .error .outOfRange := by
  obtain ⟨w2, hw2, hrw2⟩ := squareRelin_rep hx
  obtain ⟨x2, hx2, hr2⟩ := I.rescale hrw2 (hd _)
  obtain ⟨w4, hw4, hrw4⟩ := squareRelin_rep hr2
  obtain ⟨x4, hx4, hr4⟩ := I.rescale hrw4 (hd _)
  obtain ⟨y2, hy2, hry2⟩ := I.modSwitch hr2 (hd _)
  obtain ⟨y0, hy0, hry0⟩ := I.modSwitch hx (hd _)
  obtain ⟨y1, hy1, hry1⟩ := I.modSwitch hry0 (hd _)
  constructor
  · simp [Activation.swishDeg4, hl, readVector, hw2, hx2, hw4, hx4, hy2, hy0, hy1]
  · simp [Activation.swishDeg4Opt, hl, readVector, hw2, hx2, hw4, hy0]

end Cnn.Proof
