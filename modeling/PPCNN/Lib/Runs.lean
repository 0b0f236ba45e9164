import Mathlib.Data.List.Basic
import Mathlib.Order.Basic

/-!
# Searching from a position, and maximal runs

`findFrom p l pos` is the first position from `pos` on whose element has the property. A pair `(i, j)` is a
maximal run if the elements from `i` to before `j` have the property and neither neighbour has
(`MaximalRun`). `maximalRun_of_find`: a search for the property and one for its end find the next maximal
run, and no other starts before the end.
-/

set_option autoImplicit false

namespace Lib

variable {α : Type} {p : α → Bool} {l : List α} {pos i : ℕ}

/-! ## Searching -/

/-- The first position from `pos` on with an element that has the property. -/
def findFrom (p : α → Bool) (l : List α) (pos : ℕ) : Option ℕ := ((l.drop pos).findIdx? p).map (pos + ·)

theorem findFrom_eq_none :
    findFrom p l pos = none ↔ ∀ k c, pos ≤ k → l[k]? = some c → p c = false := by
  rw [findFrom, Option.map_eq_none_iff, List.findIdx?_eq_none_iff]
  constructor
  · intro h k c hk hc
    refine h c (List.mem_of_getElem? (i := k - pos) ?_)
    rw [List.getElem?_drop, Nat.add_sub_cancel' hk]
    exact hc
  · intro h c hc
    obtain ⟨k, hk⟩ := List.mem_iff_getElem?.1 hc
    rw [List.getElem?_drop] at hk
    exact h (pos + k) c (Nat.le_add_right _ _) hk

theorem findFrom_eq_some (h : findFrom p l pos = some i) :
    pos ≤ i ∧ i < l.length ∧ (∀ c, l[i]? = some c → p c = true) ∧
      ∀ k c, pos ≤ k → k < i → l[k]? = some c → p c = false := by
  obtain ⟨n, hn, rfl⟩ := Option.map_eq_some_iff.1 h
  obtain ⟨hlt, hp, hbefore⟩ := List.findIdx?_eq_some_iff_getElem.1 hn
  rw [List.length_drop] at hlt
  refine ⟨Nat.le_add_right _ _, by omega, fun c hc => ?_, fun k c hk hki hc => ?_⟩
  · rw [List.getElem_drop] at hp
    rw [List.getElem?_eq_getElem (by omega)] at hc
    rw [← Option.some.inj hc]
    exact hp
  · have hnot := hbefore (k - pos) (by omega)
    rw [List.getElem_drop] at hnot
    obtain ⟨hklt, hval⟩ := List.getElem?_eq_some_iff.1 hc
    have hsame : pos + (k - pos) = k := Nat.add_sub_cancel' hk
    simp only [hsame, hval] at hnot
    simpa using hnot

/-- The search skips elements without the property. -/
theorem findFrom_append {pre mid rest : List α} {c : α} (hmid : ∀ x ∈ mid, p x = false) (hc : p c = true) :
    findFrom p (pre ++ (mid ++ c :: rest)) pre.length = some (pre.length + mid.length) := by
  rw [findFrom, List.drop_left, List.findIdx?_append, List.findIdx?_eq_none_iff.2 hmid,
    List.findIdx?_cons, if_pos hc]
  simp

theorem findFrom_append_none {pre rest : List α} (hrest : ∀ x ∈ rest, p x = false) :
    findFrom p (pre ++ rest) pre.length = none := by
  rw [findFrom, List.drop_left, List.findIdx?_eq_none_iff.2 hrest, Option.map_none]

theorem findFrom_of_length_le (h : l.length ≤ pos) : findFrom p l pos = none := by
  rw [findFrom, List.drop_eq_nil_of_le h]
  rfl

/-! ## Runs -/

/-- The elements from `run.1` to before `run.2`. -/
def slice (l : List α) (run : ℕ × ℕ) : List α := (l.drop run.1).take (run.2 - run.1)

structure MaximalRun (p : α → Bool) (l : List α) (run : ℕ × ℕ) : Prop where
  lt : run.1 < run.2
  le : run.2 ≤ l.length
  inside : ∀ k c, run.1 ≤ k → k < run.2 → l[k]? = some c → p c = true
  before : ∀ k c, k + 1 = run.1 → l[k]? = some c → p c = false
  after : ∀ c, l[run.2]? = some c → p c = false

/-- No run goes on over the position. -/
def Boundary (p : α → Bool) (l : List α) (pos : ℕ) : Prop :=
  ∀ k c, k + 1 = pos → l[k]? = some c → p c = false

theorem exists_getElem? {k : ℕ} (h : k < l.length) : ∃ c, l[k]? = some c := ⟨l[k], List.getElem?_eq_getElem h⟩

theorem MaximalRun.head {run : ℕ × ℕ} (h : MaximalRun p l run) : ∃ c, l[run.1]? = some c ∧ p c = true := by
  obtain ⟨c, hc⟩ := exists_getElem? (Nat.lt_of_lt_of_le h.lt h.le)
  exact ⟨c, hc, h.inside run.1 c (Nat.le_refl _) h.lt hc⟩

/-- A run does not start inside of another one. -/
theorem MaximalRun.start_eq {run run' : ℕ × ℕ} (h : MaximalRun p l run) (h' : MaximalRun p l run')
    (hle : run.1 ≤ run'.1) (hlt : run'.1 < run.2) : run.1 = run'.1 := by
  by_contra hne
  have hlen := h.le
  obtain ⟨c, hc⟩ := exists_getElem? (l := l) (k := run'.1 - 1) (by omega)
  have hout := h'.before (run'.1 - 1) c (by omega) hc
  rw [h.inside (run'.1 - 1) c (by omega) (by omega) hc] at hout
  cases hout

theorem MaximalRun.end_le {run run' : ℕ × ℕ} (h : MaximalRun p l run) (h' : MaximalRun p l run')
    (hstart : run.1 = run'.1) : run'.2 ≤ run.2 := by
  by_contra hlonger
  have hlt := h.lt
  have hlen := h'.le
  obtain ⟨c, hc⟩ := exists_getElem? (l := l) (k := run.2) (by omega)
  have hin := h'.inside run.2 c (by omega) (by omega) hc
  rw [h.after c hc] at hin
  cases hin

theorem MaximalRun.eq_of_start {run run' : ℕ × ℕ} (h : MaximalRun p l run) (h' : MaximalRun p l run')
    (hstart : run.1 = run'.1) : run = run' :=
  Prod.ext hstart (Nat.le_antisymm (h'.end_le h hstart.symm) (h.end_le h' hstart))

/-- Where the search finds nothing, no run starts. -/
theorem MaximalRun.lt_of_find_none {run : ℕ × ℕ} (h : MaximalRun p l run) (hnone : findFrom p l pos = none) :
    run.1 < pos := by
  by_contra hge
  obtain ⟨c, hc, hp⟩ := h.head
  rw [findFrom_eq_none.1 hnone run.1 c (Nat.not_lt.1 hge) hc] at hp
  cases hp

/-- The end of a run that starts at `i`. -/
def runEnd (p : α → Bool) (l : List α) (i : ℕ) : ℕ := (findFrom (fun c => !p c) l i).getD l.length

theorem runEnd_spec (hi : i < l.length) :
    i ≤ runEnd p l i ∧ runEnd p l i ≤ l.length ∧
      (∀ k c, i ≤ k → k < runEnd p l i → l[k]? = some c → p c = true) ∧
      ∀ c, l[runEnd p l i]? = some c → p c = false := by
  unfold runEnd
  cases hend : findFrom (fun c => !p c) l i with
  | none =>
    refine ⟨Nat.le_of_lt hi, Nat.le_refl _, fun k c hk _ hc => ?_, fun c hc => ?_⟩
    · simpa using findFrom_eq_none.1 hend k c hk hc
    · rw [Option.getD_none, List.getElem?_eq_none (Nat.le_refl _)] at hc
      cases hc
  | some j =>
    obtain ⟨hle, hlt, hat, hbefore⟩ := findFrom_eq_some hend
    refine ⟨hle, Nat.le_of_lt hlt, fun k c hk hkj hc => ?_, fun c hc => ?_⟩
    · simpa using hbefore k c hk hkj hc
    · simpa using hat c hc

theorem maximalRun_of_find (hboundary : Boundary p l pos) (hfind : findFrom p l pos = some i) :
    MaximalRun p l (i, runEnd p l i) ∧ Boundary p l (runEnd p l i + 1) ∧
      ∀ run, MaximalRun p l run → pos ≤ run.1 → run = (i, runEnd p l i) ∨ runEnd p l i < run.1 := by
  obtain ⟨hpos, hi, hat, hskipped⟩ := findFrom_eq_some hfind
  obtain ⟨hle, hlen, hinside, hafter⟩ := runEnd_spec (p := p) hi
  generalize runEnd p l i = j at hle hlen hinside hafter
  obtain ⟨c, hc⟩ := exists_getElem? hi
  have hlt : i < j := by
    refine Nat.lt_of_le_of_ne hle fun hij => ?_
    subst hij
    cases (hat c hc).symm.trans (hafter c hc)
  have hbefore : ∀ k c, k + 1 = i → l[k]? = some c → p c = false := by
    intro k c hk hc
    by_cases hkpos : pos ≤ k
    · exact hskipped k c hkpos (by omega) hc
    · exact hboundary k c (by omega) hc
  have hmax : MaximalRun p l (i, j) := ⟨hlt, hlen, hinside, hbefore, hafter⟩
  refine ⟨hmax, fun k c hk hc => ?_, fun run hrun hstart => ?_⟩
  · obtain rfl : k = j := by omega
    exact hafter c hc
  · obtain ⟨d, hd, hpd⟩ := hrun.head
    have hstart' : i ≤ run.1 := by
      by_contra hbefore
      rw [hskipped run.1 d hstart (by omega) hd] at hpd
      cases hpd
    by_cases hinner : run.1 < j
    · exact .inl (hmax.eq_of_start hrun (hmax.start_eq hrun hstart' hinner)).symm
    · right
      refine Nat.lt_of_le_of_ne (Nat.not_lt.1 hinner) fun hj => ?_
      subst hj
      rw [hafter d hd] at hpd
      cases hpd

theorem runEnd_append {pre w rest : List α} (hw : ∀ c ∈ w, p c = true)
    (hrest : ∀ c ∈ rest.head?, p c = false) :
    runEnd p (pre ++ (w ++ rest)) pre.length = pre.length + w.length := by
  have hin : ∀ c ∈ w, (!p c) = false := fun c hc => by rw [hw c hc]; rfl
  unfold runEnd
  cases rest with
  | nil =>
    rw [List.append_nil, findFrom_append_none hin, Option.getD_none, List.length_append]
  | cons c rest =>
    have hc : (!p c) = true := by rw [hrest c rfl]; rfl
    rw [findFrom_append (p := fun c => !p c) hin hc, Option.getD_some]

theorem slice_append (pre w rest : List α) :
    slice (pre ++ (w ++ rest)) (pre.length, pre.length + w.length) = w := by
  rw [slice, List.drop_left, Nat.add_sub_cancel_left, List.take_left]

end Lib
