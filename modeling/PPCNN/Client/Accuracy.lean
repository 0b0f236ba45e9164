import PPCNN.Client.Compute

/-!
# The results of a query (`callback_func` of `demo/client/main.cpp`)

`callback_func` decrypts and decodes a ciphertext for each label, stores the slots into the rows of the
range of `CallbackParam`, takes the place of the first maximum of a row for the label of its image, and
counts the images that have this label in the test set. Here the range is read once, as if no other step
assigned it in the meantime.

`callbackFunc_eq`: what it counts. A row outside of the range keeps its zeros, so its image counts as one
with label 0. The printed quotient of the count and `img_count` is left out.
-/

set_option autoImplicit false

namespace Client

open Lib Cnn

variable {K R Ct : Type}

/-! ## The place of a maximum -/

section

variable [LinearOrder K]

/-- The loop of `std::max_element`, from the largest element so far and its place on. -/
def maxElementFrom (largest : K) (place : ℕ) : ℕ → List K → ℕ
  | _, [] => place
  | i, x :: xs =>
    if largest < x then maxElementFrom x i (i + 1) xs else maxElementFrom largest place (i + 1) xs

/-- `predicted_label`, the distance from the start of the row to its `std::max_element`. -/
def predictedLabel : List K → ℕ
  | [] => 0
  | x :: xs => maxElementFrom x 0 1 xs

/-- The place of the first of the largest elements. -/
structure IsFirstMax (row : List K) (place : ℕ) : Prop where
  lt_length : place < row.length
  le : ∀ (i : ℕ) (x y : K), row[i]? = some x → row[place]? = some y → x ≤ y
  lt : ∀ i < place, ∀ x y : K, row[i]? = some x → row[place]? = some y → x < y

/-- A first maximum stays one when no larger element follows. -/
theorem IsFirstMax.snoc {pre : List K} {place : ℕ} {largest x : K} (h : IsFirstMax pre place)
    (hlargest : pre[place]? = some largest) (hx : ¬largest < x) : IsFirstMax (pre ++ [x]) place := by
  have hplace : (pre ++ [x])[place]? = some largest := by
    rw [List.getElem?_append_left h.lt_length, hlargest]
  refine ⟨by rw [List.length_append]; exact Nat.lt_add_right _ h.lt_length, ?_, ?_⟩
  · intro i y z hy hz
    obtain rfl : largest = z := Option.some.inj (hplace.symm.trans hz)
    by_cases hi : i < pre.length
    · rw [List.getElem?_append_left hi] at hy
      exact h.le i y largest hy hlargest
    · rw [List.getElem?_append_right (not_lt.1 hi), List.getElem?_singleton] at hy
      split at hy
      · cases hy
        exact not_lt.1 hx
      · cases hy
  · intro i hi y z hy hz
    rw [List.getElem?_append_left (hi.trans h.lt_length)] at hy
    rw [List.getElem?_append_left h.lt_length] at hz
    exact h.lt i hi y z hy hz

/-- A larger element than all before it is the first maximum. -/
theorem IsFirstMax.new {pre : List K} {place : ℕ} {largest x : K} (h : IsFirstMax pre place)
    (hlargest : pre[place]? = some largest) (hx : largest < x) : IsFirstMax (pre ++ [x]) pre.length := by
  have hlast : (pre ++ [x])[pre.length]? = some x := by simp
  have hbefore : ∀ i < pre.length, ∀ y, (pre ++ [x])[i]? = some y → y < x := by
    intro i hi y hy
    rw [List.getElem?_append_left hi] at hy
    exact (h.le i y largest hy hlargest).trans_lt hx
  refine ⟨by simp, ?_, ?_⟩
  · intro i y z hy hz
    obtain rfl : x = z := Option.some.inj (hlast.symm.trans hz)
    by_cases hi : i < pre.length
    · exact (hbefore i hi y hy).le
    · rw [List.getElem?_append_right (not_lt.1 hi), List.getElem?_singleton] at hy
      split at hy
      · cases hy
        exact le_rfl
      · cases hy
  · intro i hi y z hy hz
    obtain rfl : x = z := Option.some.inj (hlast.symm.trans hz)
    exact hbefore i hi y hy

theorem maxElementFrom_spec (xs : List K) {pre : List K} {place : ℕ} {largest : K}
    (h : IsFirstMax pre place) (hlargest : pre[place]? = some largest) :
    IsFirstMax (pre ++ xs) (maxElementFrom largest place pre.length xs) := by
  induction xs generalizing pre place largest with
  | nil => simpa [maxElementFrom] using h
  | cons x xs ih =>
    have hsplit : pre ++ x :: xs = pre ++ [x] ++ xs := by simp
    have hlen : pre.length + 1 = (pre ++ [x]).length := by simp
    rw [hsplit, maxElementFrom, hlen]
    split
    · rename_i hx
      exact ih (h.new hlargest hx) (by simp)
    · rename_i hx
      exact ih (h.snoc hlargest hx) (by rw [List.getElem?_append_left h.lt_length, hlargest])

theorem predictedLabel_spec {row : List K} (hne : row ≠ []) : IsFirstMax row (predictedLabel row) := by
  cases row with
  | nil => exact absurd rfl hne
  | cons x xs =>
    have hone : IsFirstMax [x] 0 := by
      refine ⟨Nat.one_pos, fun i y z hy hz => ?_, fun i hi => absurd hi (Nat.not_lt_zero i)⟩
      rw [List.getElem?_singleton] at hy hz
      split at hy
      · cases hy
        cases hz
        exact le_rfl
      · cases hy
    exact maxElementFrom_spec xs hone rfl

/-- There is one such place. -/
theorem IsFirstMax.unique {row : List K} {p q : ℕ} (hp : IsFirstMax row p) (hq : IsFirstMax row q) :
    p = q := by
  have hget : ∀ i, i < row.length → ∃ x, row[i]? = some x := fun i hi => ⟨_, List.getElem?_eq_getElem hi⟩
  obtain ⟨x, hx⟩ := hget p hp.lt_length
  obtain ⟨y, hy⟩ := hget q hq.lt_length
  rcases lt_trichotomy p q with hlt | rfl | hlt
  · exact absurd (hq.lt p hlt x y hx hy) (not_lt.2 (hp.le q y x hy hx))
  · rfl
  · exact absurd (hp.lt q hlt y x hy hx) (not_lt.2 (hq.le p x y hx hy))

theorem predictedLabel_replicate (n : ℕ) (x : K) : predictedLabel (List.replicate n x) = 0 := by
  cases n with
  | zero => rfl
  | succ n =>
    have hne : List.replicate (n + 1) x ≠ [] := by simp
    have hzero : IsFirstMax (List.replicate (n + 1) x) 0 := by
      refine ⟨by simp, fun i y z hy hz => ?_, fun i hi => absurd hi (Nat.not_lt_zero i)⟩
      rw [List.getElem?_replicate] at hy hz
      split at hy <;> split at hz <;> simp_all
    exact (predictedLabel_spec hne).unique hzero

end

/-! ## The rows of the results -/

/-- `results[j][i] = value` -/
def storeResult (results : List (List K)) (j i : ℕ) (value : K) : Except Error (List (List K)) := do
  let row ← readVector results j
  if i < row.length then return results.set j (row.set i value) else throw .bufferOverflow

/-- The loop over `j`, for the label `i`. -/
def storeLabel (param : CallbackParam) (i : ℕ) (tmpResults : List K) (results : List (List K)) :
    Except Error (List (List K)) := do
  let (results, _) ← (List.range' param.imgBegIdx (param.imgEndIdx - param.imgBegIdx)).foldlM
    (fun ((results, counter) : List (List K) × ℕ) j => do
      let value ← readVector tmpResults counter
      return (← storeResult results j i value, counter + 1)) (results, 0)
  return results

/-- The loop over the labels. `slots` decrypts and decodes. -/
def decodeResults [Zero K] (slots : Ct → List K) (labels imgCount : ℕ) (param : CallbackParam)
    (encResults : List Ct) : Except Error (List (List K)) :=
  (List.range labels).foldlM (fun results i => do
    storeLabel param i (slots (← readVector encResults i)) results)
    (List.replicate imgCount (List.replicate labels 0))

/-- The loop over the images. -/
def correctPredictionCount [LinearOrder K] (testLbls : List UInt8) (imgCount : ℕ)
    (results : List (List K)) : Except Error ℕ :=
  (List.range imgCount).foldlM (fun count i => do
    let row ← readVector results i
    let label ← readVector testLbls i
    return if predictedLabel row = label.toNat then count + 1 else count) 0

/-- `callback_func`, to its `correct_prediction_count`. -/
def callbackFunc [Zero K] [LinearOrder K] (slots : Ct → List K) (labels : ℕ) (testLbls : List UInt8)
    (imgCount : ℕ) (param : CallbackParam) (encResults : List Ct) : Except Error ℕ := do
  correctPredictionCount testLbls imgCount (← decodeResults slots labels imgCount param encResults)

/-- Rows that hold the values of `f`. -/
def matrix (rows cols : ℕ) (f : ℕ → ℕ → K) : List (List K) :=
  (List.range rows).map fun j => (List.range cols).map (f j)

section

variable {rows cols : ℕ} {f : ℕ → ℕ → K}

theorem replicate_eq_matrix (rows cols : ℕ) (x : K) :
    List.replicate rows (List.replicate cols x) = matrix rows cols fun _ _ => x := by
  simp [matrix, List.map_const']

theorem readVector_matrix {j : ℕ} (hj : j < rows) :
    readVector (matrix rows cols f) j = .ok ((List.range cols).map (f j)) := by
  simp [readVector, matrix, List.getElem?_range hj]

theorem storeResult_matrix {j i : ℕ} (hj : j < rows) (hi : i < cols) (value : K) :
    storeResult (matrix rows cols f) j i value =
      .ok (matrix rows cols fun j' i' => if j' = j ∧ i' = i then value else f j' i') := by
  have hlen : i < ((List.range cols).map (f j)).length := by simpa using hi
  rw [storeResult, readVector_matrix hj, ok_bind, if_pos hlen]
  refine congrArg Except.ok (List.ext_getElem? fun j' => ?_)
  by_cases hj' : j' = j
  · subst hj'
    rw [List.getElem?_set_self (by simpa [matrix] using hj)]
    simp only [matrix, List.getElem?_map, List.getElem?_range hj, Option.map_some, true_and]
    refine congrArg some (List.ext_getElem? fun i' => ?_)
    by_cases hi' : i' = i
    · subst hi'
      rw [List.getElem?_set_self hlen]
      simp [List.getElem?_range hi]
    · rw [List.getElem?_set_ne (Ne.symm hi')]
      by_cases hlt : i' < cols <;> simp [hlt, hi']
  · rw [List.getElem?_set_ne (Ne.symm hj')]
    by_cases hlt : j' < rows <;> simp [matrix, hlt, hj']

/-- The loop over `j` from slot `counter` on stores the slots into the rows from `beg + counter` on. -/
theorem storeLabel_loop (beg : ℕ) {i : ℕ} (hi : i < cols) {tmpResults : List K} {g : ℕ → K} (n : ℕ) :
    ∀ (counter : ℕ) (f : ℕ → ℕ → K), beg + counter + n ≤ rows →
      (∀ k, counter ≤ k → k < counter + n → tmpResults[k]? = some (g k)) →
      (List.range' (beg + counter) n).foldlM (fun ((results, counter) : List (List K) × ℕ) j => do
        let value ← readVector tmpResults counter
        return (← storeResult results j i value, counter + 1)) (matrix rows cols f, counter) =
      (.ok (matrix rows cols fun j' i' =>
        if i' = i ∧ beg + counter ≤ j' ∧ j' < beg + counter + n then g (j' - beg) else f j' i',
        counter + n) : Except Error (List (List K) × ℕ)) := by
  induction n with
  | zero =>
    intro counter f _ _
    have hnone : ∀ j' i', ¬(i' = i ∧ beg + counter ≤ j' ∧ j' < beg + counter + 0) := by omega
    simp only [if_neg (hnone _ _)]
    rfl
  | succ n ih =>
    intro counter f hle hslots
    have hread : readVector tmpResults counter = .ok (g counter) := by
      rw [readVector, hslots counter le_rfl (by omega)]
    have hstep := ih (counter + 1)
      (fun j' i' => if j' = beg + counter ∧ i' = i then g counter else f j' i') (by omega)
      fun k hk hlt => hslots k (by omega) (by omega)
    rw [List.range'_succ, List.foldlM_cons]
    simp only [hread, ok_bind, storeResult_matrix (show beg + counter < rows by omega) hi, pure_eq_ok]
    refine hstep.trans (congrArg Except.ok (Prod.ext ?_ (by omega)))
    refine congrArg (matrix rows cols) (funext fun j' => funext fun i' => ?_)
    by_cases hi' : i' = i
    · by_cases hj' : j' = beg + counter
      · subst hj'
        rw [if_neg (by omega), if_pos ⟨rfl, hi'⟩, if_pos ⟨hi', by omega⟩, Nat.add_sub_cancel_left]
      · by_cases hin : beg + (counter + 1) ≤ j' ∧ j' < beg + (counter + 1) + n
        · rw [if_pos ⟨hi', hin⟩, if_pos ⟨hi', by omega⟩]
        · rw [if_neg (fun h => hin h.2), if_neg (fun h => hj' h.1), if_neg (by omega)]
    · rw [if_neg (fun h => hi' h.1), if_neg (fun h => hi' h.2), if_neg (fun h => hi' h.1)]

/-- The slots of one label go into the rows of the range. -/
theorem storeLabel_matrix {param : CallbackParam} (hbeg : param.imgBegIdx ≤ param.imgEndIdx)
    (hend : param.imgEndIdx ≤ rows) {i : ℕ} (hi : i < cols) {tmpResults : List K} {g : ℕ → K}
    (hslots : ∀ k < param.imgEndIdx - param.imgBegIdx, tmpResults[k]? = some (g k)) :
    storeLabel param i tmpResults (matrix rows cols f) =
      .ok (matrix rows cols fun j' i' =>
        if i' = i ∧ param.imgBegIdx ≤ j' ∧ j' < param.imgEndIdx then g (j' - param.imgBegIdx)
        else f j' i') := by
  have hloop := storeLabel_loop param.imgBegIdx hi (param.imgEndIdx - param.imgBegIdx) 0 f
    (show _ ≤ rows by omega) fun k _ hk => hslots k (by omega)
  rw [Nat.add_zero, Nat.add_sub_cancel' hbeg] at hloop
  rw [storeLabel, hloop]
  rfl

/-- Each row of the range holds its slot of each ciphertext, and the other rows hold zeros. -/
theorem decodeResults_eq [Zero K] {slots : Ct → List K} {labels imgCount : ℕ} {param : CallbackParam}
    (hbeg : param.imgBegIdx ≤ param.imgEndIdx) (hend : param.imgEndIdx ≤ imgCount)
    {encResults : List Ct} {g : ℕ → ℕ → K}
    (hresults : ∀ i < labels, ∃ ctxt, encResults[i]? = some ctxt ∧
      ∀ k < param.imgEndIdx - param.imgBegIdx, (slots ctxt)[k]? = some (g k i)) :
    decodeResults slots labels imgCount param encResults =
      .ok (matrix imgCount labels fun j i =>
        if param.imgBegIdx ≤ j ∧ j < param.imgEndIdx then g (j - param.imgBegIdx) i else 0) := by
  have hloop : ∀ n ≤ labels, (List.range n).foldlM (fun results i => do
      storeLabel param i (slots (← readVector encResults i)) results)
      (List.replicate imgCount (List.replicate labels 0)) =
      (.ok (matrix imgCount labels fun j i =>
        if i < n ∧ param.imgBegIdx ≤ j ∧ j < param.imgEndIdx then g (j - param.imgBegIdx) i else 0) :
        Except Error (List (List K))) := by
    intro n hn
    induction n with
    | zero => simp [replicate_eq_matrix]
    | succ n ih =>
      obtain ⟨ctxt, hctxt, hslots⟩ := hresults n hn
      have hread : readVector encResults n = .ok ctxt := by rw [readVector, hctxt]
      rw [List.range_succ, List.foldlM_append, ih (by omega), ok_bind, List.foldlM_cons, hread, ok_bind,
        storeLabel_matrix hbeg hend hn hslots, ok_bind, List.foldlM_nil, pure_eq_ok]
      refine congrArg Except.ok (congrArg (matrix imgCount labels) (funext fun j => funext fun i => ?_))
      by_cases hi : i = n
      · subst hi
        simp
      · have hiff : i < n + 1 ↔ i < n := by omega
        simp [hi, hiff]
  rw [decodeResults, hloop labels le_rfl]
  refine congrArg Except.ok (List.map_congr_left fun j _ => List.map_congr_left fun i hi => ?_)
  simp [List.mem_range.1 hi]

end

section

variable [LinearOrder K]

/-- An image is counted when the label of its row is the one of the test set. -/
theorem correctPredictionCount_eq {testLbls : List UInt8} {imgCount labels : ℕ} {f : ℕ → ℕ → K}
    (hlbls : imgCount ≤ testLbls.length) :
    correctPredictionCount testLbls imgCount (matrix imgCount labels f) =
      .ok ((List.range imgCount).countP fun j =>
        predictedLabel ((List.range labels).map (f j)) = (testLbls.getD j 0).toNat) := by
  have hloop : ∀ n ≤ imgCount, (List.range n).foldlM (fun count i => do
      let row ← readVector (matrix imgCount labels f) i
      let label ← readVector testLbls i
      return if predictedLabel row = label.toNat then count + 1 else count) 0 =
      (.ok ((List.range n).countP fun j =>
        predictedLabel ((List.range labels).map (f j)) = (testLbls.getD j 0).toNat) :
        Except Error ℕ) := by
    intro n hn
    induction n with
    | zero => rfl
    | succ n ih =>
      have hlt : n < testLbls.length := hn.trans hlbls
      have hlabel : readVector testLbls n = .ok (testLbls.getD n 0) := by
        rw [readVector, List.getD_eq_getElem?_getD, List.getElem?_eq_getElem hlt]
        rfl
      rw [List.range_succ, List.foldlM_append, ih (by omega), ok_bind, List.foldlM_cons,
        readVector_matrix hn, ok_bind, hlabel, ok_bind, List.countP_append, List.countP_singleton]
      by_cases hcorrect : predictedLabel ((List.range labels).map (f n)) = (testLbls.getD n 0).toNat
      · rw [if_pos hcorrect, if_pos (decide_eq_true hcorrect)]
        rfl
      · rw [if_neg hcorrect, if_neg fun h => hcorrect (of_decide_eq_true h)]
        rfl
  exact hloop imgCount le_rfl

/-- `callback_func` counts the images of the range whose slots are largest at their label first, and
the other images with label 0. -/
theorem callbackFunc_eq [Zero K] {slots : Ct → List K} {labels imgCount : ℕ} {param : CallbackParam}
    (hbeg : param.imgBegIdx ≤ param.imgEndIdx) (hend : param.imgEndIdx ≤ imgCount)
    {encResults : List Ct} {g : ℕ → ℕ → K}
    (hresults : ∀ i < labels, ∃ ctxt, encResults[i]? = some ctxt ∧
      ∀ k < param.imgEndIdx - param.imgBegIdx, (slots ctxt)[k]? = some (g k i))
    {testLbls : List UInt8} (hlbls : imgCount ≤ testLbls.length) :
    callbackFunc slots labels testLbls imgCount param encResults =
      .ok ((List.range imgCount).countP fun j =>
        (if param.imgBegIdx ≤ j ∧ j < param.imgEndIdx then
          predictedLabel ((List.range labels).map (g (j - param.imgBegIdx))) else 0) =
          (testLbls.getD j 0).toNat) := by
  rw [callbackFunc, decodeResults_eq hbeg hend hresults, ok_bind, correctPredictionCount_eq hlbls]
  refine congrArg Except.ok (List.countP_congr fun j _ => ?_)
  by_cases hin : param.imgBegIdx ≤ j ∧ j < param.imgEndIdx
  · simp [hin]
  · have hzeros : ((List.range labels).map fun _ => (0 : K)) = List.replicate labels 0 := by
      simp [List.map_const']
    simp [hin, hzeros, predictedLabel_replicate]

end

end Client
