import PPCNN.Client.EncryptImages
import PPCNN.Lib.System

/-!
# The demo client (`demo/client/main.cpp`)

`compute` encrypts a range of the test images in each step and sends it with `callback_func`, which stores
the slots of the results into the rows of the range. The range comes to the callback through one
`CallbackParam` that all queries share. Two results:

* `coversOnce_iff`: the ranges cover each image once exactly if one step is enough.
* `decoded_reachable`: a callback stores into the rows of its own query as long as it reads the range
  before a later step has assigned it.

The id of a query, the decrypted values and the accuracy are left out: a row holds the number of the
slot that it got.
-/

set_option autoImplicit false

namespace Client

open Lib Cnn

variable {K R Ct : Type}

/-! ## The ranges -/

/-- `step_count` -/
def stepCount (testImgCount slotCount : ℕ) : ℕ := testImgCount / slotCount + 1

/-- `img_count_in_step`, where `remain_img_count` is still `test_img_count`. -/
def imgCountInStep (testImgCount slotCount : ℕ) : ℕ :=
  if slotCount < testImgCount then slotCount else testImgCount

/-- `beg_idx` -/
def begIdx (slotCount step : ℕ) : ℕ := step * slotCount

/-- `end_idx` -/
def endIdx (testImgCount slotCount step : ℕ) : ℕ :=
  begIdx slotCount step + imgCountInStep testImgCount slotCount

/-- Image `i` is in the range of the step. -/
def InRange (n S step i : ℕ) : Prop := begIdx S step ≤ i ∧ i < endIdx n S step

instance (n S step i : ℕ) : Decidable (InRange n S step i) := inferInstanceAs (Decidable (_ ∧ _))

/-- The ranges of the steps cover the `n` images, each once, and the loops over them stay inside. -/
structure CoversOnce (n S : ℕ) : Prop where
  nonempty : ∀ step < stepCount n S, begIdx S step < endIdx n S step
  fits : ∀ step < stepCount n S, endIdx n S step - begIdx S step ≤ S
  inside : ∀ step < stepCount n S, endIdx n S step ≤ n
  disjoint : ∀ step < stepCount n S, ∀ step' < stepCount n S, step ≠ step' →
    ∀ i, InRange n S step i → ¬InRange n S step' i
  union : ∀ i < n, ∃ step < stepCount n S, InRange n S step i
  /-- the loop of `encryptImages` over `idx` -/
  encrypted : ∀ step < stepCount n S,
    ∀ idx ∈ slotIndices n S (begIdx S step) (endIdx n S step), idx < n
  /-- the loop of `callback_func` over `j` -/
  stored : ∀ step < stepCount n S, ∀ j, InRange n S step j → j < n

section

variable {n S : ℕ}

theorem imgCountInStep_le (n S : ℕ) : imgCountInStep n S ≤ S := by
  unfold imgCountInStep
  split <;> omega

theorem stepCount_of_lt (h : n < S) : stepCount n S = 1 := by
  rw [stepCount, Nat.div_eq_of_lt h]

theorem endIdx_of_lt (h : n < S) : endIdx n S 0 = n := by
  rw [endIdx, begIdx, imgCountInStep, if_neg (by omega)]
  omega

/-- The range of the last step ends past the list when there is more than one step. -/
theorem lt_endIdx_last (hS : 1 ≤ S) (h : S ≤ n) : n < endIdx n S (n / S) := by
  have hcount : imgCountInStep n S = S := by
    unfold imgCountInStep
    split <;> omega
  calc n < n / S * S + S := Nat.lt_div_mul_add hS
    _ = endIdx n S (n / S) := by rw [endIdx, begIdx, hcount]

/-- The ranges are right exactly if all the images fit into the slots with one to spare. -/
theorem coversOnce_iff (hn : 1 ≤ n) (hS : 1 ≤ S) : CoversOnce n S ↔ n < S := by
  constructor
  · intro h
    by_contra hle
    have hlast := h.inside (n / S) (Nat.lt_succ_self _)
    have hlt := lt_endIdx_last hS (not_lt.1 hle)
    omega
  · intro h
    have hend := endIdx_of_lt h
    have hzero : 0 < stepCount n S := by rw [stepCount_of_lt h]; exact Nat.one_pos
    -- the only step, with the whole list as its range
    have honly : ∀ step < stepCount n S, step = 0 ∧ begIdx S step = 0 ∧ endIdx n S step = n := by
      intro step hstep
      rw [stepCount_of_lt h, Nat.lt_one_iff] at hstep
      subst hstep
      exact ⟨rfl, Nat.zero_mul _, hend⟩
    refine ⟨?_, ?_, ?_, ?_, ?_, ?_, ?_⟩
    · intro step hstep
      obtain ⟨-, hbeg, hend⟩ := honly step hstep
      omega
    · intro step hstep
      obtain ⟨-, hbeg, hend⟩ := honly step hstep
      omega
    · intro step hstep
      exact (honly step hstep).2.2.le
    · intro step hstep step' hstep' hne
      exact absurd ((honly step hstep).1.trans (honly step' hstep').1.symm) hne
    · intro i hi
      obtain ⟨-, hbeg, -⟩ := honly 0 hzero
      exact ⟨0, hzero, by omega, by omega⟩
    · intro step hstep idx hidx
      obtain ⟨-, hbeg, hend⟩ := honly step hstep
      rw [slotIndices_eq (by omega) hend.le (by omega)] at hidx
      obtain ⟨k, -, rfl⟩ := List.mem_map.1 hidx
      exact slotImage_lt hn hend.le _ k
    · intro step hstep j hj
      exact (honly step hstep).2.2 ▸ hj.2

end

theorem coversOnce_differs : ¬∀ n S, 1 ≤ n → 1 ≤ S → CoversOnce n S := by
  intro h
  have hlast := (h 3 2 (by decide) (by decide)).inside 1 (by decide)
  exact absurd hlast (by decide)

theorem coversOnce_sample : CoversOnce 3 4 := (coversOnce_iff (by decide) (by decide)).2 (by decide)

/-! ## The sending loop and the callbacks -/

/-- What `compute` of the demo client works on. The image extents are positive constants of the program. -/
structure Demo (K R Ct : Type) where
  cipher : SlotCipher K R Ct
  testImgs : List (List K)
  rows : ℕ
  cols : ℕ
  channels : ℕ
  labels : ℕ
  numberPredictionTrials : ℕ
  /-- what the random generator gives for a cell -/
  rand : ℕ → ℕ → ℕ → R
  /-- a default-constructed ciphertext -/
  blank : Ct
  rows_pos : 0 < rows
  cols_pos : 0 < cols
  channels_pos : 0 < channels

/-- `CallbackParam`; its other fields do not change. -/
structure CallbackParam where
  imgBegIdx : ℕ
  imgEndIdx : ℕ

/-- Where a call of `callback_func` is. -/
inductive CallbackPhase where
  /-- the result has not arrived -/
  | waiting
  /-- at the head of the loop over `i` -/
  | label (i : ℕ)
  /-- at the head of the loop over `j` -/
  | image (i j counter : ℕ)
  | finished
  /-- after an access outside of a vector -/
  | undefined
  deriving DecidableEq

/-- A query that has been sent, with its callback. `results` tells which slot is stored in which row and
label, and as a record of the past there are the step and the range that was encrypted. -/
structure Sent (Ct : Type) where
  step : ℕ
  begIdx : ℕ
  endIdx : ℕ
  encInputs : Tensor3 Ct
  phase : CallbackPhase
  results : ℕ → ℕ → Option ℕ

/-- Where the sending loop is. -/
inductive SenderPhase where
  | setBeg
  | setEnd
  /-- at the head of the loop over the trials -/
  | trial (n : ℕ)
  | done
  /-- after an access outside of a vector -/
  | undefined

structure DemoState (Ct : Type) where
  step : ℕ
  sender : SenderPhase
  param : CallbackParam
  sent : List (Sent Ct)

inductive DemoAction where
  | send
  | callback (k : ℕ)

namespace Demo

variable [Zero K] (demo : Demo K R Ct)

def imgCount : ℕ := demo.testImgs.length

/-- The range `[begIdx, endIdx)` is encrypted. -/
def encrypt (begIdx endIdx : ℕ) : Except Error (Tensor3 Ct) :=
  encryptImages demo.cipher demo.rand demo.testImgs
    ⟨demo.rows, demo.cols, demo.channels, fun _ _ _ => demo.blank⟩ begIdx endIdx

/-- The next assignment to `callback_param`, or trial, of `compute`. -/
def senderStep (s : DemoState Ct) : Option (DemoState Ct) :=
  let beg := Client.begIdx demo.cipher.slotCount s.step
  let stop := Client.endIdx demo.imgCount demo.cipher.slotCount s.step
  match s.sender with
  | .setBeg =>
    if s.step < stepCount demo.imgCount demo.cipher.slotCount then
      some { s with param := { s.param with imgBegIdx := beg }, sender := .setEnd }
    else some { s with sender := .done }
  | .setEnd => some { s with param := { s.param with imgEndIdx := stop }, sender := .trial 0 }
  | .trial n =>
    if n < demo.numberPredictionTrials then
      match demo.encrypt beg stop with
      | .ok encInputs =>
        some { s with
          sent := s.sent ++ [⟨s.step, beg, stop, encInputs, .waiting, fun _ _ => none⟩]
          sender := .trial (n + 1) }
      | .error _ => some { s with sender := .undefined }
    else some { s with step := s.step + 1, sender := .setBeg }
  | .done => none
  | .undefined => none

/-- Up to the next read of `callback_param`: `img_beg_idx` for each label, `img_end_idx` for each image. -/
def callbackStep (param : CallbackParam) (q : Sent Ct) : Option (Sent Ct) :=
  match q.phase with
  | .waiting => some { q with phase := .label 0 }
  | .label i =>
    if i < demo.labels then some { q with phase := .image i param.imgBegIdx 0 }
    else some { q with phase := .finished }
  | .image i j counter =>
    if j < param.imgEndIdx then
      if j < demo.imgCount ∧ counter < demo.cipher.slotCount then
        some { q with
          phase := .image i (j + 1) (counter + 1)
          results := fun row label => if row = j ∧ label = i then some counter else q.results row label }
      else some { q with phase := .undefined }
    else some { q with phase := .label (i + 1) }
  | .finished => none
  | .undefined => none

def step (s : DemoState Ct) : DemoAction → Option (DemoState Ct)
  | .send => demo.senderStep s
  | .callback k => do
    let q ← s.sent[k]?
    let q ← demo.callbackStep s.param q
    return { s with sent := s.sent.set k q }

def system : System (DemoState Ct) DemoAction where
  init s := s = ⟨0, .setBeg, ⟨0, 0⟩, []⟩
  step := demo.step

/-! ### The property -/

/-- The callback of a query stores slot `k` of its results into row `k` of the range of this query, into no
other row, and into all of the range when it is finished. -/
structure Decoded (q : Sent Ct) : Prop where
  begIdx_eq : q.begIdx = Client.begIdx demo.cipher.slotCount q.step
  endIdx_eq : q.endIdx = Client.endIdx demo.imgCount demo.cipher.slotCount q.step
  encrypted : demo.encrypt q.begIdx q.endIdx = .ok q.encInputs
  defined : q.phase ≠ .undefined
  stored : ∀ row label slot, q.results row label = some slot →
    label < demo.labels ∧ row = q.begIdx + slot ∧ row < q.endIdx
  finished : q.phase = .finished → ∀ label < demo.labels, ∀ slot < q.endIdx - q.begIdx,
    q.results (q.begIdx + slot) label = some slot

end Demo

/-- The number of steps whose `img_beg_idx` has been assigned. -/
def DemoState.begAssigned (s : DemoState Ct) : ℕ :=
  match s.sender with
  | .setBeg | .done => s.step
  | _ => s.step + 1

/-- The number of steps whose `img_end_idx` has been assigned. -/
def DemoState.endAssigned (s : DemoState Ct) : ℕ :=
  match s.sender with
  | .trial _ | .undefined => s.step + 1
  | _ => s.step

namespace Demo

variable [Zero K] (demo : Demo K R Ct)

/-- The end of the range that the callback reads next has not been assigned by a later step. -/
def InTime (s : DemoState Ct) (q : Sent Ct) : CallbackPhase → Prop
  | .label i => i < demo.labels → s.begAssigned ≤ q.step + 1
  | .image _ _ _ => s.endAssigned ≤ q.step + 1
  | _ => True

/-- A callback reads the range before a step after that of its query assigns it. -/
def ReadsInTime (s : DemoState Ct) : DemoAction → Prop
  | .send => True
  | .callback k => ∀ q ∈ s.sent[k]?, demo.InTime s q q.phase

instance (s : DemoState Ct) (q : Sent Ct) (phase : CallbackPhase) :
    Decidable (demo.InTime s q phase) :=
  match phase with
  | .label i => inferInstanceAs (Decidable (i < demo.labels → s.begAssigned ≤ q.step + 1))
  | .image _ _ _ => inferInstanceAs (Decidable (s.endAssigned ≤ q.step + 1))
  | .waiting | .finished | .undefined => inferInstanceAs (Decidable True)

instance (s : DemoState Ct) (action : DemoAction) : Decidable (demo.ReadsInTime s action) :=
  match action with
  | .send => inferInstanceAs (Decidable True)
  | .callback k => inferInstanceAs (Decidable (∀ q ∈ s.sent[k]?, demo.InTime s q q.phase))

variable {demo}

/-! ### One callback -/

/-- The cells of `results` that a callback in the phase has visited. -/
def Visited (labels : ℕ) (row label : ℕ) : CallbackPhase → Prop
  | .label i => label < i
  | .image i j _ => label < i ∨ label = i ∧ row < j
  | .finished => label < labels
  | _ => False

/-- The loop invariant of `callback_func`. -/
structure Tracked (demo : Demo K R Ct) (q : Sent Ct) : Prop where
  results_iff : ∀ row label slot, q.results row label = some slot ↔
    row = q.begIdx + slot ∧ row < q.endIdx ∧ Visited demo.labels row label q.phase
  place : match q.phase with
    | .label i => i ≤ demo.labels
    | .image i j counter => i < demo.labels ∧ j = q.begIdx + counter ∧ j ≤ q.endIdx
    | .undefined => False
    | _ => True

/-- The range of a query: the images that were encrypted, which are in the list and fit into the slots. -/
structure GoodRange (demo : Demo K R Ct) (q : Sent Ct) : Prop where
  encrypted : demo.encrypt q.begIdx q.endIdx = .ok q.encInputs
  begIdx_eq : q.begIdx = Client.begIdx demo.cipher.slotCount q.step
  endIdx_eq : q.endIdx = Client.endIdx demo.imgCount demo.cipher.slotCount q.step
  inside : ∀ j, q.begIdx ≤ j → j < q.endIdx → j < demo.imgCount

omit [Zero K] in
theorem Tracked.launch {q : Sent Ct} (hphase : q.phase = .waiting)
    (hresults : ∀ row label, q.results row label = none) : Tracked demo q where
  results_iff row label slot := by
    rw [hresults, hphase]
    simp [Visited]
  place := by rw [hphase]; trivial

theorem GoodRange.le {q : Sent Ct} (h : GoodRange demo q) : q.begIdx ≤ q.endIdx := by
  rw [h.begIdx_eq, h.endIdx_eq]
  exact Nat.le_add_right _ _

theorem GoodRange.fits {q : Sent Ct} (h : GoodRange demo q) : q.endIdx - q.begIdx ≤ demo.cipher.slotCount := by
  have hcount := imgCountInStep_le demo.imgCount demo.cipher.slotCount
  rw [h.begIdx_eq, h.endIdx_eq, Client.endIdx]
  omega

/-- A step of a callback that reads the range of its query. -/
theorem Tracked.step {q q' : Sent Ct} {param : CallbackParam} (hrange : GoodRange demo q)
    (h : Tracked demo q)
    (hbeg : ∀ i, q.phase = .label i → i < demo.labels → param.imgBegIdx = q.begIdx)
    (hend : ∀ i j counter, q.phase = .image i j counter → param.imgEndIdx = q.endIdx)
    (hstep : demo.callbackStep param q = some q') : Tracked demo q' := by
  have hres := h.results_iff
  have hplace := h.place
  cases hphase : q.phase with
  | waiting =>
    simp only [callbackStep, hphase, Option.some.injEq] at hstep
    subst hstep
    refine ⟨fun row label slot => ?_, Nat.zero_le _⟩
    rw [hphase] at hres
    simpa [Visited] using hres row label slot
  | label i =>
    rw [hphase] at hres hplace
    simp only [callbackStep, hphase] at hstep
    split at hstep
    · rename_i hi
      cases hstep
      refine ⟨fun row label slot => ?_, hi, ?_, ?_⟩
      · rw [hres, hbeg i hphase hi]
        simp only [Visited]
        omega
      · exact hbeg i hphase hi
      · rw [hbeg i hphase hi]
        exact hrange.le
    · rename_i hi
      cases hstep
      refine ⟨fun row label slot => ?_, trivial⟩
      rw [hres]
      simp only [Visited]
      have : i = demo.labels := le_antisymm hplace (not_lt.1 hi)
      rw [this]
  | image i j counter =>
    rw [hphase] at hres hplace
    obtain ⟨hi, hj, hle⟩ := hplace
    simp only [callbackStep, hphase, hend i j counter hphase] at hstep
    split at hstep
    · rename_i hlt
      have hfits := hrange.fits
      have hin := hrange.inside j (by omega) hlt
      rw [if_pos ⟨hin, by omega⟩] at hstep
      cases hstep
      have hnext : j + 1 = q.begIdx + (counter + 1) := by omega
      refine ⟨fun row label slot => ?_, hi, hnext, hlt⟩
      simp only [Visited] at hres ⊢
      split
      · rename_i hcell
        rw [Option.some.injEq]
        omega
      · rename_i hcell
        rw [hres]
        omega
    · rename_i hlt
      cases hstep
      refine ⟨fun row label slot => ?_, hi⟩
      rw [hres]
      simp only [Visited]
      omega
  | finished =>
    simp only [callbackStep, hphase] at hstep
    cases hstep
  | undefined =>
    rw [hphase] at hplace
    exact hplace.elim

omit [Zero K] in
theorem callbackStep_frame {q q' : Sent Ct} {param : CallbackParam}
    (hstep : demo.callbackStep param q = some q') :
    q'.step = q.step ∧ q'.begIdx = q.begIdx ∧ q'.endIdx = q.endIdx ∧ q'.encInputs = q.encInputs := by
  unfold callbackStep at hstep
  repeat' split at hstep
  all_goals
    cases hstep
    try exact ⟨rfl, rfl, rfl, rfl⟩

theorem GoodRange.callbackStep {q q' : Sent Ct} {param : CallbackParam} (h : GoodRange demo q)
    (hstep : demo.callbackStep param q = some q') : GoodRange demo q' := by
  obtain ⟨hs, hb, he, hi⟩ := callbackStep_frame hstep
  refine ⟨?_, ?_, ?_, ?_⟩
  · rw [hb, he, hi]
    exact h.encrypted
  · rw [hb, hs]
    exact h.begIdx_eq
  · rw [he, hs]
    exact h.endIdx_eq
  · rw [hb, he]
    exact h.inside

theorem Tracked.decoded {q : Sent Ct} (h : Tracked demo q) (hrange : GoodRange demo q) :
    Decoded demo q where
  begIdx_eq := hrange.begIdx_eq
  endIdx_eq := hrange.endIdx_eq
  encrypted := hrange.encrypted
  defined hphase := by
    have hplace := h.place
    rw [hphase] at hplace
    exact hplace
  stored row label slot hresult := by
    obtain ⟨hrow, hlt, hvisited⟩ := (h.results_iff row label slot).1 hresult
    refine ⟨?_, hrow, hlt⟩
    have hplace := h.place
    cases hphase : q.phase <;> rw [hphase] at hplace hvisited <;> simp only [Visited] at hvisited <;> omega
  finished hphase label hlabel slot hslot :=
    (h.results_iff _ _ _).2 ⟨rfl, by omega, by rw [hphase]; exact hlabel⟩

/-! ### The sending loop -/

/-- What holds between the sending loop, the parameter and the callbacks. -/
structure DemoInv (demo : Demo K R Ct) (s : DemoState Ct) : Prop where
  imgBegIdx_eq : 0 < s.begAssigned →
    s.param.imgBegIdx = Client.begIdx demo.cipher.slotCount (s.begAssigned - 1)
  imgEndIdx_eq : 0 < s.endAssigned →
    s.param.imgEndIdx = Client.endIdx demo.imgCount demo.cipher.slotCount (s.endAssigned - 1)
  step_lt : s.step < s.begAssigned → s.step < stepCount demo.imgCount demo.cipher.slotCount
  sent_step : ∀ q ∈ s.sent, q.step < s.endAssigned
  sent_range : ∀ q ∈ s.sent, GoodRange demo q
  sent_tracked : ∀ q ∈ s.sent, Tracked demo q

theorem endAssigned_le (s : DemoState Ct) : s.endAssigned ≤ s.begAssigned := by
  unfold DemoState.endAssigned DemoState.begAssigned
  split <;> split <;> first | omega | simp_all

/-- A range that is encrypted lies in the list. -/
theorem goodRange_of_encrypt {q : Sent Ct}
    (hstep : q.step < stepCount demo.imgCount demo.cipher.slotCount)
    (hbeg : q.begIdx = Client.begIdx demo.cipher.slotCount q.step)
    (hend : q.endIdx = Client.endIdx demo.imgCount demo.cipher.slotCount q.step)
    (h : demo.encrypt q.begIdx q.endIdx = .ok q.encInputs) : GoodRange demo q := by
  refine ⟨h, hbeg, hend, fun j hj hlt => ?_⟩
  by_cases hone : demo.imgCount < demo.cipher.slotCount
  · rw [stepCount_of_lt hone] at hstep
    rw [hend, Nat.lt_one_iff.1 hstep, endIdx_of_lt hone] at hlt
    exact hlt
  · -- all the slots are of the range, so the loop of `encryptImages` visits it without a remainder
    have hcount : q.endIdx = q.begIdx + demo.cipher.slotCount := by
      rw [hend, hbeg, Client.endIdx, imgCountInStep]
      split <;> omega
    refine lt_of_encryptImages demo.rows_pos demo.cols_pos demo.channels_pos h ?_
    rw [slotIndices, if_neg (by omega), List.mem_range']
    exact ⟨j - q.begIdx, by omega, by omega⟩

theorem DemoInv.senderStep {s s' : DemoState Ct} (h : DemoInv demo s)
    (hstep : demo.senderStep s = some s') : DemoInv demo s' := by
  obtain ⟨step, sender, param, sent⟩ := s
  obtain ⟨hbeg, hend, hlt, hsent, hrange, htracked⟩ := h
  cases sender with
  | setBeg =>
    simp only [Demo.senderStep] at hstep
    split at hstep
    · rename_i hcount
      cases hstep
      exact ⟨fun _ => rfl, hend, fun _ => hcount, hsent, hrange, htracked⟩
    · cases hstep
      exact ⟨hbeg, hend, hlt, hsent, hrange, htracked⟩
  | setEnd =>
    cases hstep
    exact ⟨hbeg, fun _ => rfl, hlt, fun q hq => Nat.lt_succ_of_lt (hsent q hq), hrange, htracked⟩
  | trial n =>
    have hcount := hlt (Nat.lt_succ_self step)
    simp only [Demo.senderStep] at hstep
    split at hstep
    · split at hstep
      · rename_i encInputs hencrypt
        cases hstep
        refine ⟨hbeg, hend, hlt, ?_, ?_, ?_⟩
        · exact List.forall_mem_append.2 ⟨hsent, List.forall_mem_singleton.2 (Nat.lt_succ_self step)⟩
        · exact List.forall_mem_append.2 ⟨hrange, List.forall_mem_singleton.2
            (goodRange_of_encrypt hcount rfl rfl hencrypt)⟩
        · exact List.forall_mem_append.2 ⟨htracked, List.forall_mem_singleton.2
            (.launch rfl fun _ _ => rfl)⟩
      · cases hstep
        exact ⟨hbeg, hend, hlt, hsent, hrange, htracked⟩
    · cases hstep
      exact ⟨hbeg, hend, fun hlt => absurd hlt (lt_irrefl _), hsent, hrange, htracked⟩
  | done => cases hstep
  | undefined => cases hstep

theorem DemoInv.callback {s s' : DemoState Ct} {k : ℕ} (h : DemoInv demo s)
    (htime : demo.ReadsInTime s (.callback k)) (hstep : demo.step s (.callback k) = some s') :
    DemoInv demo s' := by
  obtain ⟨q, hq, hstep⟩ := Option.bind_eq_some_iff.1 hstep
  obtain ⟨q', hq', hstep⟩ := Option.bind_eq_some_iff.1 hstep
  cases hstep
  have hmem := List.mem_of_getElem? hq
  have hold := h.sent_step q hmem
  have hle := endAssigned_le s
  have htime := htime q hq
  have htracked : Tracked demo q' := by
    refine (h.sent_tracked q hmem).step (h.sent_range q hmem) ?_ ?_ hq'
    · intro i hphase hi
      rw [hphase] at htime
      have hlast : s.begAssigned - 1 = q.step := by
        have := htime hi
        omega
      rw [h.imgBegIdx_eq (by omega), hlast, (h.sent_range q hmem).begIdx_eq]
    · intro i j counter hphase
      rw [hphase] at htime
      have hlast : s.endAssigned - 1 = q.step := by
        have : s.endAssigned ≤ q.step + 1 := htime
        omega
      rw [h.imgEndIdx_eq (by omega), hlast, (h.sent_range q hmem).endIdx_eq]
  have hset : ∀ {P : Sent Ct → Prop}, (∀ q ∈ s.sent, P q) → P q' → ∀ q ∈ s.sent.set k q', P q := by
    intro P hall hnew q1 hq1
    rcases List.mem_or_eq_of_mem_set hq1 with hq1 | rfl
    · exact hall q1 hq1
    · exact hnew
  refine ⟨h.imgBegIdx_eq, h.imgEndIdx_eq, h.step_lt, hset h.sent_step ?_,
    hset h.sent_range ((h.sent_range q hmem).callbackStep hq'), hset h.sent_tracked htracked⟩
  rw [(callbackStep_frame hq').1]
  exact hold

theorem demoInv_reachable {s : DemoState Ct} (h : demo.system.Reachable demo.ReadsInTime s) :
    DemoInv demo s := by
  refine h.invariant (fun s hs => ?_) (fun s action s' hs htime hstep => ?_)
  · subst hs
    refine ⟨?_, ?_, ?_, ?_, ?_, ?_⟩ <;> simp [DemoState.begAssigned, DemoState.endAssigned]
  · cases action with
    | send => exact hs.senderStep hstep
    | callback k => exact hs.callback htime hstep

/-- In a run in which every callback reads in time, each result goes into the rows of its own range. -/
theorem decoded_reachable (demo : Demo K R Ct) {s : DemoState Ct}
    (h : demo.system.Reachable demo.ReadsInTime s) : ∀ q ∈ s.sent, Decoded demo q := by
  intro q hq
  have hinv := demoInv_reachable h
  exact (hinv.sent_tracked q hq).decoded (hinv.sent_range q hq)

/-- Six images of one pixel, in two steps of three. -/
def sample : Demo UInt8 Unit (List UInt8) where
  cipher := openCipher
  testImgs := [[1], [2], [3], [4], [5], [6]]
  rows := 1
  cols := 1
  channels := 1
  labels := 1
  numberPredictionTrials := 1
  rand _ _ _ := ()
  blank := []
  rows_pos := Nat.one_pos
  cols_pos := Nat.one_pos
  channels_pos := Nat.one_pos

/-- The first query is sent. -/
def sampleSend : List DemoAction := [.send, .send, .send]

/-- The first callback runs to its end. -/
def sampleInTime : List DemoAction := sampleSend ++ List.replicate 7 (.callback 0)

/-- The second step assigns its range, and then the first callback stores a slot. -/
def sampleLate : List DemoAction := sampleSend ++ List.replicate 3 .send ++ List.replicate 3 (.callback 0)

/-- The first slot of the first query goes into row 3. -/
theorem decoded_reachable_differs :
    ¬∀ s, sample.system.Reachable System.anyStep s → ∀ q ∈ s.sent, Decoded sample q := by
  intro h
  have hrun : ((sample.system.run System.anyStep ⟨0, .setBeg, ⟨0, 0⟩, []⟩ sampleLate).map fun s =>
      s.sent.map fun q => (q.begIdx, q.results 3 0)) = some [(0, some 0)] := by decide
  obtain ⟨s, hs, hsent⟩ := Option.map_eq_some_iff.1 hrun
  obtain ⟨q, hq, hstored⟩ : ∃ q ∈ s.sent, (q.begIdx, q.results 3 0) = (0, some 0) :=
    List.mem_map.1 (hsent ▸ List.mem_singleton_self _)
  obtain ⟨hbeg, hresult⟩ := Prod.mk.inj hstored
  obtain ⟨-, hrow, -⟩ := (h s (System.Reachable.run (.init rfl) hs) q hq).stored 3 0 0 hresult
  rw [hbeg] at hrow
  cases hrow

theorem decoded_reachable_sample :
    ∃ s, sample.system.Reachable sample.ReadsInTime s ∧ (s.sent.map fun q => q.phase) = [.finished] ∧
      ∀ q ∈ s.sent, Decoded sample q := by
  have hrun : ((sample.system.run sample.ReadsInTime ⟨0, .setBeg, ⟨0, 0⟩, []⟩ sampleInTime).map fun s =>
      s.sent.map fun q => q.phase) = some [.finished] := by decide
  obtain ⟨s, hs, hphase⟩ := Option.map_eq_some_iff.1 hrun
  have hreach : sample.system.Reachable sample.ReadsInTime s := System.Reachable.run (.init rfl) hs
  exact ⟨s, hreach, hphase, decoded_reachable sample hreach⟩

end Demo

end Client
