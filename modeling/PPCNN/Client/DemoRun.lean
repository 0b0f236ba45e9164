import PPCNN.Client.Batch

/-!
# Runs of the demo client with one step (`demo/client/main.cpp`)

When the slots outnumber the images, `compute` makes one step. Then the range that all callbacks share is
assigned before the first query is sent and never again (`Demo.sent_whole`), so in every run, with any
number of trials and callbacks in any order, each query counts the images that the model predicts right
(`demo_counts_predictions`).
-/

set_option autoImplicit false

namespace Client

open Lib Cnn Keras Server Cnn.Proof

variable {K R Pt Ct Params PublicKey RelinKeys : Type}

namespace Demo

section

variable [Zero K] {demo : Demo K R Ct}

/-- When the images fit into the slots with one to spare, no second step assigns its range. -/
theorem begAssigned_le_one (hfit : demo.imgCount < demo.cipher.slotCount) {s : DemoState Ct}
    (h : demo.system.Reachable System.anyStep s) : s.begAssigned ≤ 1 := by
  refine h.invariant (I := fun s => s.begAssigned ≤ 1) (fun s hs => ?_)
    (fun s action s' hs _ hstep => ?_)
  · subst hs
    simp [DemoState.begAssigned]
  · cases action with
    | callback k =>
      obtain ⟨q, -, hstep⟩ := Option.bind_eq_some_iff.1 hstep
      obtain ⟨q', -, hstep⟩ := Option.bind_eq_some_iff.1 hstep
      cases hstep
      exact hs
    | send =>
      obtain ⟨step, sender, param, sent⟩ := s
      have hstep : demo.senderStep ⟨step, sender, param, sent⟩ = some s' := hstep
      cases sender with
      | setBeg =>
        simp only [senderStep, stepCount_of_lt hfit] at hstep
        split at hstep
        · rename_i hlt
          cases hstep
          exact hlt
        · cases hstep
          exact hs
      | setEnd =>
        cases hstep
        exact hs
      | trial n =>
        simp only [senderStep] at hstep
        split at hstep
        · split at hstep
          · cases hstep
            exact hs
          · cases hstep
            exact hs
        · cases hstep
          exact hs
      | done => cases hstep
      | undefined => cases hstep

/-- So every callback reads the range of its query, whatever the interleaving. -/
theorem reachable_inTime (hfit : demo.imgCount < demo.cipher.slotCount) {s : DemoState Ct}
    (h : demo.system.Reachable System.anyStep s) : demo.system.Reachable demo.ReadsInTime s := by
  induction h with
  | init hs => exact .init hs
  | @step s s' action hs _ hstep ih =>
    refine ih.step ?_ hstep
    cases action with
    | send => trivial
    | callback k =>
      intro q _
      have hbeg := begAssigned_le_one hfit hs
      have hend := endAssigned_le s
      cases hphase : q.phase with
      | label i => exact fun _ => show s.begAssigned ≤ q.step + 1 by omega
      | image i j counter => exact show s.endAssigned ≤ q.step + 1 by omega
      | _ => trivial

/-- A query of such a run is about all the images, and its range is the one that callbacks read. -/
theorem sent_whole (hfit : demo.imgCount < demo.cipher.slotCount) {s : DemoState Ct}
    (h : demo.system.Reachable System.anyStep s) {q : Sent Ct} (hq : q ∈ s.sent) :
    s.param = ⟨0, demo.imgCount⟩ ∧ q.begIdx = 0 ∧ q.endIdx = demo.imgCount ∧ Decoded demo q := by
  have hinv := demoInv_reachable (reachable_inTime hfit h)
  have hbeg := begAssigned_le_one hfit h
  have hle := endAssigned_le s
  have hstep := hinv.sent_step q hq
  have hzero : q.step = 0 := by omega
  have hdecoded := (hinv.sent_tracked q hq).decoded (hinv.sent_range q hq)
  have hbegIdx := hinv.imgBegIdx_eq (by omega)
  have hendIdx := hinv.imgEndIdx_eq (by omega)
  rw [show s.begAssigned - 1 = 0 by omega, begIdx, Nat.zero_mul] at hbegIdx
  rw [show s.endAssigned - 1 = 0 by omega, endIdx_of_lt hfit] at hendIdx
  refine ⟨?_, ?_, ?_, hdecoded⟩
  · rw [← hbegIdx, ← hendIdx]
  · rw [hdecoded.begIdx_eq, hzero, begIdx, Nat.zero_mul]
  · rw [hdecoded.endIdx_eq, hzero, endIdx_of_lt hfit]

end

end Demo

section

variable [Field K] [LinearOrder K] {c : Define K} {scheme : Scheme K R Pt Ct} {m : ServedModel c}
  {S : SealCodecs Params PublicKey RelinKeys Ct}
  {container : KeyContainer (EncryptionKeys Params PublicKey RelinKeys)} {encParams : Params}
  {keyId : Int32} {compParams : Share.ComputationParams} {maxSize : ℕ}

/-- The demo client for a model, with a scheme. -/
def demoOf (scheme : Scheme K R Pt Ct) (m : ServedModel c) (testImgs : List (List K)) (trials : ℕ)
    (rand : ℕ → ℕ → ℕ → R) (blank : Ct) : Demo K R Ct where
  cipher := scheme.cipher
  testImgs
  rows := m.rows
  cols := m.cols
  channels := m.channels
  labels := m.labels
  numberPredictionTrials := trials
  rand
  blank
  rows_pos := m.isModel.positive.1
  cols_pos := m.isModel.positive.2.1
  channels_pos := m.isModel.positive.2.2

/-- One query of a run comes back, and is counted right. -/
theorem sent_counts {network : List (Layer Pt)} {st : BuildState K}
    (hserves : Serves scheme m network st)
    (hconn : Connected container m encParams keyId compParams maxSize) (G : Garbage)
    {testImgs : List (List K)}
    (himages : ∀ image ∈ testImgs, m.channels * m.rows * m.cols ≤ image.length) (hne : testImgs ≠ [])
    (hfit : testImgs.length < scheme.cipher.slotCount) {testLbls : List UInt8}
    (hlbls : testImgs.length ≤ testLbls.length) {trials : ℕ} {rand : ℕ → ℕ → ℕ → R} {blank : Ct}
    (hrequest : ∀ t, (demoOf scheme m testImgs trials rand blank).encrypt 0 testImgs.length = .ok t →
      Sendable S encParams 2112 t.toUnits)
    (hresponse : ∀ t results,
      (demoOf scheme m testImgs trials rand blank).encrypt 0 testImgs.length = .ok t →
      buildAndPredict ⟨scheme.ev, .lp64, c⟩ m.file m.layers .fresh m.option t = .ok results →
      Sendable S encParams 24 results) {s : DemoState Ct}
    (h : (demoOf scheme m testImgs trials rand blank).system.Reachable System.anyStep s) {q : Sent Ct}
    (hq : q ∈ s.sent) {next : NextLayer} (hnext : m.ReadsOwnUnits next) (queryId : Int32) :
    ∃ encResults,
      queryRoundTrip S G container ⟨⟨scheme.ev, .lp64, c⟩, maxSize, next⟩ m.file m.layers m.option
        encParams keyId queryId compParams q.encInputs = .ok [⟨queryId, true, encResults⟩] ∧
      callbackFunc scheme.cipher.slots m.labels testLbls testImgs.length s.param encResults =
        .ok ((List.range testImgs.length).countP fun j =>
          predictedLabel (m.predict (imageTensor m.rows m.cols m.channels (testImgs.getD j []))) =
            (testLbls.getD j 0).toNat) := by
  let demo := demoOf scheme m testImgs trials rand blank
  have hfit' : demo.imgCount < demo.cipher.slotCount := hfit
  obtain ⟨hparam, hbeg, hend, hdecoded⟩ := Demo.sent_whole hfit' h hq
  have hencrypted := hdecoded.encrypted
  rw [hbeg, hend] at hencrypted
  have hrange : RangeFits testImgs.length scheme.cipher.slotCount 0 testImgs.length :=
    ⟨List.length_pos_of_ne_nil hne, Nat.zero_le _, le_rfl, by omega⟩
  obtain ⟨packed, results, hencrypt, hresults, hlength, hslots⟩ :=
    predict_batch hserves himages hrange rand fun _ _ _ => blank
  have hinputs : ⟨m.rows, m.cols, m.channels, packed⟩ = q.encInputs :=
    Except.ok.inj (hencrypt.symm.trans hencrypted)
  rw [← hinputs, hparam]
  refine ⟨results, queryRoundTrip_eq hconn G rfl (hrequest _ hencrypt) hresults hlength
    (hresponse _ _ hencrypt hresults) hnext queryId, (callbackFunc_predictions hrange hlbls hslots).trans ?_⟩
  refine congrArg Except.ok (List.countP_congr fun j hj => ?_)
  rw [if_pos ⟨Nat.zero_le j, List.mem_range.1 hj⟩]

omit [LinearOrder K] in
/-- The callback of a query of such a run ends with slot `k` in row `k`. -/
theorem finished_rows {demo : Demo K R Ct} {s : DemoState Ct}
    (h : demo.system.Reachable System.anyStep s) (hfit : demo.imgCount < demo.cipher.slotCount)
    {q : Sent Ct} (hq : q ∈ s.sent)
    (hfinished : q.phase = .finished) {row label : ℕ} (hrow : row < demo.imgCount)
    (hlabel : label < demo.labels) : q.results row label = some row := by
  obtain ⟨-, hbeg, hend, hdecoded⟩ := Demo.sent_whole hfit h hq
  have hstored := hdecoded.finished hfinished label hlabel row (by rw [hbeg, hend]; exact hrow)
  rwa [hbeg, Nat.zero_add] at hstored

/-- In every state that the demo client reaches, each query that has been sent comes back with a result for
which `callback_func`, under the range that is shared at this time, counts the images whose prediction is
their label, whatever other models the server has built, if the model reads no units of theirs; and its
callback has stored slot `k` into row `k` for every image when it is finished. -/
theorem demo_counts_predictions {network : List (Layer Pt)} {st : BuildState K}
    (hserves : Serves scheme m network st)
    (hconn : Connected container m encParams keyId compParams maxSize) (G : Garbage)
    {testImgs : List (List K)}
    (himages : ∀ image ∈ testImgs, m.channels * m.rows * m.cols ≤ image.length) (hne : testImgs ≠ [])
    (hfit : testImgs.length < scheme.cipher.slotCount) {testLbls : List UInt8}
    (hlbls : testImgs.length ≤ testLbls.length) {trials : ℕ} {rand : ℕ → ℕ → ℕ → R} {blank : Ct}
    (hrequest : ∀ t, (demoOf scheme m testImgs trials rand blank).encrypt 0 testImgs.length = .ok t →
      Sendable S encParams 2112 t.toUnits)
    (hresponse : ∀ t results,
      (demoOf scheme m testImgs trials rand blank).encrypt 0 testImgs.length = .ok t →
      buildAndPredict ⟨scheme.ev, .lp64, c⟩ m.file m.layers .fresh m.option t = .ok results →
      Sendable S encParams 24 results) {s : DemoState Ct}
    (h : (demoOf scheme m testImgs trials rand blank).system.Reachable System.anyStep s) :
    ∀ q ∈ s.sent,
      (∀ (next : NextLayer) (queryId : Int32), m.ReadsOwnUnits next → ∃ encResults,
        queryRoundTrip S G container ⟨⟨scheme.ev, .lp64, c⟩, maxSize, next⟩ m.file m.layers m.option
          encParams keyId queryId compParams q.encInputs = .ok [⟨queryId, true, encResults⟩] ∧
        callbackFunc scheme.cipher.slots m.labels testLbls testImgs.length s.param encResults =
          .ok ((List.range testImgs.length).countP fun j =>
            predictedLabel (m.predict (imageTensor m.rows m.cols m.channels (testImgs.getD j []))) =
              (testLbls.getD j 0).toNat)) ∧
      (q.phase = .finished → ∀ row < testImgs.length, ∀ label < m.labels,
        q.results row label = some row) :=
  fun _ hq => ⟨fun _ queryId hnext => sent_counts hserves hconn G himages hne hfit hlbls hrequest hresponse h
    hq hnext queryId, fun hfinished _ hrow _ hlabel => finished_rows h hfit hq hfinished hrow hlabel⟩

end

/-! ## One image in two slots -/

/-- The second image of the batch, sent twice. -/
def batchDemo : Demo ℚ Unit (Fin 2 → ℚ) :=
  demoOf batchScheme batchModel [[3, 0, 0, 0]] 2 (fun _ _ _ => ()) 0

theorem batchDemo_range : RangeFits [[(3 : ℚ), 0, 0, 0]].length batchScheme.cipher.slotCount 0 1 :=
  ⟨by decide, by decide, by decide, by decide⟩

theorem batchDemo_images : ∀ image ∈ [[(3 : ℚ), 0, 0, 0]],
    batchModel.channels * batchModel.rows * batchModel.cols ≤ image.length :=
  List.forall_mem_singleton.2 le_rfl

/-- The image is in both slots. -/
theorem batchDemo_encrypted : batchDemo.encrypt 0 1 = .ok (pairInputs [3, 0, 0, 0] [3, 0, 0, 0]) :=
  pair_encrypted batchDemo_images batchDemo_range (by decide)

/-- Both queries are out before the callback of the second one begins. The image has label 0, which is
predicted. -/
theorem demo_counts_predictions_sample : ∃ s, batchDemo.system.Reachable System.anyStep s ∧
    (s.sent.map fun q => q.phase) = [.waiting, .finished] ∧
    ∀ q ∈ s.sent, ∃ encResults,
      queryRoundTrip batchSeal sampleGarbage batchContainer batchProcess batchModel.file batchModel.layers
        batchModel.option [7] 5 3 batchParams q.encInputs = .ok [⟨3, true, encResults⟩] ∧
      callbackFunc batchScheme.cipher.slots 2 [0] 1 s.param encResults = .ok 1 := by
  obtain ⟨network, st, hserves⟩ := batch_serves
  have hrun : ((batchDemo.system.run System.anyStep ⟨0, .setBeg, ⟨0, 0⟩, []⟩
      ([.send, .send, .send, .send] ++ List.replicate 8 (.callback 1))).map fun s =>
        s.sent.map fun q => q.phase) = some [.waiting, .finished] := by
    decide +kernel
  obtain ⟨s, hs, hphase⟩ := Option.map_eq_some_iff.1 hrun
  have hreach : batchDemo.system.Reachable System.anyStep s := System.Reachable.run (.init rfl) hs
  have hcomputed : buildAndPredict ⟨batchScheme.ev, .lp64, unroundedDefine⟩ batchModel.file
      batchModel.layers .fresh batchModel.option (pairInputs [3, 0, 0, 0] [3, 0, 0, 0]) =
      .ok [fun _ => 33, fun _ => 24] := by
    refine @pair_computed [3, 0, 0, 0] [3, 0, 0, 0] (fun _ => (33, 24)) ?_
    decide +kernel
  have hrequest : ∀ t, batchDemo.encrypt 0 1 = .ok t → Sendable batchSeal [7] 2112 t.toUnits := by
    intro t ht
    cases batchDemo_encrypted.symm.trans ht
    exact sendable_bytes (by decide +kernel)
  have hresponse : ∀ t results, batchDemo.encrypt 0 1 = .ok t →
      buildAndPredict ⟨batchScheme.ev, .lp64, unroundedDefine⟩ batchModel.file batchModel.layers
        .fresh batchModel.option t = .ok results → Sendable batchSeal [7] 24 results := by
    intro t results ht hresults
    cases batchDemo_encrypted.symm.trans ht
    cases hcomputed.symm.trans hresults
    exact sendable_bytes (by decide +kernel)
  have hlbls : [[(3 : ℚ), 0, 0, 0]].length ≤ ([0] : List UInt8).length := le_rfl
  refine ⟨s, hreach, hphase, fun q hq => ?_⟩
  obtain ⟨hcounts, -⟩ := demo_counts_predictions hserves batch_connected sampleGarbage batchDemo_images
    (by decide) (by decide) hlbls hrequest hresponse hreach q hq
  obtain ⟨encResults, htrip, hcount⟩ := hcounts batchProcess.next 3 batch_readsOwnUnits
  refine ⟨encResults, htrip, hcount.trans ?_⟩
  decide +kernel

end Client
