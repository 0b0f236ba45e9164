import PPCNN.Client.Accuracy
import PPCNN.Client.ResultThread
import PPCNN.Cnn.SquareNetworks
import PPCNN.Cnn.Compute
import PPCNN.Cnn.Rebuild
import PPCNN.Cnn.Proof.MachineNetwork

/-!
# A query from the pixels to the accuracy

The way of one query through both programs: `encryptImages` packs a range of images, `send_query` sends
the tensor, `CallbackFunctionQuery` decodes it, `compute` predicts, `CallbackFunctionResultRequest`
answers, the result thread tells the callback, and `callback_func` counts.

`count_eq_predictions`: the count is the number of images whose prediction by the trained model, each
image for itself, is their label.
-/

set_option autoImplicit false

namespace Client

open Lib Cnn Keras Server Cnn.Proof

variable {K R Pt Ct Params PublicKey RelinKeys : Type}

/-! ## What a scheme and a model give -/

/-- SEAL on both sides: the evaluator of the server computes the slots that the client encrypts, and
decryption gives the slots that a ciphertext represents. -/
structure Scheme (K R Pt Ct : Type) [Field K] where
  cipher : SlotCipher K R Ct
  slotCount_pos : 0 < cipher.slotCount
  ev : Evaluator K Pt Ct
  interp : Interp ev (Fin cipher.slotCount → K)
  /-- the scale of a fresh ciphertext -/
  freshScale : K
  rep_encrypt : ∀ r values, interp.rep 0 freshScale (cipher.encrypt r (List.ofFn values)) values
  slots_of_rep : ∀ {level scale ctxt values}, interp.rep level scale ctxt values →
    cipher.slots ctxt = List.ofFn values

/-- A trained model of convolution blocks and what the server computes it with, for which the network is
the model: its extents are below `2 ^ 24`, its weights are in the file, its activations are the ones of the
option, no folded weight is rounded up, and the optimisations of the level keep the activations, paddings
and averages. -/
structure ServedModel {K : Type} [Field K] [LinearOrder K] (c : Define K) where
  file : H5File K
  blocks : List Block
  head : LayerInfo
  denses : List DenseInfo
  level : EOptLevel
  activation : EActivation
  name : String
  rows : ℕ
  cols : ℕ
  channels : ℕ
  labels : ℕ
  isHead : IsHead head
  denses_ne : denses ≠ []
  isModel : IsModel (blockLayers blocks head denses) rows cols channels labels
  below : ExtentsBelow (blockLayers blocks head denses) rows cols
  modelData : ModelData file (blockLayers blocks head denses) (.image rows cols channels)
  dispatches : ∀ b ∈ blocks, Registered (computeOption c level activation name) b.activation ∧
    Dispatches (computeOption c level activation name) b.activation
  unclamped : Along (Unclamped c file) (computeOption c level activation name)
    (buildCalls (computeOption c level activation name).enableFuseLayers
      (blockLayers blocks head denses)) (.image rows cols channels)
  agrees : ∀ l ∈ blockLayers blocks head denses,
    (effective (V := K) c (computeOption c level activation name)).AgreeOn (.keras K c) l

namespace ServedModel

variable [Field K] [LinearOrder K] {c : Define K} (m : ServedModel c)

def layers : List LayerInfo := blockLayers m.blocks m.head m.denses

/-- The option object of `compute`. -/
def option : OptOption K := computeOption c m.level m.activation m.name

/-- What Keras predicts for an image. -/
def predict (image : Tensor3 K) : List K := Keras.predict c (.keras K c) m.file m.layers image

theorem buildAndPredict_eq {image : Tensor3 K}
    (hdims : (image.height, image.width, image.channels) = (m.rows, m.cols, m.channels)) :
    buildAndPredict ⟨.exact K, .unbounded, c⟩ m.file m.layers .fresh m.option image =
      .ok (m.predict image) :=
  (buildAndPredict_blocks m.isHead m.denses_ne m.isModel m.modelData m.dispatches m.unclamped hdims).trans
    (congrArg Except.ok (predict_congr m.agrees image))

theorem length_predict {image : Tensor3 K}
    (hdims : (image.height, image.width, image.channels) = (m.rows, m.cols, m.channels)) :
    (m.predict image).length = m.labels := by
  have hshape : (Value.image image).shape = .image m.rows m.cols m.channels := by
    simp only [Prod.mk.injEq] at hdims
    simp [Value.shape, hdims]
  have hrun : (Keras.run c (.keras K c) m.file m.layers (.image image)).shape = .units m.labels :=
    run_shape (hshape ▸ m.isModel.shapes)
  rw [run_image (hshape ▸ m.isModel.shapes)] at hrun
  exact Shape.units.inj hrun

/-- No layer of the model reads units that another model has left in the process. -/
def ReadsOwnUnits (next : NextLayer) : Prop :=
  next.inUnits = 0 ∨ NoStaleRead next.inUnits (buildCalls m.option.enableFuseLayers m.layers) m.channels

theorem buildAndPredict_next {Pt Ct : Type} {next : NextLayer} (hnext : m.ReadsOwnUnits next)
    (E : Env K Pt Ct) (t : Tensor3 Ct) :
    buildAndPredict E m.file m.layers next m.option t = buildAndPredict E m.file m.layers .fresh m.option t :=
  buildAndPredict_fresh m.isModel hnext E m.file t

theorem allDispatch : AllDispatch m.option m.layers := by
  intro name activation hmem
  obtain ⟨b, hb, rfl⟩ := activation_mem_blocks m.isHead hmem
  exact (m.dispatches b hb).2

end ServedModel

/-- An image of a channel-first vector of pixels. -/
def imageTensor [Zero K] (rows cols channels : ℕ) (pixels : List K) : Tensor3 K where
  height := rows
  width := cols
  channels := channels
  cell row col ch := pixels.getD (pixelPos rows cols row col ch) 0

/-! ## The prediction of a batch -/

section

variable [Field K] [LinearOrder K] {c : Define K} (scheme : Scheme K R Pt Ct) (m : ServedModel c)

omit [LinearOrder K] in
theorem ofFn_getD {n : ℕ} {l : List K} (h : l.length = n) :
    List.ofFn (fun k : Fin n => l.getD k 0) = l := by
  subst h
  refine List.ext_getElem (by simp) fun k hk hk' => ?_
  simp

omit [LinearOrder K] in
theorem map_range_getD {n : ℕ} {l : List K} (h : l.length = n) :
    (List.range n).map (fun i => l.getD i 0) = l := by
  subst h
  refine List.ext_getElem (by simp) fun k hk hk' => ?_
  simp [List.getElem?_eq_getElem hk']

/-- The slots of the cells that hold these pixels. -/
def packedTensor {slotCount rows cols channels : ℕ}
    (pixels : Fin rows → Fin cols → Fin channels → List K) : Tensor3 (Fin slotCount → K) where
  height := rows
  width := cols
  channels := channels
  cell row col ch k := (pixels row col ch).getD k 0

omit [LinearOrder K] in
/-- A slot of all the cells is the image that belongs there. -/
theorem packedTensor_slot {testImgs : List (List K)} {slotCount beginIdx endIdx rows cols channels : ℕ}
    {pixels : Fin rows → Fin cols → Fin channels → List K}
    (hpixels : ∀ (row : Fin rows) (col : Fin cols) (ch : Fin channels),
      HoldsPixels testImgs slotCount beginIdx endIdx (pixelPos rows cols row col ch) (pixels row col ch))
    (k : Fin slotCount) :
    ((packedTensor pixels).map fun slots : Fin slotCount → K => slots k) =
      imageTensor rows cols channels
        (testImgs.getD (slotImage testImgs.length beginIdx endIdx k) []) := by
  refine congrArg (Tensor3.mk rows cols channels)
    (funext fun row => funext fun col => funext fun ch => ?_)
  obtain ⟨pixel, himage, hslot⟩ := (hpixels row col ch).pixel_eq k k.isLt
  obtain ⟨image, hget, hpos⟩ := Option.bind_eq_some_iff.1 himage
  show (pixels row col ch).getD k 0 = List.getD _ _ 0
  rw [List.getD_eq_getElem?_getD, List.getD_eq_getElem?_getD, List.getD_eq_getElem?_getD, hslot, hget]
  exact (congrArg (·.getD 0) hpos).symm

omit [LinearOrder K] in
theorem repImage_packed {rows cols channels : ℕ} (rand : ℕ → ℕ → ℕ → R)
    {pixels : Fin rows → Fin cols → Fin channels → List K}
    (hlength : ∀ row col ch, (pixels row col ch).length = scheme.cipher.slotCount) :
    scheme.interp.RepImage 0 scheme.freshScale
      ⟨rows, cols, channels, fun row col ch =>
        scheme.cipher.encrypt (rand row col ch) (pixels row col ch)⟩ (packedTensor pixels) := by
  refine ⟨rfl, rfl, rfl, fun row col ch => ?_⟩
  have hrep := scheme.rep_encrypt (rand row col ch) fun k => (pixels row col ch).getD k 0
  rw [ofFn_getD (hlength row col ch)] at hrep
  exact hrep

/-- The network that the server has built for the model works on a fresh ciphertext without running out
of primes. -/
structure Serves (network : List (Layer Pt)) (st : BuildState K) : Prop where
  built : buildNetwork ⟨scheme.ev, .lp64, c⟩ m.file m.layers .fresh m.option = .ok (network, st)
  canDrop : ∀ i < st.option.consumedLevel, scheme.interp.canDrop i

variable {scheme m}

/-- Slot `k` of the results holds the prediction for the image in slot `k`. -/
theorem predict_batch {network : List (Layer Pt)} {st : BuildState K} (hserves : Serves scheme m network st)
    {testImgs : List (List K)} (himages : ∀ image ∈ testImgs, m.channels * m.rows * m.cols ≤ image.length)
    {beginIdx endIdx : ℕ} (hrange : RangeFits testImgs.length scheme.cipher.slotCount beginIdx endIdx)
    (rand : ℕ → ℕ → ℕ → R) (cells : Fin m.rows → Fin m.cols → Fin m.channels → Ct) :
    ∃ (packed : Fin m.rows → Fin m.cols → Fin m.channels → Ct) (results : List Ct),
      encryptImages scheme.cipher rand testImgs ⟨m.rows, m.cols, m.channels, cells⟩ beginIdx endIdx =
        .ok ⟨m.rows, m.cols, m.channels, packed⟩ ∧
      buildAndPredict ⟨scheme.ev, .lp64, c⟩ m.file m.layers .fresh m.option
        ⟨m.rows, m.cols, m.channels, packed⟩ = .ok results ∧
      results.length = m.labels ∧
      ∀ label < m.labels, ∃ ctxt, results[label]? = some ctxt ∧
        ∀ k < scheme.cipher.slotCount, (scheme.cipher.slots ctxt)[k]? =
          (m.predict (imageTensor m.rows m.cols m.channels
            (testImgs.getD (slotImage testImgs.length beginIdx endIdx k) [])))[label]? := by
  obtain ⟨pixels, hencrypt, hpixels⟩ := encryptImages_of_le himages hrange rand cells
  have hslot : ∀ k : Fin scheme.cipher.slotCount,
      buildAndPredict ⟨.exact K, .unbounded, c⟩ m.file m.layers .fresh m.option
        ((packedTensor pixels).map fun slots : Fin scheme.cipher.slotCount → K => slots k) =
      .ok (m.predict (imageTensor m.rows m.cols m.channels
        (testImgs.getD (slotImage testImgs.length beginIdx endIdx k) []))) := by
    intro k
    rw [packedTensor_slot fun (row : Fin m.rows) (col : Fin m.cols) (ch : Fin m.channels) =>
      (hpixels row col ch).1]
    exact m.buildAndPredict_eq rfl
  obtain ⟨values, hvalues, hperSlot⟩ :=
    buildAndPredict_slots m.layers m.option .unbounded hslot scheme.slotCount_pos
  have hrep : scheme.interp.RepImage m.option.consumedLevel scheme.freshScale
      ⟨m.rows, m.cols, m.channels, fun row col ch =>
        scheme.cipher.encrypt (rand row col ch) (pixels row col ch)⟩ (packedTensor pixels) := by
    rw [ServedModel.option, computeOption_consumedLevel]
    exact repImage_packed scheme rand fun row col ch => (hpixels row col ch).1.length_eq
  obtain ⟨network', hbuilt', -⟩ := unbounded_of_lp64 m.isModel m.below hserves.built
  obtain ⟨results, scale, hresults, hunits⟩ := buildAndPredict_represents m.isModel hbuilt'
    m.allDispatch hserves.canDrop rfl hrep hvalues
  have hlength : values.length = m.labels := by
    have hlen := congrArg List.length (hperSlot ⟨0, scheme.slotCount_pos⟩)
    rwa [List.length_map, m.length_predict rfl] at hlen
  refine ⟨_, results, hencrypt, (buildAndPredict_lp64 m.isModel m.below _).trans hresults,
    hunits.length.trans hlength, fun label hlabel => ?_⟩
  obtain ⟨ctxt, hread, hctxt⟩ := hunits.read (show label < values.length by omega)
  refine ⟨ctxt, ?_, fun k hk => ?_⟩
  · unfold readVector at hread
    split at hread
    · rename_i x hx
      rw [hx, Except.ok.inj hread]
    · cases hread
  · rw [← hperSlot ⟨k, hk⟩, scheme.slots_of_rep hctxt, List.getElem?_map,
      List.getElem?_eq_getElem (show label < values.length by omega)]
    simp [hk, List.getElem?_eq_getElem (show label < values.length by omega)]

end

/-! ## The way of a query -/

/-- What ends the way of a query early. -/
inductive Failure where
  | computation (e : Error)
  | message (e : Fault)

def computing {α : Type} (x : Except Error α) : Except Failure α := x.mapError .computation

def messaging {α : Type} (x : Except Fault α) : Except Failure α := x.mapError .message

@[simp] theorem computing_ok {α : Type} (a : α) : computing (.ok a) = .ok a := rfl
@[simp] theorem messaging_ok {α : Type} (a : α) : messaging (.ok a) = .ok a := rfl

/-- The process in which the server computes a query. -/
structure Process (K Pt Ct : Type) where
  env : Env K Pt Ct
  /-- the most ciphertexts that a `std::vector` can have -/
  maxSize : ℕ
  /-- the file-scope variables of `load_model.cpp` -/
  next : NextLayer

/-- From the packed images of the client to the calls of its callback. The server has the model files that
the query names, computes with them, and answers with the result. -/
def queryRoundTrip [Field K] [LinearOrder K] (S : SealCodecs Params PublicKey RelinKeys Ct) (G : Garbage)
    (container : KeyContainer (EncryptionKeys Params PublicKey RelinKeys)) (P : Process K Pt Ct)
    (file : H5File K) (layers : List LayerInfo) (option : OptOption K) (encParams : Params)
    (keyId queryId : Int32) (compParams : Share.ComputationParams) (encPackedImgs : Tensor3 Ct) :
    Except Failure (List (CallbackCall Ct)) := do
  let elemNum := IntArith.lp64.size (encPackedImgs.height * encPackedImgs.width * encPackedImgs.channels)
  let encInputs ← messaging (Share.EncData.ofArray encPackedImgs.toUnits elemNum.toNat)
  let request ← messaging (sendQuery S G keyId compParams encInputs)
  let query ← messaging (callbackFunctionQuery S container request.bytes)
  -- `std::vector<Ciphertext> encrypted_results(query.params_.labels)`
  if P.maxSize < query.compParams.labels.toNat then throw (.computation .lengthError)
  let results ← computing (compute P.env file layers P.next option query.compParams.imgHeight.toNat
    query.compParams.imgWidth.toNat query.compParams.imgChannels.toNat query.ctxts)
  let encResults ← computing (results.mapM id)
  let response ← messaging (callbackFunctionResultRequest S G true encResults)
  return (ResultThread.exec S encParams (fun _ => .ok ()) queryId response.bytes).1

/-- The ciphertexts come back from a message with a header of the given length, which a `size_t` counts. -/
def Sendable (S : SealCodecs Params PublicKey RelinKeys Ct) (encParams : Params) (headerLength : ℕ)
    (ctxts : List Ct) : Prop :=
  (∀ ctxt ∈ ctxts, S.ctxt.RoundTrips encParams ctxt) ∧
    headerLength + (Share.EncData.image S.ctxt ctxts).length < 2 ^ 64

/-- Client and server agree on the keys of `keyId`, and the query gives the extents of the model and a
number of labels for which the server can make a vector. -/
structure Connected [Field K] [LinearOrder K] {c : Define K}
    (container : KeyContainer (EncryptionKeys Params PublicKey RelinKeys)) (m : ServedModel c)
    (encParams : Params) (keyId : Int32) (compParams : Share.ComputationParams) (maxSize : ℕ) : Prop where
  keys : ∃ encKeys, container.getKeys keyId.toInt = .ok encKeys ∧ encKeys.params = encParams
  extents : (compParams.imgHeight.toNat, compParams.imgWidth.toNat, compParams.imgChannels.toNat) =
    (m.rows, m.cols, m.channels)
  count_lt : m.rows * m.cols * m.channels < 2 ^ 64
  labels_lt : m.labels < 2 ^ 64
  labels_le : compParams.labels.toNat ≤ maxSize

section

variable [Field K] [LinearOrder K] {c : Define K} {scheme : Scheme K R Pt Ct} {m : ServedModel c}
  {S : SealCodecs Params PublicKey RelinKeys Ct}
  {container : KeyContainer (EncryptionKeys Params PublicKey RelinKeys)} {encParams : Params}
  {keyId : Int32} {compParams : Share.ComputationParams} {maxSize : ℕ}

theorem mapM_id_ok {α : Type} (l : List α) :
    (l.map (Except.ok : α → Except Error α)).mapM id = .ok l := by
  induction l with
  | nil => rfl
  | cons a l ih => rw [List.map_cons, List.mapM_cons, ih]; rfl

theorem ServedModel.labels_pos (m : ServedModel c) : 0 < m.labels :=
  (outShapes_positive m.isModel.positive m.isModel.shapes)

/-- The callback is called once, with what the server computes for the tensor of the client. -/
theorem queryRoundTrip_eq (hconn : Connected container m encParams keyId compParams maxSize) (G : Garbage)
    {t : Tensor3 Ct} (hdims : (t.height, t.width, t.channels) = (m.rows, m.cols, m.channels))
    (hrequest : Sendable S encParams 2112 t.toUnits) {results : List Ct}
    (hresults : buildAndPredict ⟨scheme.ev, .lp64, c⟩ m.file m.layers .fresh m.option t = .ok results)
    (hlength : results.length = m.labels) (hresponse : Sendable S encParams 24 results)
    {next : NextLayer} (hnext : m.ReadsOwnUnits next) (queryId : Int32) :
    queryRoundTrip S G container ⟨⟨scheme.ev, .lp64, c⟩, maxSize, next⟩ m.file m.layers m.option encParams
        keyId queryId compParams t = .ok [⟨queryId, true, results⟩] := by
  obtain ⟨encKeys, hkeys, hparams⟩ := hconn.keys
  simp only [Prod.mk.injEq] at hdims
  obtain ⟨hh, hw, hc⟩ := hdims
  have hcount : t.toUnits.length = m.rows * m.cols * m.channels := by rw [t.length_toUnits, hh, hw, hc]
  have helem : (IntArith.lp64.size (t.height * t.width * t.channels)).toNat = t.toUnits.length := by
    rw [hcount, hh, hw, hc]
    exact_mod_cast IntArith.toNat_size_lp64 hconn.count_lt
  have hne : t.toUnits ≠ [] := by
    obtain ⟨hrows, hcols, hchannels⟩ := m.isModel.positive
    refine List.ne_nil_of_length_pos ?_
    rw [hcount]
    exact Nat.mul_pos (Nat.mul_pos hrows hcols) hchannels
  have hne' : results ≠ [] := List.ne_nil_of_length_pos (hlength ▸ m.labels_pos)
  have hsend : Share.EncData.ofArray t.toUnits t.toUnits.length = .ok t.toUnits := by
    rw [Share.EncData.ofArray, if_pos le_rfl, List.take_length]
    rfl
  obtain ⟨request, hsent, -, -, hbytes⟩ := sendQuery_full (G := G) hrequest.1 keyId compParams hrequest.2
  have hquery := callbackFunctionQuery_eq (G := G) hrequest.1 hne (hcount ▸ hconn.count_lt) keyId
    compParams hrequest.2 hkeys hparams
  have hlabels : ¬maxSize < compParams.labels.toNat := Nat.not_lt.2 hconn.labels_le
  have hcompute : compute ⟨scheme.ev, .lp64, c⟩ m.file m.layers next m.option
      compParams.imgHeight.toNat compParams.imgWidth.toNat compParams.imgChannels.toNat t.toUnits =
      .ok (results.map .ok) := by
    have hextents := hconn.extents
    simp only [Prod.mk.injEq] at hextents
    rw [hextents.1, hextents.2.1, hextents.2.2, ← hh, ← hw, ← hc,
      compute_toUnits ⟨scheme.ev, .lp64, c⟩ m.file m.layers next m.option helem,
      m.buildAndPredict_next hnext, hresults]
    rfl
  obtain ⟨response, hanswered, hanswer, hwell, hsuccess⟩ := callbackFunctionResultRequest_response
    hresponse.1 (hlength ▸ hconn.labels_lt) G true hresponse.2
  have hcallback := exec_success (fun _ => .ok ()) queryId hwell hsuccess hne'
  rw [queryRoundTrip]
  simp only [helem, hsend, messaging_ok, ok_bind, hsent, hbytes, hquery, hlabels, if_false, hcompute,
    computing_ok, mapM_id_ok, hanswered, hanswer, hcallback, outcome, hsuccess, if_true]
  rfl

/-- What `callback_func` counts in results whose slots are the predictions. -/
theorem callbackFunc_predictions {testImgs : List (List K)} {beginIdx endIdx : ℕ}
    (hrange : RangeFits testImgs.length scheme.cipher.slotCount beginIdx endIdx) {testLbls : List UInt8}
    (hlbls : testImgs.length ≤ testLbls.length) {results : List Ct}
    (hslots : ∀ label < m.labels, ∃ ctxt, results[label]? = some ctxt ∧
      ∀ k < scheme.cipher.slotCount, (scheme.cipher.slots ctxt)[k]? =
        (m.predict (imageTensor m.rows m.cols m.channels
          (testImgs.getD (slotImage testImgs.length beginIdx endIdx k) [])))[label]?) :
    callbackFunc scheme.cipher.slots m.labels testLbls testImgs.length ⟨beginIdx, endIdx⟩ results =
      .ok ((List.range testImgs.length).countP fun j =>
        (if beginIdx ≤ j ∧ j < endIdx then
          predictedLabel (m.predict (imageTensor m.rows m.cols m.channels (testImgs.getD j []))) else 0) =
          (testLbls.getD j 0).toNat) := by
  let predictions : ℕ → List K := fun j =>
    m.predict (imageTensor m.rows m.cols m.channels (testImgs.getD j []))
  have hlen : ∀ j, (predictions j).length = m.labels := fun j => m.length_predict rfl
  have hfit := hrange.fits
  have hdecoded : ∀ label < m.labels, ∃ ctxt, results[label]? = some ctxt ∧
      ∀ k < endIdx - beginIdx, (scheme.cipher.slots ctxt)[k]? =
        some ((predictions (beginIdx + k)).getD label 0) := by
    intro label hlabel
    obtain ⟨ctxt, hctxt, hslot⟩ := hslots label hlabel
    refine ⟨ctxt, hctxt, fun k hk => ?_⟩
    have himage : slotImage testImgs.length beginIdx endIdx k = beginIdx + k := if_pos hk
    rw [hslot k (by omega), himage, List.getD_eq_getElem?_getD]
    have hlt : label < (predictions (beginIdx + k)).length := by rw [hlen]; exact hlabel
    show (predictions (beginIdx + k))[label]? = some ((predictions (beginIdx + k))[label]?.getD 0)
    rw [List.getElem?_eq_getElem hlt]
    rfl
  let param : CallbackParam := ⟨beginIdx, endIdx⟩
  have hbeg : param.imgBegIdx ≤ param.imgEndIdx := hrange.begin_le
  have hend : param.imgEndIdx ≤ testImgs.length := hrange.end_le
  refine (callbackFunc_eq hbeg hend hdecoded hlbls).trans ?_
  refine congrArg Except.ok (List.countP_congr fun j _ => ?_)
  by_cases hin : beginIdx ≤ j ∧ j < endIdx
  · have hrow : beginIdx + (j - beginIdx) = j := Nat.add_sub_cancel' hin.1
    simp only [param, hin, and_self, if_true, hrow, map_range_getD (hlen j)]
    rfl
  · simp only [param, hin, if_false]

/-- The count of a query that has gone its way. Each image of the range counts if the first maximum of its
prediction is its label, and each other image if its label is 0. -/
theorem count_eq_predictions {network : List (Layer Pt)} {st : BuildState K}
    (hserves : Serves scheme m network st)
    (hconn : Connected container m encParams keyId compParams maxSize) (G : Garbage)
    {testImgs : List (List K)}
    (himages : ∀ image ∈ testImgs, m.channels * m.rows * m.cols ≤ image.length)
    {beginIdx endIdx : ℕ} (hrange : RangeFits testImgs.length scheme.cipher.slotCount beginIdx endIdx)
    {testLbls : List UInt8} (hlbls : testImgs.length ≤ testLbls.length)
    (rand : ℕ → ℕ → ℕ → R) (cells : Fin m.rows → Fin m.cols → Fin m.channels → Ct) {next : NextLayer}
    (hnext : m.ReadsOwnUnits next)
    (hrequest : ∀ t, encryptImages scheme.cipher rand testImgs ⟨m.rows, m.cols, m.channels, cells⟩
      beginIdx endIdx = .ok t → Sendable S encParams 2112 t.toUnits)
    (hresponse : ∀ t results, encryptImages scheme.cipher rand testImgs
      ⟨m.rows, m.cols, m.channels, cells⟩ beginIdx endIdx = .ok t →
      buildAndPredict ⟨scheme.ev, .lp64, c⟩ m.file m.layers .fresh m.option t = .ok results →
      Sendable S encParams 24 results) (queryId : Int32) :
    ∃ (encPackedImgs : Tensor3 Ct) (encResults : List Ct),
      encryptImages scheme.cipher rand testImgs ⟨m.rows, m.cols, m.channels, cells⟩ beginIdx endIdx =
        .ok encPackedImgs ∧
      queryRoundTrip S G container ⟨⟨scheme.ev, .lp64, c⟩, maxSize, next⟩ m.file m.layers m.option
        encParams keyId queryId compParams encPackedImgs = .ok [⟨queryId, true, encResults⟩] ∧
      callbackFunc scheme.cipher.slots m.labels testLbls testImgs.length ⟨beginIdx, endIdx⟩ encResults =
        .ok ((List.range testImgs.length).countP fun j =>
          (if beginIdx ≤ j ∧ j < endIdx then
            predictedLabel (m.predict (imageTensor m.rows m.cols m.channels (testImgs.getD j []))) else 0) =
            (testLbls.getD j 0).toNat) := by
  obtain ⟨packed, results, hencrypt, hresults, hlength, hslots⟩ :=
    predict_batch hserves himages hrange rand cells
  exact ⟨_, results, hencrypt, queryRoundTrip_eq hconn G rfl (hrequest _ hencrypt) hresults hlength
    (hresponse _ _ hencrypt hresults) hnext queryId, callbackFunc_predictions hrange hlbls hslots⟩

end

/-! ## A scheme without noise -/

/-- Exact slots as ciphertexts. -/
def exactScheme (K : Type) [Field K] (slotCount : ℕ) (hpos : 0 < slotCount) :
    Scheme K Unit K (Fin slotCount → K) where
  cipher := {
    slotCount
    encrypt _ values k := values.getD k 0
    encryptValue _ value _ := value
    slots ctxt := List.ofFn ctxt
    slots_encrypt _ _ hlength := ofFn_getD hlength
    slots_encryptValue _ value := List.ofFn_const slotCount value }
  slotCount_pos := hpos
  ev := .exact (Fin slotCount → K)
  interp := exactInterp K (Fin slotCount → K)
  freshScale := 1
  rep_encrypt _ values := by
    funext k
    simp
  slots_of_rep h := congrArg List.ofFn h

/-- Slots of small natural numbers are sent as bytes. -/
def bytesCodec (Ctx : Type) : Share.Codec Ctx (Fin 2 → ℚ) where
  save x := ([.ofNat (x 0).num.toNat, .ofNat (x 1).num.toNat], 2)
  load _ bs :=
    match bs with
    | a :: b :: _ => .ok ⟨![(a.toNat : ℚ), (b.toNat : ℚ)], 2, 2⟩
    | _ => .error "Unexpected end of stream"

/-- The two slots are bytes. -/
def IsBytes (pair : Fin 2 → ℚ) : Prop :=
  pair = ![((UInt8.ofNat (pair 0).num.toNat).toNat : ℚ), ((UInt8.ofNat (pair 1).num.toNat).toNat : ℚ)]

instance (pair : Fin 2 → ℚ) : Decidable (IsBytes pair) := inferInstanceAs (Decidable (_ = _))

theorem bytesCodec_roundTrips {Ctx : Type} (ctx : Ctx) {pair : Fin 2 → ℚ} (h : IsBytes pair) :
    (bytesCodec Ctx).RoundTrips ctx pair where
  saved_eq := rfl
  load_eq _ := congrArg (fun x : Fin 2 → ℚ => Except.ok (Share.Loaded.mk x 2 2)) h.symm

def batchSeal : SealCodecs (List UInt8) (List UInt8) (List UInt8) (Fin 2 → ℚ) :=
  { sampleSeal with ctxt := bytesCodec (List UInt8) }

theorem sendable_bytes {headerLength : ℕ} {ctxts : List (Fin 2 → ℚ)}
    (h : (∀ pair ∈ ctxts, IsBytes pair) ∧
      headerLength + (Share.EncData.image batchSeal.ctxt ctxts).length < 2 ^ 64) :
    Sendable batchSeal [7] headerLength ctxts :=
  ⟨fun pair hpair => bytesCodec_roundTrips [7] (h.1 pair hpair), h.2⟩

/-- The kernel of the convolution is 1 and 2 for the two channels, and its bias is 1. The kernel of the dense
layer is (2, 1) and (1, 3), and its bias is (0, 5). -/
def batchFile : H5File ℚ := fun path => some fun key =>
  if path = groupPath "dense" "dense" then
    if key = kernelKey then some [2, 1, 1, 3] else some [0, 5]
  else if key = kernelKey then some [1, 2]
  else some [1]

def batchBlocks : List Block := [
  { conv2d := {
      name := "conv2d", batchInputShape := some (2, 1, 2), filters := 1, kernelSize := (1, 1)
      strides := (1, 1), padding := "valid", activation := "linear" }
    bn := none, name := "activation", activation := squareName, pool := none }]

/-- Two pixels of two channels give two squares, of which each label has a sum. -/
def batchModel : ServedModel unroundedDefine where
  file := batchFile
  blocks := batchBlocks
  head := .flatten "flatten"
  denses := [{ name := "dense", units := 2, activation := "softmax" }]
  level := .noOpt
  activation := .default
  name := "HCNN"
  rows := 2
  cols := 1
  channels := 2
  labels := 2
  isHead := .inl ⟨_, rfl⟩
  denses_ne := by decide
  isModel := {
    first := ⟨_, _, rfl, rfl⟩
    shapes := by decide
    channels := by decide
    validPool := by simp [batchBlocks, blockLayers, Block.layers, ValidPool] }
  below := ⟨by decide, by decide, by simp [batchBlocks, blockLayers, Block.layers, WindowBelow]⟩
  modelData := by
    refine ⟨⟨⟨_, _, rfl, rfl, rfl⟩, ⟨_, _, rfl, rfl, rfl⟩⟩, ?_⟩
    rintro _ ⟨⟩
    refine ⟨trivial, ?_⟩
    rintro _ ⟨⟩
    refine ⟨trivial, ?_⟩
    rintro _ ⟨⟩
    exact ⟨⟨⟨_, _, rfl, rfl, rfl⟩, ⟨_, _, rfl, rfl, rfl⟩⟩, fun _ _ => trivial⟩
  dispatches := by
    refine List.forall_mem_singleton.2 ⟨.inl (.inl rfl), .inl rfl⟩
  unclamped := unclamped_zero (c := unroundedDefine) rfl _ _ _
  agrees := by
    rw [computeOption_no_coeff _ _ (by decide) (by decide)]
    intro l hl
    simp only [batchBlocks, blockLayers, Block.layers, Option.toList, List.flatMap_cons, List.map_nil,
      List.flatMap_nil, List.append_nil, List.map_cons, List.cons_append, List.nil_append, List.mem_cons,
      List.not_mem_nil, or_false] at hl
    rcases hl with rfl | rfl | rfl | rfl
    · exact windows_samePadAxis (.inl rfl)
    · funext x
      simp [effective, OptOption.new, storedActivation, Semantics.keras, Keras.activation, sq]
    · trivial
    · trivial

def batchParams : Share.ComputationParams :=
  { sampleCompParams with imgWidth := 1, imgHeight := 2, imgChannels := 2, labels := 2 }

def batchContainer : KeyContainer (EncryptionKeys (List UInt8) (List UInt8) (List UInt8)) :=
  .registerKeys .empty 5 ⟨[7], [1, 2, 3], [4]⟩

theorem batch_connected : Connected batchContainer batchModel [7] 5 batchParams (2 ^ 56) where
  keys := ⟨_, rfl, rfl⟩
  extents := rfl
  count_lt := by decide
  labels_lt := by decide
  labels_le := by decide

def batchScheme : Scheme ℚ Unit ℚ (Fin 2 → ℚ) := exactScheme ℚ 2 (by decide)

/-- The server with other models behind it. -/
def batchProcess : Process ℚ ℚ (Fin 2 → ℚ) := ⟨⟨batchScheme.ev, .lp64, unroundedDefine⟩, 2 ^ 56, ⟨9, 9, 9, 7⟩⟩

theorem batch_readsOwnUnits : batchModel.ReadsOwnUnits batchProcess.next := .inr trivial

theorem batch_serves : ∃ network st, Serves batchScheme batchModel network st := by
  have hdims : ((imageTensor 2 1 2 [(0 : ℚ)]).height, (imageTensor 2 1 2 [(0 : ℚ)]).width,
      (imageTensor 2 1 2 [(0 : ℚ)]).channels) = (batchModel.rows, batchModel.cols, batchModel.channels) := rfl
  obtain ⟨⟨network, st⟩, hbuild, -⟩ := bind_eq_ok.1 (batchModel.buildAndPredict_eq hdims)
  obtain ⟨network', hmachine, -⟩ := lp64_of_unbounded batchModel.isModel batchModel.below
    (((exactHom (slotHom 2 0)).buildNetwork _ _ _ _ _ _).symm.trans hbuild)
  exact ⟨network', st, hmachine, fun _ _ => trivial⟩

/-- The cells of two images, the first in the one slot and the second in the other. -/
def pairInputs (first second : List ℚ) : Tensor3 (Fin 2 → ℚ) := ⟨2, 1, 2, fun row col ch =>
  ![first.getD (pixelPos 2 1 row col ch) 0, second.getD (pixelPos 2 1 row col ch) 0]⟩

theorem pair_encrypted {testImgs : List (List ℚ)} {beginIdx endIdx : ℕ} {first second : List ℚ}
    (himages : ∀ image ∈ testImgs, batchModel.channels * batchModel.rows * batchModel.cols ≤ image.length)
    (hrange : RangeFits testImgs.length batchScheme.cipher.slotCount beginIdx endIdx)
    (hfill : ∀ pos < 4, (slotIndices testImgs.length 2 beginIdx endIdx).foldlM (fillSlot testImgs pos)
      ([0, 0], 0) = .ok ([first.getD pos 0, second.getD pos 0], 2)) :
    encryptImages batchScheme.cipher (fun _ _ _ => ()) testImgs ⟨2, 1, 2, fun _ _ _ => 0⟩ beginIdx endIdx =
      .ok (pairInputs first second) := by
  obtain ⟨pixels, hencrypt, hpixels⟩ := encryptImages_of_le himages hrange (fun _ _ _ => ())
    fun _ _ _ => (0 : Fin 2 → ℚ)
  refine hencrypt.trans (congrArg Except.ok (congrArg (Tensor3.mk 2 1 2)
    (funext fun (row : Fin 2) => funext fun (col : Fin 1) => funext fun (ch : Fin 2) => ?_)))
  have hcell := (hpixels row col ch).2
  have hpos : pixelPos 2 1 row col ch < 4 := pixelPos_lt row col ch
  have hpair : pixels row col ch =
      [first.getD (pixelPos 2 1 row col ch) 0, second.getD (pixelPos 2 1 row col ch) 0] :=
    congrArg Prod.fst (Except.ok.inj (hcell.symm.trans (hfill _ hpos)))
  rw [hpair]
  funext k
  match k with
  | 0 => rfl
  | 1 => rfl

theorem pair_computed {first second : List ℚ} {scores : Fin 2 → ℚ × ℚ}
    (hslot : ∀ k : Fin 2, buildAndPredict ⟨.exact ℚ, .lp64, unroundedDefine⟩ batchModel.file
      batchModel.layers .fresh batchModel.option ((pairInputs first second).map fun v => v k) =
      .ok [(scores k).1, (scores k).2]) :
    buildAndPredict ⟨batchScheme.ev, .lp64, unroundedDefine⟩ batchModel.file batchModel.layers .fresh
      batchModel.option (pairInputs first second) =
      .ok [fun k => (scores k).1, fun k => (scores k).2] := by
  obtain ⟨values, hvalues, hperSlot⟩ :=
    buildAndPredict_slots batchModel.layers batchModel.option .lp64 hslot (by decide)
  refine hvalues.trans (congrArg Except.ok ?_)
  have hlength := congrArg List.length (hperSlot 0)
  rw [List.length_map] at hlength
  match values, hlength with
  | [label0, label1], _ =>
    have hpair : ∀ k, label0 k = (scores k).1 ∧ label1 k = (scores k).2 := by simpa using hperSlot
    rw [funext fun k => (hpair k).1, funext fun k => (hpair k).2]

/-- Two images of two pixels, the channels one after the other. -/
def batchImages : List (List ℚ) := [[0, 1, 1, 0], [3, 0, 0, 0]]

theorem batch_range : RangeFits batchImages.length batchScheme.cipher.slotCount 0 2 :=
  ⟨by decide, by decide, by decide, le_rfl⟩

theorem batch_images : ∀ image ∈ batchImages,
    batchModel.channels * batchModel.rows * batchModel.cols ≤ image.length :=
  List.forall_mem_cons.2 ⟨le_rfl, List.forall_mem_singleton.2 le_rfl⟩

theorem batch_encrypted : encryptImages batchScheme.cipher (fun _ _ _ => ()) batchImages
    ⟨2, 1, 2, fun _ _ _ => 0⟩ 0 2 = .ok (pairInputs [0, 1, 1, 0] [3, 0, 0, 0]) :=
  pair_encrypted batch_images batch_range (by decide)

/-- The scores of the two images. -/
def batchScores : Fin 2 → ℚ × ℚ := ![(22, 26), (33, 24)]

theorem batch_computed :
    buildAndPredict ⟨batchScheme.ev, .lp64, unroundedDefine⟩ batchModel.file batchModel.layers .fresh
      batchModel.option (pairInputs [0, 1, 1, 0] [3, 0, 0, 0]) =
      .ok [fun k => (batchScores k).1, fun k => (batchScores k).2] := by
  refine pair_computed ?_
  decide +kernel

/-- The first image has label 1 and the second has label 0. -/
theorem count_eq_predictions_sample : ∃ (encPackedImgs : Tensor3 (Fin 2 → ℚ)) (encResults : List (Fin 2 → ℚ)),
    encryptImages batchScheme.cipher (fun _ _ _ => ()) batchImages ⟨2, 1, 2, fun _ _ _ => 0⟩ 0 2 =
      .ok encPackedImgs ∧
    queryRoundTrip batchSeal sampleGarbage batchContainer batchProcess batchModel.file batchModel.layers
      batchModel.option [7] 5 3 batchParams encPackedImgs = .ok [⟨3, true, encResults⟩] ∧
    callbackFunc batchScheme.cipher.slots 2 [1, 0] 2 ⟨0, 2⟩ encResults = .ok 2 := by
  obtain ⟨network, st, hserves⟩ := batch_serves
  have hrequest : ∀ t, encryptImages batchScheme.cipher (fun _ _ _ => ()) batchImages
      ⟨2, 1, 2, fun _ _ _ => 0⟩ 0 2 = .ok t → Sendable batchSeal [7] 2112 t.toUnits := by
    intro t ht
    cases batch_encrypted.symm.trans ht
    exact sendable_bytes (by decide +kernel)
  have hresponse : ∀ t results, encryptImages batchScheme.cipher (fun _ _ _ => ()) batchImages
      ⟨2, 1, 2, fun _ _ _ => 0⟩ 0 2 = .ok t →
      buildAndPredict ⟨batchScheme.ev, .lp64, unroundedDefine⟩ batchModel.file batchModel.layers
        .fresh batchModel.option t = .ok results → Sendable batchSeal [7] 24 results := by
    intro t results ht hresults
    cases batch_encrypted.symm.trans ht
    cases batch_computed.symm.trans hresults
    exact sendable_bytes (by decide +kernel)
  have hlbls : batchImages.length ≤ ([1, 0] : List UInt8).length := le_rfl
  obtain ⟨encPackedImgs, encResults, hencrypt, htrip, hcount⟩ :=
    count_eq_predictions hserves batch_connected sampleGarbage batch_images batch_range hlbls
      (fun _ _ _ => ()) (fun _ _ _ => 0) batch_readsOwnUnits hrequest hresponse 3
  refine ⟨encPackedImgs, encResults, hencrypt, htrip, hcount.trans ?_⟩
  decide +kernel

end Client
