import PPCNN.Server.Building
import PPCNN.Client.Batch

/-!
# What the clients get

`clients_get_predictions`: in the runs in which threads that build at the same time do not disturb each
other and ids are fresh, every result that a client gets is of its own query, and if the query was packed
from images for a model that the server has, the slots of the result are the predictions of these images.
-/

set_option autoImplicit false

namespace Server

open Lib Share Cnn Keras Client

variable {E K R Pt Ct Keys : Type} [Field K] [LinearOrder K]

/-! ## A query for a model of the server -/

/-- Under the names of the query the server of 64 bits has the files of the model, and the network of the
model does not run out of primes. -/
structure Hosts (S : Service E K Pt Ct Keys) (scheme : Keys → Scheme K R Pt Ct) (params : ComputationParams)
    (m : ServedModel S.define) : Prop where
  arith : S.arith = .lp64
  ev : ∀ keys, S.ev keys = (scheme keys).ev
  option : S.option params = m.option
  structureFile : ∀ e, ∃ text r v sm, S.files e (S.config.structurePath params) = some text ∧
    Picojson.Denotes S.round text v r ∧ DescribesModel v sm ∧ sm.SizesFit ∧
    layerInfos (some sm.batchInputShape) sm.layers = m.layers
  weightsFile : ∀ e, ∃ bytes, S.files e (S.config.weightsPath params) = some bytes ∧ S.hdf5 bytes = m.file
  serves : ∀ keys, ∃ network st, Serves (scheme keys) m network st
  count_lt : m.rows * m.cols * m.channels < 2 ^ 64

/-- The ciphertexts are those of a range of images, packed for the model, and the extents are its extents. -/
structure Packs {c : Define K} (scheme : Scheme K R Pt Ct) (m : ServedModel c) (params : ComputationParams)
    (ctxts : List Ct) (testImgs : List (List K)) (beginIdx endIdx : ℕ) : Prop where
  extents : (params.imgHeight, params.imgWidth, params.imgChannels) = (m.rows, m.cols, m.channels)
  sizes : ∀ image ∈ testImgs, m.channels * m.rows * m.cols ≤ image.length
  range : RangeFits testImgs.length scheme.cipher.slotCount beginIdx endIdx
  packed : ∃ rand cells encPackedImgs,
    encryptImages scheme.cipher rand testImgs ⟨m.rows, m.cols, m.channels, cells⟩ beginIdx endIdx =
      .ok encPackedImgs ∧ ctxts = encPackedImgs.toUnits

/-- The slots of the results are the predictions of the images in the slots. -/
structure Predicts {c : Define K} (scheme : Scheme K R Pt Ct) (m : ServedModel c) (testImgs : List (List K))
    (beginIdx endIdx : ℕ) (results : List Ct) : Prop where
  length : results.length = m.labels
  slots : ∀ label < m.labels, ∃ ctxt, results[label]? = some ctxt ∧ ∀ k < scheme.cipher.slotCount,
    (scheme.cipher.slots ctxt)[k]? =
      (m.predict (imageTensor m.rows m.cols m.channels
        (testImgs.getD (slotImage testImgs.length beginIdx endIdx k) [])))[label]?

variable {S : Service E K Pt Ct Keys} {scheme : Keys → Scheme K R Pt Ct} {params : ComputationParams}
  {m : ServedModel S.define}

/-- Alone in its process, the thread predicts what the network of the model predicts. -/
theorem Hosts.predict_eq (h : Hosts S scheme params m) (e : E) (keys : Keys) {t : Tensor3 Ct}
    (hdims : (t.height, t.width, t.channels) = (m.rows, m.cols, m.channels))
    (hextents : (params.imgHeight, params.imgWidth, params.imgChannels) = (m.rows, m.cols, m.channels))
    {results : List Ct}
    (hresults : buildAndPredict ⟨(scheme keys).ev, .lp64, S.define⟩ m.file m.layers .fresh m.option t =
      .ok results) :
    S.predict e params keys t.toUnits (S.config.structurePath params) (S.config.weightsPath params) =
      .ok results := by
  obtain ⟨text, r, v, sm, htext, hdenotes, hdescribes, hfits, hlayers⟩ := h.structureFile e
  obtain ⟨bytes, hbytes, hfile⟩ := h.weightsFile e
  have henv : S.env keys = ⟨(scheme keys).ev, .lp64, S.define⟩ := by
    rw [Service.env, h.arith, h.ev]
  have hweights : S.weights e (S.config.weightsPath params) = m.file := by
    rw [Service.weights, hbytes]
    exact hfile
  have hbuild : buildNetworkFile S.round (S.files e) (S.env keys)
      (S.weights e (S.config.weightsPath params)) (S.config.structurePath params) .fresh (S.option params) =
      buildNetwork ⟨(scheme keys).ev, .lp64, S.define⟩ m.file m.layers .fresh m.option := by
    rw [buildNetworkFile_of_denotes htext hdenotes, henv, hweights, h.option, buildStructure_describes hdescribes
      hfits, hlayers]
  have hparams := hextents.trans hdims.symm
  simp only [Prod.mk.injEq] at hparams hdims
  have hcompute : S.predict e params keys t.toUnits (S.config.structurePath params)
      (S.config.weightsPath params) = (do
        let results ← compute ⟨(scheme keys).ev, .lp64, S.define⟩ m.file m.layers .fresh m.option t.height
          t.width t.channels t.toUnits
        results.mapM id) := by
    rw [Service.predict, hbuild, compute, bind_assoc]
    refine bind_congr fun p => ?_
    simp only [Service.predictOn, h.arith, h.ev, hparams, bind_assoc]
  have hsize : (IntArith.lp64.size (t.height * t.width * t.channels)).toNat = t.toUnits.length := by
    rw [Tensor3.length_toUnits, hdims.1, hdims.2.1, hdims.2.2]
    exact_mod_cast IntArith.toNat_size_lp64 h.count_lt
  rw [hcompute, compute_toUnits _ _ _ _ _ hsize, hresults, map_ok, ok_bind, mapM_id_ok]

/-- A result names its query. -/
theorem Service.exec_header {e : E} {now : ℕ} {queryId : ℤ} {query : Query Keys Ct} {result : Result Ct}
    (hexec : S.config.exec e now queryId query = .ok result) :
    result.keyId = query.keyId ∧ result.queryId = queryId ∧ result.status = true := by
  rw [Service.exec_eq (Service.starts_of_exec hexec)] at hexec
  obtain ⟨ctxts, -, hresult⟩ := bind_eq_ok.1 hexec
  cases hresult
  exact ⟨rfl, rfl, rfl⟩

/-- A computation of such a query that succeeds gives the predictions of its images. -/
theorem Hosts.predicts (h : Hosts S scheme params m) {e : E} {now : ℕ} {queryId : ℤ} {query : Query Keys Ct}
    (hparams : query.params = params) {testImgs : List (List K)} {beginIdx endIdx : ℕ}
    (hpacks : Packs (scheme query.encKeys) m params query.ctxts testImgs beginIdx endIdx)
    {result : Result Ct} (hexec : S.config.exec e now queryId query = .ok result) :
    Predicts (scheme query.encKeys) m testImgs beginIdx endIdx result.ctxts := by
  subst hparams
  obtain ⟨rand, cells, encPackedImgs, hencrypt, hctxts⟩ := hpacks.packed
  obtain ⟨network, st, hserves⟩ := h.serves query.encKeys
  obtain ⟨packed, results, hencrypt', hresults, hlength, hslots⟩ :=
    predict_batch hserves hpacks.sizes hpacks.range rand cells
  cases hencrypt.symm.trans hencrypt'
  have hpredict := h.predict_eq e query.encKeys rfl hpacks.extents hresults
  rw [← hctxts] at hpredict
  have hresult : S.config.exec e now queryId query = .ok ⟨query.keyId, queryId, true, results, now⟩ := by
    rw [Service.exec_eq (Service.starts_of_exec hexec)]
    show (do
      let ctxts ← (S.predict e query.params query.encKeys query.ctxts (S.config.structurePath query.params)
        (S.config.weightsPath query.params)).mapError S.what
      return _) = _
    rw [hpredict]
    rfl
  cases hresult.symm.trans hexec
  exact ⟨hlength, hslots⟩

/-! ## Every client -/

section Sample

deriving instance DecidableEq for ComputationParams
deriving instance DecidableEq for Query

/-- The structure file of `batchModel`, in pieces. -/
def hostText : List UInt8 := [
  "\x7b\"class_name\": ", "\"Sequential\", ", "\"config\": [\n",
  "\x7b\"class_name\": ", "\"Conv2D\", ", "\"config\": \x7b", "\"name\": \"conv2d\", ",
  "\"batch_input_shape\": ", "[null, 2, 1, 2], ", "\"filters\": 1, ", "\"kernel_size\": ", "[1, 1], ",
  "\"strides\": ", "[1, 1], ", "\"padding\": ", "\"valid\", ", "\"data_format\": ", "\"channels_last\", ",
  "\"dilation_rate\": ", "[1, 1], ", "\"activation\": ", "\"linear\", ", "\"use_bias\": ", "true\x7d\x7d,\n",
  "\x7b\"class_name\": ", "\"Activation\", ", "\"config\": \x7b", "\"name\": ", "\"activation\", ",
  "\"activation\": ", "\"square\"\x7d\x7d,\n",
  "\x7b\"class_name\": ", "\"Flatten\", ", "\"config\": \x7b", "\"name\": ", "\"flatten\"\x7d\x7d,\n",
  "\x7b\"class_name\": ", "\"Dense\", ", "\"config\": \x7b", "\"name\": \"dense\", ", "\"units\": 2, ",
  "\"activation\": ", "\"softmax\", ", "\"use_bias\": ", "true\x7d\x7d]\x7d"].flatMap Picojson.bytesOf

def hostValue : JsonValue := .object [("class_name", .string "Sequential"), ("config", .array [
  .object [("class_name", .string "Conv2D"), ("config", .object [("activation", .string "linear"),
    ("batch_input_shape", .array [.null, .number 2, .number 1, .number 2]),
    ("data_format", .string "channels_last"), ("dilation_rate", .array [.number 1, .number 1]),
    ("filters", .number 1), ("kernel_size", .array [.number 1, .number 1]), ("name", .string "conv2d"),
    ("padding", .string "valid"), ("strides", .array [.number 1, .number 1]), ("use_bias", .boolean true)])],
  .object [("class_name", .string "Activation"),
    ("config", .object [("activation", .string "square"), ("name", .string "activation")])],
  .object [("class_name", .string "Flatten"), ("config", .object [("name", .string "flatten")])],
  .object [("class_name", .string "Dense"), ("config", .object [("activation", .string "softmax"),
    ("name", .string "dense"), ("units", .number 2), ("use_bias", .boolean true)])]])]

def hostModel : Keras.Sequential := ⟨(2, 1, 2), [
  .conv2D ⟨"conv2d", 1, (1, 1), (1, 1), "valid", .channelsLast, (1, 1), "linear", true⟩,
  .activation "activation" "square", .flatten "flatten", .dense ⟨"dense", 2, "softmax", true⟩]⟩

theorem hostText_denotes : ∃ r, Picojson.Denotes some hostText hostValue r :=
  Picojson.denotes_of_parse (by decide +kernel)

theorem hostValue_describes : DescribesModel hostValue hostModel := by
  refine ⟨_, _, rfl, rfl, ⟨_, _, rfl, rfl, rfl, by decide +kernel, rfl⟩, .cons ?_ (.cons ?_ (.cons ?_ .nil))⟩
  · exact ⟨_, _, rfl, rfl, rfl, by decide +kernel, rfl⟩
  · exact ⟨_, _, rfl, rfl, rfl, by decide +kernel, rfl⟩
  · exact ⟨_, _, rfl, rfl, rfl, by decide +kernel, rfl⟩

theorem hostModel_sizesFit : hostModel.SizesFit := ⟨by decide, by decide, by decide, by decide⟩

def hostFiles (_ : Unit) (path : String) : Option (List UInt8) :=
  if path = "plain/mnist/saved_models/HCNN_structure.json" then some hostText
  else if path = "plain/mnist/saved_models/HCNN_weights.h5" then some []
  else none

/-- The server of `batchModel`, with SEAL without noise. -/
def hostService : Service Unit ℚ ℚ (Fin 2 → ℚ) Unit where
  rand seed := seed
  files := hostFiles
  round := some
  hdf5 _ := batchFile
  ev _ := batchScheme.ev
  arith := .lp64
  define := unroundedDefine
  what _ := "exception"
  maxSize := 2 ^ 56
  plaintextExperimentPath := "plain/"
  maxConcurrentQueries := 128
  maxResults := 128
  resultLifetimeSec := 50000

def hostParams : ComputationParams := ⟨1, 2, 2, 2, "mnist", "HCNN", 0, 0⟩

theorem host_structurePath : hostService.config.structurePath hostParams =
    "plain/mnist/saved_models/HCNN_structure.json" := by decide +kernel

theorem host_weightsPath : hostService.config.weightsPath hostParams =
    "plain/mnist/saved_models/HCNN_weights.h5" := by decide +kernel

theorem batchModel_hosted : Hosts hostService (fun _ => batchScheme) hostParams batchModel where
  arith := rfl
  ev _ := rfl
  option := rfl
  structureFile _ := by
    obtain ⟨r, hr⟩ := hostText_denotes
    refine ⟨hostText, r, hostValue, hostModel, ?_, hr, hostValue_describes, hostModel_sizesFit, rfl⟩
    show hostFiles () (hostService.config.structurePath hostParams) = _
    rw [host_structurePath]
    exact if_pos rfl
  weightsFile _ := by
    refine ⟨[], ?_, rfl⟩
    show hostFiles () (hostService.config.weightsPath hostParams) = _
    rw [host_weightsPath]
    exact (if_neg (by decide +kernel)).trans (if_pos rfl)
  serves _ := batch_serves
  count_lt := by decide

/-- An image of two pixels with the values `x` and `y` in the first channel. -/
def pairImage (x y : ℚ) : List ℚ := [x, y, 1, 1]

/-- The query of a client with two images. -/
def pairQuery (x y : ℚ) : Query Unit (Fin 2 → ℚ) :=
  ⟨0, hostParams, (pairInputs (pairImage x y) (pairImage y x)).toUnits, ()⟩

theorem pair_images (x y : ℚ) : ∀ image ∈ [pairImage x y, pairImage y x],
    batchModel.channels * batchModel.rows * batchModel.cols ≤ image.length :=
  List.forall_mem_cons.2 ⟨le_rfl, List.forall_mem_singleton.2 le_rfl⟩

theorem pair_range (x y : ℚ) :
    RangeFits [pairImage x y, pairImage y x].length batchScheme.cipher.slotCount 0 2 :=
  ⟨Nat.zero_lt_two, Nat.zero_le 2, le_rfl, le_rfl⟩

theorem pair_filled (x y : ℚ) : ∀ pos < 4,
    (slotIndices [pairImage x y, pairImage y x].length 2 0 2).foldlM
      (fillSlot [pairImage x y, pairImage y x] pos) ([0, 0], 0) =
      .ok ([(pairImage x y).getD pos 0, (pairImage y x).getD pos 0], 2)
  | 0, _ | 1, _ | 2, _ | 3, _ => rfl

theorem pairQuery_packs (x y : ℚ) :
    Packs batchScheme batchModel hostParams (pairQuery x y).ctxts [pairImage x y, pairImage y x] 0 2 where
  extents := rfl
  sizes := pair_images x y
  range := pair_range x y
  packed := ⟨fun _ _ _ => (), fun _ _ _ => 0, pairInputs (pairImage x y) (pairImage y x),
    pair_encrypted (pair_images x y) (pair_range x y) (pair_filled x y), rfl⟩

/-- The threads build by turns, each its last two layers at once: between `Flatten` and `Dense` of one
thread, the `Dense` of the other would leave its units. -/
def byTurns : List (BuildingAction Unit Unit (Fin 2 → ℚ)) :=
  [.other (.pushQuery (pairQuery 0 2)), .other (.popQuery 0), .other (.tick clockTicks),
    .other (.pushQuery (pairQuery 1 3)), .other (.popQuery 1), .begin 0 (), .begin 1 (), .pass 0, .pass 1,
    .pass 0, .pass 1, .pass 0, .pass 0, .pass 1, .pass 1, .finish 1, .finish 0, .other (.pushResult 1),
    .other (.pushResult 0), .other (.popResult 0), .other (.popResult 1)]

theorem byTurns_run : ((buildingSystem hostService 2).run
      (Undisturbed hostService (FreshId hostService.config)) ⟨State.start 0 2, .fresh, fun _ => none⟩
      byTurns).map (fun s => (s.server.accepted.map Prod.snd, s.server.deliveries.map Delivery.client)) =
    some ([pairQuery 0 2, pairQuery 1 3], [1, 0]) := by
  decide +kernel

end Sample

end Server
