import PPCNN.Server.Keys
import PPCNN.Share.BasicData
import PPCNN.Share.Params

/-!
# The messages (`ppcnn_client.cpp`, `ppcnn_server_callback_function.cpp`)

What the client and the server send, and how the other side reads it. A sender measures its data with a
`save` of its own, allocates a buffer of that size and fills it, with stream writes first and then with
copies to the write position. `wire_roundTrips`: the buffer is filled to its end, each byte once, and
the receiver decodes what was sent. Log lines and the files of `ENABLE_LOCAL_DEBUG` are left out.
-/

set_option autoImplicit false

namespace Server

open Lib Share

variable {Params PublicKey RelinKeys Ct : Type}

/-- `save` and `load` of the objects of SEAL that are sent, and the strings that they are read from. -/
structure SealCodecs (Params PublicKey RelinKeys Ct : Type) where
  /-- makes room for a `std::string` of a length, or throws -/
  newString : ℕ → Except String Unit
  encParams : Codec Unit Params
  pubkey : Codec Params PublicKey
  relinkey : Codec Params RelinKeys
  ctxt : Codec Params Ct

/-- What the memory of a sender holds before it is written: the buffer and the padding. -/
structure Garbage where
  buffer : ℕ → UInt8
  padding : Vector UInt8 4

variable (S : SealCodecs Params PublicKey RelinKeys Ct) (G : Garbage)

/-! ## Headers -/

section

variable {T : Type} {L : Layout T}

/-- A structure as it is sent: it is the one element of a `PlainData`. -/
def header (L : Layout T) (param : T) : List UInt8 := (PlainData.chunks L [param]).flatten

theorem length_header (param : T) : (header L param).length = 8 + L.width := by
  rw [header, PlainData.length_chunks_flatten, List.length_singleton, Nat.one_mul]

theorem streamSize_header (param : T) : PlainData.streamSize L [param] = .ofNat (8 + L.width) := by
  rw [PlainData.streamSize_eq (List.cons_ne_nil _ _), ← length_header param, header]

theorem save_header (junk : ℕ → UInt8) (param : T) {size room : ℕ} (hsize : size = 8 + L.width + room) :
    (PlainData.save L [param] (ByteStream.alloc junk size)).1.Filled (header L param) room := by
  have halloc := ByteStream.filled_alloc junk size
  rw [hsize, ← length_header param] at halloc
  rw [PlainData.save_eq (List.cons_ne_nil _ _), hsize, ← length_header param]
  exact halloc.writeAll

theorem load_header (param : T) (todo : List UInt8) :
    ∃ rstream, PlainData.load L (.ofBytes (header L param ++ todo)) =
        .ok ([(L.encode param).map some], rstream) ∧ rstream.Unread (header L param) todo := by
  have hone : [param].length < 2 ^ 64 := by
    rw [List.length_singleton]
    decide
  exact PlainData.load_unread hone (ByteStream.unread_ofBytes (header L param ++ todo))

variable {C : Codec Params Ct} {params : Params} {vec : List Ct}

/-- A message of a header and an `EncData`, as it is sent. -/
theorem encData_full (junk : ℕ → UInt8) (param : T) (hvec : ∀ v ∈ vec, C.RoundTrips params v)
    {sz : UInt64} (hsz : sz = .ofNat (8 + L.width + (EncData.image C vec).length))
    (hlen : 8 + L.width + (EncData.image C vec).length < 2 ^ 64) :
    ∃ stream, SealUtility.writeToBinaryStream
        (PlainData.save L [param] (ByteStream.alloc junk sz.toNat)).1 (EncData.save C vec) true =
        .ok stream ∧ stream.Full ∧ stream.size = sz.toNat ∧
      stream.bytes = header L param ++ EncData.image C vec := by
  have hsize : sz.toNat = 8 + L.width + ((EncData.image C vec).length + 0) := by
    rw [hsz, UInt64.toNat_ofNat_of_lt' hlen, Nat.add_zero]
  obtain ⟨stream, hwrite, hfilled⟩ := SealUtility.writeToBinaryStream_filled
    (EncData.save_nil hvec) (save_header junk param hsize)
  refine ⟨stream, hwrite, hfilled.full.1, ?_, hfilled.full.2⟩
  rw [hfilled.size_eq, hsize, List.length_append, length_header]
  rfl

/-- A message of a header and an `EncData`, as it is read. -/
theorem encData_unread (newString : ℕ → Except String Unit) (param : T) (hvec : ∀ v ∈ vec, C.RoundTrips params v)
    (hcount : vec.length < 2 ^ 64) (hlen : (EncData.image C vec).length < 2 ^ 64) :
    ∃ rstream rest, PlainData.load L (.ofBytes (header L param ++ EncData.image C vec)) =
        .ok ([(L.encode param).map some], rstream) ∧
      SealUtility.readEncData newString C rstream (EncData.streamSize C vec) params true =
        .ok (vec, rest) := by
  obtain ⟨rstream, hload, h⟩ := load_header (L := L) param (EncData.image C vec)
  rw [← List.append_nil (EncData.image C vec)] at h
  obtain ⟨rest, hread, -⟩ := SealUtility.readEncData_unread newString hvec hcount hlen h
  exact ⟨rstream, rest, hload, hread⟩

end

/-! ## Keys -/

def enckeyParam (encParams : Params) (keyId : Int32) (pubkey : PublicKey) (relinkey : RelinKeys) :
    C2SEnckeyParam where
  keyId
  padding := G.padding
  encParamsStreamSz := SealUtility.streamSize S.encParams encParams
  pubkeyStreamSz := SealUtility.streamSize S.pubkey pubkey
  relinkeyStreamSz := SealUtility.streamSize S.relinkey relinkey

/-- The size that `register_enckeys` allocates. -/
def enckeysSize (param : C2SEnckeyParam) : UInt64 :=
  PlainData.streamSize C2SEnckeyParam.layout [param] + param.encParamsStreamSz +
    param.pubkeyStreamSz + param.relinkeyStreamSz

/-- `Client::Impl::register_enckeys`, the buffer it sends. -/
def registerEnckeys (encParams : Params) (keyId : Int32) (pubkey : PublicKey) (relinkey : RelinKeys) :
    Except Fault ByteStream := do
  let param := enckeyParam S G encParams keyId pubkey relinkey
  let stream := ByteStream.alloc G.buffer (enckeysSize param).toNat
  let (stream, _) := PlainData.save C2SEnckeyParam.layout [param] stream
  let stream ← SealUtility.writeToBinaryStream stream (S.encParams.saveTo encParams) true
  let stream ← SealUtility.writeToBinaryStream stream (S.pubkey.saveTo pubkey) true
  SealUtility.writeToBinaryStream stream (S.relinkey.saveTo relinkey) true

/-- `CallbackFunctionEncryptionKeys`. -/
def callbackFunctionEncryptionKeys
    (container : KeyContainer (EncryptionKeys Params PublicKey RelinKeys)) (buffer : List UInt8) :
    Except Fault (KeyContainer (EncryptionKeys Params PublicKey RelinKeys)) := do
  let (rplaindata, rstream) ← PlainData.load C2SEnckeyParam.layout (.ofBytes buffer)
  let param ← BasicData.data rplaindata
  let keyId ← C2SEnckeyParam.keyIdField.use param
  let encParamsStreamSz ← C2SEnckeyParam.encParamsStreamSzField.use param
  let (encParams, rstream) ←
    SealUtility.readFromBinaryStream S.newString S.encParams rstream encParamsStreamSz () true
  let pubkeyStreamSz ← C2SEnckeyParam.pubkeyStreamSzField.use param
  let (pubkey, rstream) ←
    SealUtility.readFromBinaryStream S.newString S.pubkey rstream pubkeyStreamSz encParams true
  let relinkeyStreamSz ← C2SEnckeyParam.relinkeyStreamSzField.use param
  let (relinkey, _) ←
    SealUtility.readFromBinaryStream S.newString S.relinkey rstream relinkeyStreamSz encParams true
  return container.registerKeys keyId.toInt { params := encParams, pubkey, relinkey }

section

variable {S G} {encParams : Params} {pubkey : PublicKey} {relinkey : RelinKeys}

/-- The bytes of the objects in a key message. -/
def enckeysBytes (S : SealCodecs Params PublicKey RelinKeys Ct) (encParams : Params)
    (pubkey : PublicKey) (relinkey : RelinKeys) : List UInt8 :=
  (S.encParams.save encParams).1 ++ (S.pubkey.save pubkey).1 ++ (S.relinkey.save relinkey).1

theorem enckeysSize_eq (hparams : S.encParams.RoundTrips () encParams)
    (hpubkey : S.pubkey.RoundTrips encParams pubkey)
    (hrelinkey : S.relinkey.RoundTrips encParams relinkey) (keyId : Int32) :
    enckeysSize (enckeyParam S G encParams keyId pubkey relinkey) =
      .ofNat (40 + (enckeysBytes S encParams pubkey relinkey).length) := by
  have hwidth : 8 + C2SEnckeyParam.layout.width = 40 := rfl
  rw [enckeysSize, streamSize_header, hwidth, enckeysBytes, List.length_append, List.length_append,
    ← Nat.add_assoc, ← Nat.add_assoc, UInt64.ofNat_add, UInt64.ofNat_add, UInt64.ofNat_add]
  simp only [enckeyParam, SealUtility.streamSize, hparams.saveTo_nil, hpubkey.saveTo_nil,
    hrelinkey.saveTo_nil]

theorem registerEnckeys_full (hparams : S.encParams.RoundTrips () encParams)
    (hpubkey : S.pubkey.RoundTrips encParams pubkey)
    (hrelinkey : S.relinkey.RoundTrips encParams relinkey) (keyId : Int32)
    (hlen : 40 + (enckeysBytes S encParams pubkey relinkey).length < 2 ^ 64) :
    ∃ stream, registerEnckeys S G encParams keyId pubkey relinkey = .ok stream ∧ stream.Full ∧
      stream.size = (enckeysSize (enckeyParam S G encParams keyId pubkey relinkey)).toNat ∧
      stream.bytes = header C2SEnckeyParam.layout (enckeyParam S G encParams keyId pubkey relinkey) ++
        enckeysBytes S encParams pubkey relinkey := by
  have hsize : (enckeysSize (enckeyParam S G encParams keyId pubkey relinkey)).toNat =
      8 + C2SEnckeyParam.layout.width + ((S.encParams.save encParams).1.length +
        ((S.pubkey.save pubkey).1.length + ((S.relinkey.save relinkey).1.length + 0))) := by
    rw [enckeysSize_eq hparams hpubkey hrelinkey, UInt64.toNat_ofNat_of_lt' hlen, enckeysBytes,
      List.length_append, List.length_append, Nat.add_zero, Nat.add_assoc]
    rfl
  have h0 := save_header G.buffer (enckeyParam S G encParams keyId pubkey relinkey) hsize
  obtain ⟨s1, hs1, h1⟩ := SealUtility.writeToBinaryStream_filled hparams.saveTo_nil h0
  obtain ⟨s2, hs2, h2⟩ := SealUtility.writeToBinaryStream_filled hpubkey.saveTo_nil h1
  obtain ⟨s3, hs3, h3⟩ := SealUtility.writeToBinaryStream_filled hrelinkey.saveTo_nil h2
  refine ⟨s3, ?_, h3.full.1, ?_, ?_⟩
  · simp only [registerEnckeys, hs1, hs2, hs3, ok_bind]
  · rw [h3.size_eq, hsize]
    simp only [List.length_append, length_header]
    omega
  · rw [h3.full.2, enckeysBytes]
    simp only [List.append_assoc]

theorem callbackFunctionEncryptionKeys_eq (hparams : S.encParams.RoundTrips () encParams)
    (hpubkey : S.pubkey.RoundTrips encParams pubkey)
    (hrelinkey : S.relinkey.RoundTrips encParams relinkey) (keyId : Int32)
    (hlen : 40 + (enckeysBytes S encParams pubkey relinkey).length < 2 ^ 64)
    (container : KeyContainer (EncryptionKeys Params PublicKey RelinKeys)) :
    callbackFunctionEncryptionKeys S container
        (header C2SEnckeyParam.layout (enckeyParam S G encParams keyId pubkey relinkey) ++
          enckeysBytes S encParams pubkey relinkey) =
      .ok (container.registerKeys keyId.toInt { params := encParams, pubkey, relinkey }) := by
  rw [enckeysBytes, List.length_append, List.length_append] at hlen
  obtain ⟨r0, hr0, h0⟩ := load_header (enckeyParam S G encParams keyId pubkey relinkey)
    (enckeysBytes S encParams pubkey relinkey)
  rw [enckeysBytes, List.append_assoc] at h0
  obtain ⟨r1, hr1, h1⟩ := SealUtility.readFromBinaryStream_unread S.newString hparams (by omega) h0
  obtain ⟨r2, hr2, h2⟩ := SealUtility.readFromBinaryStream_unread S.newString hpubkey (by omega) h1
  rw [← List.append_nil (S.relinkey.save relinkey).1] at h2
  obtain ⟨r3, hr3, -⟩ := SealUtility.readFromBinaryStream_unread S.newString hrelinkey (by omega) h2
  rw [callbackFunctionEncryptionKeys, hr0, ok_bind]
  simp only [BasicData.data, pure_eq_ok, ok_bind, Field.use_encode, C2SEnckeyParam.keyIdField,
    C2SEnckeyParam.encParamsStreamSzField, C2SEnckeyParam.pubkeyStreamSzField,
    C2SEnckeyParam.relinkeyStreamSzField, enckeyParam, hr1, hr2, hr3]

end

/-! ## Queries -/

def queryParam (keyId : Int32) (compParams : Share.ComputationParams) (encInputs : List Ct) :
    C2SQueryParam where
  compParams
  encInputsStreamSz := EncData.streamSize S.ctxt encInputs
  keyId
  padding := G.padding

/-- The size that `send_query` allocates. -/
def querySize (param : C2SQueryParam) : UInt64 :=
  PlainData.streamSize C2SQueryParam.layout [param] + param.encInputsStreamSz

/-- `Client::Impl::send_query`, the buffer it sends. -/
def sendQuery (keyId : Int32) (compParams : Share.ComputationParams) (encInputs : List Ct) :
    Except Fault ByteStream := do
  let param := queryParam S G keyId compParams encInputs
  let stream := ByteStream.alloc G.buffer (querySize param).toNat
  let (stream, _) := PlainData.save C2SQueryParam.layout [param] stream
  SealUtility.writeToBinaryStream stream (EncData.save S.ctxt encInputs) true

/-- The arguments of the query that `CallbackFunctionQuery` pushes. -/
structure DecodedQuery (Params PublicKey RelinKeys Ct : Type) where
  keyId : Int32
  compParams : Share.ComputationParams
  ctxts : List Ct
  encKeys : EncryptionKeys Params PublicKey RelinKeys

/-- `CallbackFunctionQuery`, to the query it pushes. -/
def callbackFunctionQuery
    (container : KeyContainer (EncryptionKeys Params PublicKey RelinKeys)) (buffer : List UInt8) :
    Except Fault (DecodedQuery Params PublicKey RelinKeys Ct) := do
  let (rplaindata, rstream) ← PlainData.load C2SQueryParam.layout (.ofBytes buffer)
  let param ← BasicData.data rplaindata
  let compParams ← C2SQueryParam.compParamsField.use param
  let encInputsStreamSz ← C2SQueryParam.encInputsStreamSzField.use param
  let keyId ← C2SQueryParam.keyIdField.use param
  match container.getKeys keyId.toInt with
  | .error e => throw (.thrown e)
  | .ok encKeys =>
    let (encInputs, _) ←
      SealUtility.readEncData S.newString S.ctxt rstream encInputsStreamSz encKeys.params true
    let ctxts ← BasicData.vdata encInputs
    return { keyId, compParams, ctxts, encKeys }

section

variable {S G} {params : Params} {ctxts : List Ct}

theorem querySize_eq (hctxts : ∀ c ∈ ctxts, S.ctxt.RoundTrips params c) (keyId : Int32)
    (compParams : Share.ComputationParams) :
    querySize (queryParam S G keyId compParams ctxts) =
      .ofNat (2112 + (EncData.image S.ctxt ctxts).length) := by
  have hwidth : 8 + C2SQueryParam.layout.width = 2112 := rfl
  rw [querySize, streamSize_header, hwidth, queryParam, EncData.streamSize, EncData.save_nil hctxts,
    UInt64.ofNat_add]

theorem sendQuery_full (hctxts : ∀ c ∈ ctxts, S.ctxt.RoundTrips params c) (keyId : Int32)
    (compParams : Share.ComputationParams)
    (hlen : 2112 + (EncData.image S.ctxt ctxts).length < 2 ^ 64) :
    ∃ stream, sendQuery S G keyId compParams ctxts = .ok stream ∧ stream.Full ∧
      stream.size = (querySize (queryParam S G keyId compParams ctxts)).toNat ∧
      stream.bytes = header C2SQueryParam.layout (queryParam S G keyId compParams ctxts) ++
        EncData.image S.ctxt ctxts :=
  encData_full G.buffer _ hctxts (querySize_eq hctxts keyId compParams) hlen

theorem callbackFunctionQuery_eq (hctxts : ∀ c ∈ ctxts, S.ctxt.RoundTrips params c)
    (hne : ctxts ≠ []) (hcount : ctxts.length < 2 ^ 64) (keyId : Int32)
    (compParams : Share.ComputationParams)
    (hlen : 2112 + (EncData.image S.ctxt ctxts).length < 2 ^ 64)
    {container : KeyContainer (EncryptionKeys Params PublicKey RelinKeys)}
    {encKeys : EncryptionKeys Params PublicKey RelinKeys}
    (hkeys : container.getKeys keyId.toInt = .ok encKeys) (hparams : encKeys.params = params) :
    callbackFunctionQuery S container
        (header C2SQueryParam.layout (queryParam S G keyId compParams ctxts) ++
          EncData.image S.ctxt ctxts) =
      .ok { keyId, compParams, ctxts, encKeys } := by
  subst hparams
  obtain ⟨rstream, rest, hload, hread⟩ :=
    encData_unread S.newString (queryParam S G keyId compParams ctxts) hctxts hcount (by omega)
  rw [callbackFunctionQuery, hload, ok_bind]
  simp only [BasicData.data, pure_eq_ok, ok_bind, Field.use_encode, C2SQueryParam.compParamsField,
    C2SQueryParam.encInputsStreamSzField, C2SQueryParam.keyIdField, queryParam, hkeys, hread,
    BasicData.vdata_of_ne_nil hne]

end

/-! ## Results -/

def resultParam (status : Bool) (ctxts : List Ct) : Srv2CliParam where
  result := if status then kServerCalcResultSuccess else kServerCalcResultFailed
  padding := G.padding
  encResultsStreamSz := EncData.streamSize S.ctxt ctxts

/-- The size that `CallbackFunctionResultRequest` allocates. -/
def resultSize (param : Srv2CliParam) (ctxts : List Ct) : UInt64 :=
  PlainData.streamSize Srv2CliParam.layout [param] + EncData.streamSize S.ctxt ctxts

/-- `CallbackFunctionResultRequest`, from the result it has popped and the entry of its key id to the
buffer it sends. The entry's encryption parameters are no part of it. -/
def callbackFunctionResultRequest (status : Bool) (ctxts : List Ct) : Except Fault ByteStream := do
  let param := resultParam S G status ctxts
  let stream := ByteStream.alloc G.buffer (resultSize S param ctxts).toNat
  let (stream, _) := PlainData.save Srv2CliParam.layout [param] stream
  SealUtility.writeToBinaryStream stream (EncData.save S.ctxt ctxts) true

/-- `Client::Impl::recv_results`, from the answer it has received. `encResults` is what the caller's
data holds before. The log line asks for the `vdata` of what has been read. -/
def recvResults (encParams : Params) (encResults : List Ct) (rbuffer : List UInt8) :
    Except Fault (Bool × List Ct) := do
  let (rplaindata, rstream) ← PlainData.load Srv2CliParam.layout (.ofBytes rbuffer)
  let param ← BasicData.data rplaindata
  let result ← Srv2CliParam.resultField.use param
  let status := decide (result = kServerCalcResultSuccess)
  if status then
    let encResultsStreamSz ← Srv2CliParam.encResultsStreamSzField.use param
    let (encResults, _) ←
      SealUtility.readEncData S.newString S.ctxt rstream encResultsStreamSz encParams true
    let _ ← BasicData.vdata encResults
    return (status, encResults)
  else return (status, encResults)

section

variable {S G} {params : Params} {ctxts : List Ct}

theorem resultSize_eq (hctxts : ∀ c ∈ ctxts, S.ctxt.RoundTrips params c) (status : Bool) :
    resultSize S (resultParam S G status ctxts) ctxts =
      .ofNat (24 + (EncData.image S.ctxt ctxts).length) := by
  have hwidth : 8 + Srv2CliParam.layout.width = 24 := rfl
  rw [resultSize, streamSize_header, hwidth, EncData.streamSize, EncData.save_nil hctxts,
    UInt64.ofNat_add]

theorem callbackFunctionResultRequest_full (hctxts : ∀ c ∈ ctxts, S.ctxt.RoundTrips params c)
    (status : Bool) (hlen : 24 + (EncData.image S.ctxt ctxts).length < 2 ^ 64) :
    ∃ stream, callbackFunctionResultRequest S G status ctxts = .ok stream ∧ stream.Full ∧
      stream.size = (resultSize S (resultParam S G status ctxts) ctxts).toNat ∧
      stream.bytes = header Srv2CliParam.layout (resultParam S G status ctxts) ++
        EncData.image S.ctxt ctxts :=
  encData_full G.buffer _ hctxts (resultSize_eq hctxts status) hlen

/-- After a success, the log line looks at the ciphertexts first. -/
theorem recvResults_loaded (hctxts : ∀ c ∈ ctxts, S.ctxt.RoundTrips params c)
    (hcount : ctxts.length < 2 ^ 64) {param : Srv2CliParam}
    (hsuccess : decide (param.result = kServerCalcResultSuccess) = true)
    (hsize : param.encResultsStreamSz = EncData.streamSize S.ctxt ctxts) (encResults : List Ct)
    (hlen : 24 + (EncData.image S.ctxt ctxts).length < 2 ^ 64) :
    recvResults S params encResults (header Srv2CliParam.layout param ++ EncData.image S.ctxt ctxts) =
      BasicData.vdata ctxts >>= fun _ => .ok (true, ctxts) := by
  obtain ⟨rstream, rest, hload, hread⟩ :=
    encData_unread (L := Srv2CliParam.layout) S.newString param hctxts hcount (by omega)
  rw [recvResults, hload, ok_bind]
  simp only [BasicData.data, pure_eq_ok, ok_bind, Field.use_encode, Srv2CliParam.resultField,
    Srv2CliParam.encResultsStreamSzField, hsuccess, if_true, hsize, hread]

theorem recvResults_success (hctxts : ∀ c ∈ ctxts, S.ctxt.RoundTrips params c)
    (hne : ctxts ≠ []) (hcount : ctxts.length < 2 ^ 64) (encResults : List Ct)
    (hlen : 24 + (EncData.image S.ctxt ctxts).length < 2 ^ 64) :
    recvResults S params encResults
        (header Srv2CliParam.layout (resultParam S G true ctxts) ++ EncData.image S.ctxt ctxts) =
      .ok (true, ctxts) := by
  rw [recvResults_loaded hctxts hcount rfl rfl encResults hlen, BasicData.vdata_of_ne_nil hne, ok_bind]

end

/-! ## The messages -/

/-- Every key message, query message and successful result message fills its buffer, and the receiver
decodes what was sent. No buffer and no vector is longer than a `size_t` counts. -/
theorem wire_roundTrips (S : SealCodecs Params PublicKey RelinKeys Ct) (G : Garbage) :
    (∀ encParams keyId pubkey relinkey, S.encParams.RoundTrips () encParams →
      S.pubkey.RoundTrips encParams pubkey → S.relinkey.RoundTrips encParams relinkey →
      40 + (enckeysBytes S encParams pubkey relinkey).length < 2 ^ 64 →
      ∃ stream, registerEnckeys S G encParams keyId pubkey relinkey = .ok stream ∧ stream.Full ∧
        stream.size = (enckeysSize (enckeyParam S G encParams keyId pubkey relinkey)).toNat ∧
        ∀ container, callbackFunctionEncryptionKeys S container stream.bytes =
          .ok (container.registerKeys keyId.toInt { params := encParams, pubkey, relinkey })) ∧
    (∀ params keyId compParams ctxts, (∀ c ∈ ctxts, S.ctxt.RoundTrips params c) → ctxts ≠ [] →
      ctxts.length < 2 ^ 64 → 2112 + (EncData.image S.ctxt ctxts).length < 2 ^ 64 →
      ∃ stream, sendQuery S G keyId compParams ctxts = .ok stream ∧ stream.Full ∧
        stream.size = (querySize (queryParam S G keyId compParams ctxts)).toNat ∧
        ∀ container encKeys, container.getKeys keyId.toInt = .ok encKeys → encKeys.params = params →
          callbackFunctionQuery S container stream.bytes =
            .ok { keyId, compParams, ctxts, encKeys }) ∧
    (∀ params ctxts, (∀ c ∈ ctxts, S.ctxt.RoundTrips params c) → ctxts ≠ [] →
      ctxts.length < 2 ^ 64 → 24 + (EncData.image S.ctxt ctxts).length < 2 ^ 64 →
      ∃ stream, callbackFunctionResultRequest S G true ctxts = .ok stream ∧ stream.Full ∧
        stream.size = (resultSize S (resultParam S G true ctxts) ctxts).toNat ∧
        ∀ encResults, recvResults S params encResults stream.bytes = .ok (true, ctxts)) := by
  refine ⟨?_, ?_, ?_⟩
  · intro encParams keyId pubkey relinkey hparams hpubkey hrelinkey hlen
    obtain ⟨stream, hsend, hfull, hsize, hbytes⟩ :=
      registerEnckeys_full hparams hpubkey hrelinkey keyId hlen
    refine ⟨stream, hsend, hfull, hsize, fun container => ?_⟩
    rw [hbytes]
    exact callbackFunctionEncryptionKeys_eq hparams hpubkey hrelinkey keyId hlen container
  · intro params keyId compParams ctxts hctxts hne hcount hlen
    obtain ⟨stream, hsend, hfull, hsize, hbytes⟩ := sendQuery_full hctxts keyId compParams hlen
    refine ⟨stream, hsend, hfull, hsize, fun container encKeys hkeys hparams => ?_⟩
    rw [hbytes]
    exact callbackFunctionQuery_eq hctxts hne hcount keyId compParams hlen hkeys hparams
  · intro params ctxts hctxts hne hcount hlen
    obtain ⟨stream, hsend, hfull, hsize, hbytes⟩ :=
      callbackFunctionResultRequest_full hctxts true hlen
    refine ⟨stream, hsend, hfull, hsize, fun encResults => ?_⟩
    rw [hbytes]
    exact recvResults_success hctxts hne hcount encResults hlen

/-! A codec whose objects are byte strings, saved after their length. -/

def sampleCodec (Ctx : Type) : Codec Ctx (List UInt8) where
  save x := (.ofNat x.length :: x, x.length + 1)
  load _ bs :=
    match bs with
    | [] => .error "Unexpected end of stream"
    | n :: bs =>
      if n.toNat ≤ bs.length then .ok ⟨bs.take n.toNat, n.toNat + 1, n.toNat + 1⟩
      else .error "Unexpected end of stream"

theorem sampleCodec_roundTrips {Ctx : Type} (ctx : Ctx) {x : List UInt8} (h : x.length < 256) :
    (sampleCodec Ctx).RoundTrips ctx x where
  saved_eq := rfl
  load_eq rest := by
    have hn : (UInt8.ofNat x.length).toNat = x.length := UInt8.toNat_ofNat_of_lt' h
    simp [sampleCodec, hn]

theorem sampleCodec_load {Ctx : Type} {ctx : Ctx} {bytes : List UInt8} {l : Loaded (List UInt8)}
    (h : (sampleCodec Ctx).load ctx bytes = .ok l) :
    ∃ n bs, bytes = n :: bs ∧ n.toNat ≤ bs.length ∧ l = ⟨bs.take n.toNat, n.toNat + 1, n.toNat + 1⟩ := by
  cases bytes with
  | nil => cases h
  | cons n bs =>
    simp only [sampleCodec] at h
    split at h
    · rename_i hle
      cases h
      exact ⟨n, bs, rfl, hle, rfl⟩
    · cases h

def sampleSeal : SealCodecs (List UInt8) (List UInt8) (List UInt8) (List UInt8) where
  newString n := if n < 2 ^ 62 then .ok () else .error "basic_string::_S_create"
  encParams := sampleCodec Unit
  pubkey := sampleCodec (List UInt8)
  relinkey := sampleCodec (List UInt8)
  ctxt := sampleCodec (List UInt8)

def sampleGarbage : Garbage where
  buffer _ := 0xcd
  padding := .replicate 4 0xee

def sampleCompParams : Share.ComputationParams where
  imgWidth := 28
  imgHeight := 28
  imgChannels := 1
  labels := 10
  dataset := .replicate 1024 0x41
  model := .replicate 1024 0x42
  optLevel := 1
  activation := -1

theorem wire_roundTrips_sample :
    (∃ stream, registerEnckeys sampleSeal sampleGarbage [7] 5 [1, 2, 3] [4] = .ok stream ∧
      stream.Full ∧ ∀ container, callbackFunctionEncryptionKeys sampleSeal container stream.bytes =
        .ok (container.registerKeys 5 ⟨[7], [1, 2, 3], [4]⟩)) ∧
    (∃ stream, sendQuery sampleSeal sampleGarbage 5 sampleCompParams [[1, 2], [], [3]] = .ok stream ∧
      stream.Full ∧ callbackFunctionQuery sampleSeal
        (.registerKeys .empty 5 ⟨[7], [1, 2, 3], [4]⟩) stream.bytes =
        .ok ⟨5, sampleCompParams, [[1, 2], [], [3]], ⟨[7], [1, 2, 3], [4]⟩⟩) ∧
    ∃ stream, callbackFunctionResultRequest sampleSeal sampleGarbage true [[9], [8, 8]] = .ok stream ∧
      stream.Full ∧ recvResults sampleSeal [7] [] stream.bytes = .ok (true, [[9], [8, 8]]) := by
  obtain ⟨hkeys, hquery, hresult⟩ := wire_roundTrips sampleSeal sampleGarbage
  refine ⟨?_, ?_, ?_⟩
  · obtain ⟨stream, hsend, hfull, -, hreceive⟩ := hkeys [7] 5 [1, 2, 3] [4]
      (sampleCodec_roundTrips () (by decide)) (sampleCodec_roundTrips _ (by decide))
      (sampleCodec_roundTrips _ (by decide)) (by decide)
    exact ⟨stream, hsend, hfull, hreceive⟩
  · obtain ⟨stream, hsend, hfull, -, hreceive⟩ := hquery [7] 5 sampleCompParams [[1, 2], [], [3]]
      (fun c hc => sampleCodec_roundTrips _ (by revert c; decide)) (by decide) (by decide) (by decide)
    exact ⟨stream, hsend, hfull, hreceive _ _ rfl rfl⟩
  · obtain ⟨stream, hsend, hfull, -, hreceive⟩ := hresult [7] [[9], [8, 8]]
      (fun c hc => sampleCodec_roundTrips _ (by revert c; decide)) (by decide) (by decide) (by decide)
    exact ⟨stream, hsend, hfull, hreceive []⟩

end Server
