import PPCNN.Server.Messages

/-!
# The result thread (`ppcnn_client_result_thread.cpp`)

The thread of a query waits for its result and tells the user's callback. The ciphertexts go to the
callback through `vdata`, which refuses an empty vector, and `recv_results` fills the vector only if the
response says success. So the callback hears of a success with ciphertexts and of nothing else
(`resultThread_tells_iff`); the exception that is thrown instead waits in the thread's `ThreadException`.
-/

set_option autoImplicit false

namespace Client

open Lib Share Server

variable {Params PublicKey RelinKeys Ct : Type}

/-- A call of the user's `cbfunc_t`, without its `cbargs`. -/
structure CallbackCall (Ct : Type) where
  queryId : Int32
  status : Bool
  encResults : List Ct
  deriving DecidableEq

variable (S : SealCodecs Params PublicKey RelinKeys Ct) (encParams : Params)

namespace ResultThread

/-- `ResultThread::Impl::exec`, with the response that `recv_results` gets: the calls of the callback and
how the body ends. The handlers of `exec` put an exception into `te`. -/
def exec (cbfunc : CallbackCall Ct → Except Fault Unit) (queryId : Int32) (rbuffer : List UInt8) :
    List (CallbackCall Ct) × Except Fault Unit :=
  match recvResults S encParams [] rbuffer with
  | .error e => ([], .error e)
  | .ok (status, encResults) =>
    match BasicData.vdata encResults with
    | .error e => ([], .error e)
    | .ok encResults =>
      let call : CallbackCall Ct := { queryId, status, encResults }
      ([call], cbfunc call)

end ResultThread

/-- A response with its ciphertexts. -/
def response (param : Srv2CliParam) (ctxts : List Ct) : List UInt8 :=
  header Srv2CliParam.layout param ++ EncData.image S.ctxt ctxts

/-- The response can be loaded, with the size of its ciphertexts in its header. -/
structure WellFormed (param : Srv2CliParam) (ctxts : List Ct) : Prop where
  roundTrips : ∀ c ∈ ctxts, S.ctxt.RoundTrips encParams c
  size_eq : param.encResultsStreamSz = EncData.streamSize S.ctxt ctxts
  count_lt : ctxts.length < 2 ^ 64
  length_lt : (response S param ctxts).length < 2 ^ 64

def saysSuccess (param : Srv2CliParam) : Bool := decide (param.result = kServerCalcResultSuccess)

/-- What the callback should be called with. -/
def outcome (queryId : Int32) (param : Srv2CliParam) (ctxts : List Ct) : CallbackCall Ct where
  queryId
  status := saysSuccess param
  encResults := if saysSuccess param then ctxts else []

variable {S encParams} {param : Srv2CliParam} {ctxts : List Ct}

theorem length_response (param : Srv2CliParam) (ctxts : List Ct) :
    (response S param ctxts).length = 24 + (EncData.image S.ctxt ctxts).length := by
  rw [response, List.length_append, length_header]
  rfl

/-- What the server sends for a result is such a response. -/
theorem callbackFunctionResultRequest_response (hctxts : ∀ c ∈ ctxts, S.ctxt.RoundTrips encParams c)
    (hcount : ctxts.length < 2 ^ 64) (G : Garbage) (status : Bool)
    (hlen : 24 + (EncData.image S.ctxt ctxts).length < 2 ^ 64) :
    ∃ stream, callbackFunctionResultRequest S G status ctxts = .ok stream ∧
      stream.bytes = response S (resultParam S G status ctxts) ctxts ∧
      WellFormed S encParams (resultParam S G status ctxts) ctxts ∧
      saysSuccess (resultParam S G status ctxts) = status := by
  obtain ⟨stream, hsend, -, -, hbytes⟩ :=
    callbackFunctionResultRequest_full (G := G) hctxts status hlen
  refine ⟨stream, hsend, hbytes, ⟨hctxts, rfl, hcount, ?_⟩, ?_⟩
  · rw [length_response]
    exact hlen
  · cases status with
    | false => rfl
    | true => rfl

/-! ## `recv_results` -/

/-- A failure leaves the caller's data as it is. -/
theorem recvResults_failed (hfailed : saysSuccess param = false) (encResults : List Ct) :
    recvResults S encParams encResults (response S param ctxts) = .ok (false, encResults) := by
  obtain ⟨rstream, hload, -⟩ :=
    load_header (L := Srv2CliParam.layout) param (EncData.image S.ctxt ctxts)
  rw [recvResults, response, hload, ok_bind]
  rw [saysSuccess] at hfailed
  simp only [BasicData.data, pure_eq_ok, ok_bind, Field.use_encode, Srv2CliParam.resultField, hfailed,
    Bool.false_eq_true, if_false]

theorem WellFormed.recvResults (h : WellFormed S encParams param ctxts)
    (hsuccess : saysSuccess param = true) (encResults : List Ct) :
    recvResults S encParams encResults (response S param ctxts) =
      BasicData.vdata ctxts >>= fun _ => .ok (true, ctxts) := by
  have hlen := h.length_lt
  rw [length_response] at hlen
  exact recvResults_loaded h.roundTrips h.count_lt hsuccess h.size_eq encResults hlen

/-! ## The callback -/

section

variable (cbfunc : CallbackCall Ct → Except Fault Unit) (queryId : Int32)

theorem exec_failed (hfailed : saysSuccess param = false) :
    ResultThread.exec S encParams cbfunc queryId (response S param ctxts) =
      ([], .error (.thrown "Data is empty.")) := by
  simp only [ResultThread.exec, recvResults_failed hfailed, BasicData.vdata_nil]

theorem exec_empty (h : WellFormed S encParams param []) (hsuccess : saysSuccess param = true) :
    ResultThread.exec S encParams cbfunc queryId (response S param []) =
      ([], .error (.thrown "Data is empty.")) := by
  simp only [ResultThread.exec, h.recvResults hsuccess, BasicData.vdata_nil, error_bind]

theorem exec_success (h : WellFormed S encParams param ctxts) (hsuccess : saysSuccess param = true)
    (hne : ctxts ≠ []) :
    ResultThread.exec S encParams cbfunc queryId (response S param ctxts) =
      ([outcome queryId param ctxts], cbfunc (outcome queryId param ctxts)) := by
  simp only [ResultThread.exec, h.recvResults hsuccess, BasicData.vdata_of_ne_nil hne, ok_bind,
    outcome, hsuccess, if_true]

end

/-- On every response that can be loaded, the callback is called once, with the outcome, exactly if the
response says success and has a ciphertext. -/
theorem resultThread_tells_iff (S : SealCodecs Params PublicKey RelinKeys Ct) (encParams : Params)
    (cbfunc : CallbackCall Ct → Except Fault Unit) (queryId : Int32) {param : Srv2CliParam}
    {ctxts : List Ct} (h : WellFormed S encParams param ctxts) :
    (ResultThread.exec S encParams cbfunc queryId (response S param ctxts)).1 =
        [outcome queryId param ctxts] ↔
      saysSuccess param = true ∧ ctxts ≠ [] := by
  constructor
  · intro hcalls
    cases hsuccess : saysSuccess param with
    | false =>
      rw [exec_failed cbfunc queryId hsuccess] at hcalls
      cases hcalls
    | true =>
      refine ⟨rfl, fun hnil => ?_⟩
      subst hnil
      rw [exec_empty cbfunc queryId h hsuccess] at hcalls
      cases hcalls
  · rintro ⟨hsuccess, hne⟩
    rw [exec_success cbfunc queryId h hsuccess hne]

/-- The callback is not told that query 3 has failed, nor that it has succeeded without a ciphertext. -/
theorem resultThread_tells_iff_differs :
    (∃ stream, callbackFunctionResultRequest sampleSeal sampleGarbage false [] = .ok stream ∧
      ResultThread.exec sampleSeal [7] (fun _ => .ok ()) 3 stream.bytes =
        ([], .error (.thrown "Data is empty."))) ∧
    ∃ stream, callbackFunctionResultRequest sampleSeal sampleGarbage true [] = .ok stream ∧
      ResultThread.exec sampleSeal [7] (fun _ => .ok ()) 3 stream.bytes =
        ([], .error (.thrown "Data is empty.")) := by
  have hnone : ∀ c ∈ ([] : List (List UInt8)), sampleSeal.ctxt.RoundTrips [7] c :=
    fun c hc => absurd hc List.not_mem_nil
  constructor
  · obtain ⟨stream, hsend, hbytes, -, hstatus⟩ :=
      callbackFunctionResultRequest_response hnone (by decide) sampleGarbage false (by decide)
    refine ⟨stream, hsend, ?_⟩
    rw [hbytes]
    exact exec_failed _ 3 hstatus
  · obtain ⟨stream, hsend, hbytes, hwell, hstatus⟩ :=
      callbackFunctionResultRequest_response hnone (by decide) sampleGarbage true (by decide)
    refine ⟨stream, hsend, ?_⟩
    rw [hbytes]
    exact exec_empty _ 3 hwell hstatus

theorem resultThread_tells_iff_sample :
    ∃ stream, callbackFunctionResultRequest sampleSeal sampleGarbage true [[9], [8, 8]] = .ok stream ∧
      (ResultThread.exec sampleSeal [7] (fun _ => .ok ()) 3 stream.bytes).1 =
        [⟨3, true, [[9], [8, 8]]⟩] := by
  have hctxts : ∀ c ∈ ([[9], [8, 8]] : List (List UInt8)), sampleSeal.ctxt.RoundTrips [7] c :=
    fun c hc => sampleCodec_roundTrips _ (by revert c; decide)
  obtain ⟨stream, hsend, hbytes, hwell, hstatus⟩ :=
    callbackFunctionResultRequest_response hctxts (by decide) sampleGarbage true (by decide)
  refine ⟨stream, hsend, ?_⟩
  rw [hbytes]
  exact (resultThread_tells_iff sampleSeal [7] (fun _ => .ok ()) 3 hwell).2
    ⟨hstatus, List.cons_ne_nil _ _⟩

end Client
