import PPCNN.Share.ConcurrentMapQueue
import Mathlib.Algebra.Group.Nat.Defs

/-!
# Queries and their results (`ppcnn_server_query.cpp`, `ppcnn_server_result.cpp`)

Also `gen_uuid`, and what a calculation thread does with one query.
-/

set_option autoImplicit false

namespace Server

open Share

variable {E Keys Ct : Type}

/-- `ppcnn_share::ComputationParams`. -/
structure ComputationParams where
  imgWidth : ℕ
  imgHeight : ℕ
  imgChannels : ℕ
  labels : ℕ
  dataset : String
  model : String
  optLevel : ℤ
  activation : ℤ

structure Query (Keys Ct : Type) where
  keyId : ℤ
  params : ComputationParams
  ctxts : List Ct
  encKeys : Keys

structure Result (Ct : Type) where
  keyId : ℤ
  queryId : ℤ
  status : Bool
  ctxts : List Ct
  createdTime : ℕ

/-- A query or a result with the number of the accepted query it belongs to. The code has no such
number: it is a record of the past, and no step decides by it. -/
structure Ticketed (α : Type) where
  ticket : ℕ
  val : α

/-- What is fixed while the server runs. `E` is what a computation finds in the process and on the
disk when it runs. -/
structure Config (E Keys Ct : Type) where
  /-- the first value of `rand` after `srand` -/
  rand : ℕ → ℕ
  fileExist : E → String → Bool
  /-- `BuildNetwork` and `predict` on the two model files -/
  predict : E → ComputationParams → Keys → List Ct → String → String → Except String (List Ct)
  /-- the most ciphertexts that a `std::vector` can have -/
  maxSize : ℕ
  plaintextExperimentPath : String
  maxConcurrentQueries : ℕ
  maxResults : ℕ
  resultLifetimeSec : ℕ

/-- Units of the clock in a second. -/
def clockTicks : ℕ := 1000000000

namespace Config

variable (P : Config E Keys Ct)

/-- `gen_uuid`, at the time `now`: `srand` takes an `unsigned int`. -/
def genUuid (now : ℕ) : ℤ := P.rand (now / clockTicks % 2 ^ 32)

def structurePath (params : ComputationParams) : String :=
  P.plaintextExperimentPath ++ params.dataset ++ "/saved_models/" ++ params.model ++
    "_structure.json"

def weightsPath (params : ComputationParams) : String :=
  P.plaintextExperimentPath ++ params.dataset ++ "/saved_models/" ++ params.model ++ "_weights.h5"

/-- `CalcThread::Impl::compute`: the status is true whenever it returns. -/
def compute (e : E) (query : Query Keys Ct) : Except String (Bool × List Ct) := do
  let encryptedResults ← P.predict e query.params query.encKeys query.ctxts
    (P.structurePath query.params) (P.weightsPath query.params)
  return (true, encryptedResults)

/-- The loop body of `CalcThread::Impl::exec` between the two queues. -/
def exec (e : E) (now : ℕ) (queryId : ℤ) (query : Query Keys Ct) : Except String (Result Ct) := do
  if !P.fileExist e (P.structurePath query.params) then
    throw ("File not fount. (" ++ P.structurePath query.params ++ ")")
  if !P.fileExist e (P.weightsPath query.params) then
    throw ("File not fount. (" ++ P.weightsPath query.params ++ ")")
  -- the vector for the results is made with the number of labels that the client has sent
  if P.maxSize < query.params.labels then
    throw "cannot create std::vector larger than max_size()"
  let (status, encryptedResults) ← P.compute e query
  return ⟨query.keyId, queryId, status, encryptedResults, now⟩

end Config

/-- `Result::elapsed_time`. -/
def Result.elapsedTime (result : Result Ct) (now : ℕ) : ℕ := (now - result.createdTime) / clockTicks

abbrev QueryQueue (Keys Ct : Type) := ConcurrentMapQueue ℤ (Ticketed (Query Keys Ct))

abbrev ResultQueue (Ct : Type) := ConcurrentMapQueue ℤ (Ticketed (Result Ct))

/-- `QueryQueue::push`. -/
def QueryQueue.push (P : Config E Keys Ct) (now : ℕ) (q : QueryQueue Keys Ct)
    (data : Ticketed (Query Keys Ct)) : Except String (ℤ × QueryQueue Keys Ct) := do
  let id := P.genUuid now
  return (id, ← ConcurrentMapQueue.push q id data)

end Server
