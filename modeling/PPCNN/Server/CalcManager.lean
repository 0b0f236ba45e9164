import PPCNN.Lib.System
import PPCNN.Server.Query
import Mathlib.Algebra.BigOperators.Group.List.Basic
import Mathlib.Algebra.Order.Group.Multiset

/-!
# The calculation manager and its threads (`ppcnn_server_calcmanager.cpp`, `…_calcthread.cpp`)

The steps of the system are `push_query`, the two queue operations of a calculation thread and the
computation between them, `pop_result`, `cleanup_results` and the passing of time. A thread ends
when an exception leaves its loop.
-/

set_option autoImplicit false

namespace Server

open Lib Share

variable {E Keys Ct : Type}

/-! ## State -/

inductive CalcThread (Keys Ct : Type) where
  | waiting
  | computing (queryId : ℤ) (query : Ticketed (Query Keys Ct))
  | computed (queryId : ℤ) (result : Ticketed (Result Ct))
  | ended

/-- A result that `pop_result(queryId)` has handed to the client of query `client`. -/
structure Delivery (Ct : Type) where
  client : ℕ
  queryId : ℤ
  result : Ticketed (Result Ct)

structure State (Keys Ct : Type) where
  now : ℕ
  qque : QueryQueue Keys Ct
  rque : ResultQueue Ct
  threads : List (CalcThread Keys Ct)
  -- the past: accepted queries with the id `push_query` returned, and what became of results
  accepted : List (ℤ × Query Keys Ct)
  deliveries : List (Delivery Ct)
  expired : List (ℤ × Ticketed (Result Ct))
  lost : List (ℤ × ℕ)

namespace State

variable (P : Config E Keys Ct) (s : State Keys Ct)

/-- `start_threads`. -/
def start (now threadNum : ℕ) : State Keys Ct where
  now := now
  qque := OrdMap.empty
  rque := OrdMap.empty
  threads := List.replicate threadNum .waiting
  accepted := []
  deliveries := []
  expired := []
  lost := []

/-- The queues are below their limits. -/
def HasRoom : Prop := s.qque.size < P.maxConcurrentQueries ∧ s.rque.size < P.maxResults

instance : Decidable (s.HasRoom P) := inferInstanceAs (Decidable (_ ∧ _))

/-- `CalcManager::push_query`. -/
def pushQuery (query : Query Keys Ct) : ℤ × State Keys Ct :=
  if s.qque.size < P.maxConcurrentQueries ∧ s.rque.size < P.maxResults then
    match QueryQueue.push P s.now s.qque ⟨s.accepted.length, query⟩ with
    | .ok (id, qque) => (id, { s with qque, accepted := s.accepted ++ [(id, query)] })
    | .error _ => (-1, s)
  else (-1, s)

/-- A thread gets a query out of `in_queue_`. -/
def popQuery (th : ℕ) : Option (State Keys Ct) :=
  match s.threads[th]?, s.qque.pop with
  | some .waiting, some ((queryId, query), qque) =>
    some { s with qque, threads := s.threads.set th (.computing queryId query) }
  | _, _ => none

/-- The computation of a thread. -/
def execQuery (th : ℕ) (e : E) : Option (State Keys Ct) :=
  match s.threads[th]? with
  | some (.computing queryId query) =>
    match P.exec e s.now queryId query.val with
    | .ok result =>
      some { s with threads := s.threads.set th (.computed queryId ⟨query.ticket, result⟩) }
    | .error _ =>
      some { s with threads := s.threads.set th .ended, lost := (queryId, query.ticket) :: s.lost }
  | _ => none

/-- A thread puts its result into `out_queue_`. -/
def pushResult (th : ℕ) : Option (State Keys Ct) :=
  match s.threads[th]? with
  | some (.computed queryId result) =>
    match s.rque.push queryId result with
    | .ok rque => some { s with rque, threads := s.threads.set th .waiting }
    | .error _ =>
      some { s with threads := s.threads.set th .ended, lost := (queryId, result.ticket) :: s.lost }
  | _ => none

/-- `CalcManager::pop_result`, called once by the client of query `client` with the id it got. -/
def popResult (client : ℕ) : Option (State Keys Ct) :=
  match s.accepted[client]? with
  | some (queryId, _) =>
    if client ∈ s.deliveries.map Delivery.client then none
    else (s.rque.popKey queryId).map fun (result, rque) =>
      { s with rque, deliveries := ⟨client, queryId, result⟩ :: s.deliveries }
  | none => none

def expire (id : ℤ) : State Keys Ct :=
  match s.rque.popKey id with
  | some (result, rque) => { s with rque, expired := (id, result) :: s.expired }
  | none => s

/-- `CalcManager::cleanup_results`. -/
def cleanupResults : State Keys Ct :=
  if P.maxResults ≤ s.rque.size then
    let queryIds := (s.rque.entries.filter fun e =>
      P.resultLifetimeSec ≤ e.2.val.elapsedTime s.now).map Prod.fst
    queryIds.foldl expire s
  else s

end State

/-! ## The system -/

inductive Action (E Keys Ct : Type) where
  | tick (d : ℕ)
  | pushQuery (query : Query Keys Ct)
  | popQuery (th : ℕ)
  | execQuery (th : ℕ) (e : E)
  | pushResult (th : ℕ)
  | popResult (client : ℕ)
  | cleanupResults

def State.step (P : Config E Keys Ct) (s : State Keys Ct) :
    Action E Keys Ct → Option (State Keys Ct)
  | .tick d => some { s with now := s.now + d }
  | .pushQuery query => some (s.pushQuery P query).2
  | .popQuery th => s.popQuery th
  | .execQuery th e => s.execQuery P th e
  | .pushResult th => s.pushResult th
  | .popResult client => s.popResult client
  | .cleanupResults => some (s.cleanupResults P)

/-- The server with `threadNum` calculation threads. -/
def system (P : Config E Keys Ct) (threadNum : ℕ) : System (State Keys Ct) (Action E Keys Ct) where
  init s := ∃ now, s = State.start now threadNum
  step := State.step P

end Server
