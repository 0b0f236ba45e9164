import PPCNN.Server.Loss

/-!
# Clients with a callback (`ppcnn_client.cpp`, `ppcnn_client_result_thread.cpp`)

`Client::send_query` with a callback starts a thread that requests the result under the id the server
returned, also under the -1 of a query that was not accepted. The handler of the request stays in the
loop of `pop_result` until a result with that id is stored. With fresh ids and computations that
succeed, a result can come exactly if the queues had room when the query arrived
(`requests_answered`).
-/

set_option autoImplicit false

namespace Server

open Lib Share

variable {E Keys Ct : Type} (P : Config E Keys Ct) {n : ℕ}

/-! ## The system -/

/-- How far a call of `send_query` with a callback has come. -/
inductive Stage where
  /-- the result thread has started -/
  | launched
  /-- the handler of the request is in the loop of `pop_result` -/
  | requested
  | answered
  deriving DecidableEq

/-- A call of `send_query` with a callback, by the id the server returned. As a record of the past: the
ticket of the query, if the queues had room when it arrived. -/
structure Callback where
  queryId : ℤ
  ticket : Option ℕ
  stage : Stage

structure Clients (Keys Ct : Type) where
  server : State Keys Ct
  callbacks : List Callback

inductive ClientAction (E Keys Ct : Type) where
  /-- a step of a thread of the server, or of the clock -/
  | server (l : Action E Keys Ct)
  | sendQuery (query : Query Keys Ct)
  | request (k : ℕ)
  | popResult (k : ℕ)

namespace Clients

variable (s : Clients Keys Ct)

/-- The steps that no client asks for. No part of the server calls `cleanup_results`. -/
def serverStep (l : Action E Keys Ct) : Option (Clients Keys Ct) :=
  match l with
  | .pushQuery _ | .popResult _ | .cleanupResults => none
  | l => (s.server.step P l).map fun server => { s with server }

/-- The handler of the query and, with its answer, `set_callback`. -/
def sendQuery (query : Query Keys Ct) : Clients Keys Ct :=
  let (queryId, server) := s.server.pushQuery P query
  let ticket := if s.server.HasRoom P then some s.server.accepted.length else none
  { server, callbacks := s.callbacks ++ [⟨queryId, ticket, .launched⟩] }

/-- `ResultThread::Impl::exec` sends its request, and the handler enters the loop of `pop_result`. -/
def request (k : ℕ) : Option (Clients Keys Ct) :=
  match s.callbacks[k]? with
  | some c =>
    if c.stage = .launched then
      some { s with callbacks := s.callbacks.set k { c with stage := .requested } }
    else none
  | none => none

/-- The loop of `pop_result` ends with a result. -/
def popResult (k : ℕ) : Option (Clients Keys Ct) :=
  match s.callbacks[k]? with
  | some c =>
    if c.stage = .requested then
      (s.server.rque.popKey c.queryId).map fun (result, rque) =>
        let deliveries := match c.ticket with
          | some client => ⟨client, c.queryId, result⟩ :: s.server.deliveries
          | none => s.server.deliveries
        { server := { s.server with rque, deliveries }
          callbacks := s.callbacks.set k { c with stage := .answered } }
    else none
  | none => none

def step : ClientAction E Keys Ct → Option (Clients Keys Ct)
  | .server l => s.serverStep P l
  | .sendQuery query => some (s.sendQuery P query)
  | .request k => s.request k
  | .popResult k => s.popResult k

end Clients

/-- The server and clients that only send queries with a callback. -/
def clientSystem (P : Config E Keys Ct) (threadNum : ℕ) :
    System (Clients Keys Ct) (ClientAction E Keys Ct) where
  init s := ∃ now, s = ⟨State.start now threadNum, []⟩
  step := Clients.step P

/-! ## The property -/

/-- A query with the id is queued, being computed, or in the result queue. -/
def CanCome (s : State Keys Ct) (queryId : ℤ) : Prop :=
  queryId ∈ (s.queued + s.held + s.stored).map Prod.fst

instance (s : State Keys Ct) (queryId : ℤ) : Decidable (CanCome s queryId) :=
  inferInstanceAs (Decidable (_ ∈ _))

/-- Computations succeed, and the id of a query is not that of one whose client still waits. -/
def Assumed (s : Clients Keys Ct) : ClientAction E Keys Ct → Prop
  | .server l => Computes P s.server l
  | .sendQuery _ => s.server.HasRoom P → ∀ a ∈ s.server.waiting, a.1 ≠ P.genUuid s.server.now
  | _ => True

instance (s : Clients Keys Ct) (l : ClientAction E Keys Ct) : Decidable (Assumed P s l) := by
  cases l <;> unfold Assumed <;> infer_instance

/-- The queues have room for a query that arrives. -/
def RoomFor (s : Clients Keys Ct) : ClientAction E Keys Ct → Prop
  | .sendQuery _ => s.server.HasRoom P
  | _ => True

instance (s : Clients Keys Ct) (l : ClientAction E Keys Ct) : Decidable (RoomFor P s l) := by
  cases l <;> unfold RoomFor <;> infer_instance

variable {P}

/-! ## What the callbacks know -/

/-- The callbacks of accepted queries have their own tickets, and wait for them until they are
answered; the others have the id -1. -/
structure Tracked (s : Clients Keys Ct) : Prop where
  accepted : ∀ (k : ℕ) (c : Callback) (client : ℕ), s.callbacks[k]? = some c →
    c.ticket = some client → ∃ query, s.server.accepted[client]? = some (c.queryId, query)
  rejected : ∀ (k : ℕ) (c : Callback), s.callbacks[k]? = some c → c.ticket = none → c.queryId = -1
  own : ∀ (k k' : ℕ) (c c' : Callback) (client : ℕ), s.callbacks[k]? = some c →
    s.callbacks[k']? = some c' → c.ticket = some client → c'.ticket = some client → k = k'
  waits : ∀ (k : ℕ) (c : Callback) (client : ℕ), s.callbacks[k]? = some c →
    c.ticket = some client → c.stage ≠ .answered → client ∉ s.server.deliveries.map Delivery.client

/-- The invariant of the runs that meet the assumptions. -/
structure ClientInv (P : Config E Keys Ct) (n : ℕ) (s : Clients Keys Ct) : Prop where
  server : (system P n).Reachable (fun s l => FreshId P s l ∧ Computes P s l) s.server
  tracked : Tracked s
  nonneg : ∀ a ∈ s.server.accepted, 0 ≤ a.1
  expired : s.server.expired = []

section

variable {s s' : Clients Keys Ct}

/-- A callback changes its stage only. -/
theorem Tracked.set_stage (h : Tracked s) {k : ℕ} {c : Callback} (hc : s.callbacks[k]? = some c)
    {stage : Stage} {server : State Keys Ct} (haccepted : server.accepted = s.server.accepted)
    (hwaits : ∀ (k' : ℕ) (c' : Callback) (client : ℕ), s.callbacks[k']? = some c' →
      c'.ticket = some client → (if k' = k then stage else c'.stage) ≠ .answered →
        client ∉ server.deliveries.map Delivery.client) :
    Tracked ⟨server, s.callbacks.set k { c with stage }⟩ := by
  have hset : ∀ (k' : ℕ) (c' : Callback), (s.callbacks.set k { c with stage })[k']? = some c' →
      ∃ c0, s.callbacks[k']? = some c0 ∧ c'.queryId = c0.queryId ∧ c'.ticket = c0.ticket ∧
        c'.stage = if k' = k then stage else c0.stage := by
    intro k' c' hc'
    by_cases hk : k' = k
    · subst hk
      rw [List.getElem?_set_self (List.getElem?_eq_some_iff.1 hc).1] at hc'
      cases hc'
      exact ⟨c, hc, rfl, rfl, by rw [if_pos rfl]⟩
    · rw [List.getElem?_set_ne (Ne.symm hk)] at hc'
      exact ⟨c', hc', rfl, rfl, by rw [if_neg hk]⟩
  constructor
  · intro k' c' client hc' ht
    obtain ⟨c0, hc0, hid, hticket, -⟩ := hset k' c' hc'
    rw [haccepted, hid]
    exact h.accepted k' c0 client hc0 (hticket ▸ ht)
  · intro k' c' hc' ht
    obtain ⟨c0, hc0, hid, hticket, -⟩ := hset k' c' hc'
    exact hid.trans (h.rejected k' c0 hc0 (hticket ▸ ht))
  · intro k1 k2 c1 c2 client hc1 hc2 ht1 ht2
    obtain ⟨d1, hd1, -, hticket1, -⟩ := hset k1 c1 hc1
    obtain ⟨d2, hd2, -, hticket2, -⟩ := hset k2 c2 hc2
    exact h.own k1 k2 d1 d2 client hd1 hd2 (hticket1 ▸ ht1) (hticket2 ▸ ht2)
  · intro k' c' client hc' ht hstage
    obtain ⟨c0, hc0, -, hticket, hs⟩ := hset k' c' hc'
    exact hwaits k' c0 client hc0 (hticket ▸ ht) (hs ▸ hstage)

/-- A query with a fresh id is accepted exactly if the queues have room. -/
theorem pushQuery_fresh (h : Orderly P n s.server) (query : Query Keys Ct)
    (hfresh : s.server.HasRoom P → ∀ a ∈ s.server.waiting, a.1 ≠ P.genUuid s.server.now) :
    (¬s.server.HasRoom P ∧ s.server.pushQuery P query = (-1, s.server)) ∨
    (s.server.HasRoom P ∧ ∃ qque, s.server.pushQuery P query = (P.genUuid s.server.now,
      { s.server with qque, accepted := s.server.accepted ++ [(P.genUuid s.server.now, query)] })) := by
  by_cases hroom : s.server.HasRoom P
  · refine .inr ⟨hroom, _, pushQuery_room hroom (fun hkey => ?_) query⟩
    obtain ⟨v, hv⟩ := OrdMap.mem_keys_iff.1 hkey
    have hqueued : (P.genUuid s.server.now, v.ticket) ∈ s.server.queued := mem_ticketsIn hv
    have hwaiting := inside_waiting h.conserved h.origins h.separate
      (Multiset.mem_add.2 (.inl (Multiset.mem_add.2 (.inl hqueued))))
    exact hfresh hroom _ hwaiting rfl
  · exact .inl ⟨hroom, pushQuery_full hroom query⟩

/-- The steps of the threads and of the clock neither accept queries nor hand out results. -/
theorem serverStep_frame {l : Action E Keys Ct} (h : s.serverStep P l = some s') :
    (∃ server, s.server.step P l = some server ∧ s' = { s with server }) ∧ FreshId P s.server l ∧
      s'.server.accepted = s.server.accepted ∧ s'.server.deliveries = s.server.deliveries ∧
        s'.server.expired = s.server.expired := by
  cases l with
  | pushQuery query => cases h
  | popResult client => cases h
  | cleanupResults => cases h
  | tick d =>
    cases h
    exact ⟨⟨_, rfl, rfl⟩, trivial, rfl, rfl, rfl⟩
  | popQuery th =>
    obtain ⟨server, hs, rfl⟩ := Option.map_eq_some_iff.1 h
    obtain ⟨_, _, _, _, _, he⟩ := popQuery_cases hs
    exact ⟨⟨server, hs, rfl⟩, trivial, by rw [he], by rw [he], by rw [he]⟩
  | execQuery th e =>
    obtain ⟨server, hs, rfl⟩ := Option.map_eq_some_iff.1 h
    obtain ⟨_, _, _, ⟨_, _, he⟩ | ⟨_, _, he⟩⟩ := execQuery_cases hs <;>
      exact ⟨⟨server, hs, rfl⟩, trivial, by rw [he], by rw [he], by rw [he]⟩
  | pushResult th =>
    obtain ⟨server, hs, rfl⟩ := Option.map_eq_some_iff.1 h
    obtain ⟨_, _, _, ⟨_, _, he⟩ | ⟨_, _, he⟩⟩ := pushResult_cases hs <;>
      exact ⟨⟨server, hs, rfl⟩, trivial, by rw [he], by rw [he], by rw [he]⟩

theorem ClientInv.orderly (h : ClientInv P n s) : Orderly P n s.server :=
  orderly_reachable (fun _ _ hl => hl.1) h.server

/-- No query that the server knows has the id -1. -/
theorem ClientInv.id_ne (h : ClientInv P n s) {a : ℤ × ℕ} (ha : a ∈ s.server.issued) : a.1 ≠ -1 := by
  obtain ⟨query, hrec⟩ := mem_issued.1 ha
  have := h.nonneg _ (List.mem_of_getElem? hrec)
  omega

/-- A new callback, at the end of the list. -/
theorem Tracked.append (h : Tracked s) {server : State Keys Ct} {c0 : Callback}
    (haccepted : ∀ (client : ℕ) (a : ℤ × Query Keys Ct), s.server.accepted[client]? = some a →
      server.accepted[client]? = some a)
    (hdeliveries : server.deliveries = s.server.deliveries)
    (hticket : ∀ client, c0.ticket = some client →
      (∃ query, server.accepted[client]? = some (c0.queryId, query)) ∧
      (∀ (k : ℕ) (c : Callback), s.callbacks[k]? = some c → c.ticket ≠ some client) ∧
        client ∉ s.server.deliveries.map Delivery.client)
    (hrejected : c0.ticket = none → c0.queryId = -1) : Tracked ⟨server, s.callbacks ++ [c0]⟩ := by
  have hnew : ∀ (k : ℕ) (c : Callback), (s.callbacks ++ [c0])[k]? = some c →
      s.callbacks[k]? = some c ∨ k = s.callbacks.length ∧ c = c0 := by
    intro k c hc
    rcases Nat.lt_trichotomy k s.callbacks.length with hlt | rfl | hgt
    · rw [List.getElem?_append_left hlt] at hc
      exact .inl hc
    · rw [List.getElem?_concat_length] at hc
      exact .inr ⟨rfl, (Option.some.inj hc).symm⟩
    · rw [List.getElem?_eq_none (by simp; omega)] at hc
      cases hc
  constructor
  · intro k c client hc ht
    rcases hnew k c hc with hc | ⟨-, rfl⟩
    · obtain ⟨query, hrec⟩ := h.accepted k c client hc ht
      exact ⟨query, haccepted client _ hrec⟩
    · exact (hticket client ht).1
  · intro k c hc ht
    rcases hnew k c hc with hc | ⟨-, rfl⟩
    · exact h.rejected k c hc ht
    · exact hrejected ht
  · intro k k' c c' client hc hc' ht ht'
    rcases hnew k c hc with hold | ⟨hk, rfl⟩
    · rcases hnew k' c' hc' with hold' | ⟨-, rfl⟩
      · exact h.own k k' c c' client hold hold' ht ht'
      · exact absurd ht ((hticket client ht').2.1 k c hold)
    · rcases hnew k' c' hc' with hold' | ⟨hk', -⟩
      · exact absurd ht' ((hticket client ht).2.1 k' c' hold')
      · exact hk.trans hk'.symm
  · intro k c client hc ht hstage
    show client ∉ server.deliveries.map Delivery.client
    rw [hdeliveries]
    rcases hnew k c hc with hc | ⟨-, rfl⟩
    · exact h.waits k c client hc ht hstage
    · exact (hticket client ht).2.2

theorem ClientInv.sendQuery (h : ClientInv P n s) (query : Query Keys Ct)
    (hfresh : s.server.HasRoom P → ∀ a ∈ s.server.waiting, a.1 ≠ P.genUuid s.server.now) :
    ClientInv P n (s.sendQuery P query) := by
  have hreach : (system P n).Reachable (fun s l => FreshId P s l ∧ Computes P s l)
      (s.server.pushQuery P query).2 :=
    h.server.step (l := .pushQuery query)
      ⟨fun hadmits => hfresh ⟨hadmits.1, hadmits.2.1⟩, trivial⟩ rfl
  rcases pushQuery_fresh h.orderly query hfresh with ⟨hroom, hp⟩ | ⟨hroom, qque, hp⟩
  · have hs : s.sendQuery P query = ⟨s.server, s.callbacks ++ [⟨-1, none, .launched⟩]⟩ := by
      simp only [Clients.sendQuery, hp, if_neg hroom]
    rw [hs]
    refine ⟨h.server, h.tracked.append (fun _ _ ha => ha) rfl ?_ fun _ => rfl, h.nonneg, h.expired⟩
    intro client ht
    cases ht
  · have hs : s.sendQuery P query = ⟨{ s.server with
        qque, accepted := s.server.accepted ++ [(P.genUuid s.server.now, query)] },
        s.callbacks ++ [⟨P.genUuid s.server.now, some s.server.accepted.length, .launched⟩]⟩ := by
      simp only [Clients.sendQuery, hp, if_pos hroom]
    rw [hp] at hreach
    rw [hs]
    refine ⟨hreach, h.tracked.append (fun _ _ ha => recorded ha) rfl ?_ ?_, ?_, h.expired⟩
    · intro client ht
      cases ht
      -- the ticket is new: those of the callbacks and of the deliveries are below it
      refine ⟨⟨query, List.getElem?_concat_length⟩, fun k c hc ht => ?_, fun hmem => ?_⟩
      · obtain ⟨query, hrec⟩ := h.tracked.accepted k c _ hc ht
        exact absurd (List.getElem?_eq_some_iff.1 hrec).1 (lt_irrefl _)
      · obtain ⟨d, hd, hclient⟩ := List.mem_map.1 hmem
        obtain ⟨-, query, hrec⟩ := h.orderly.origins.delivered d hd
        rw [hclient] at hrec
        exact absurd (List.getElem?_eq_some_iff.1 hrec).1 (lt_irrefl _)
    · intro ht
      cases ht
    · intro a ha
      rcases List.mem_append.1 ha with ha | ha
      · exact h.nonneg a ha
      · obtain rfl := List.mem_singleton.1 ha
        exact Int.natCast_nonneg _

theorem request_cases {k : ℕ} (h : s.request k = some s') :
    ∃ c, s.callbacks[k]? = some c ∧ c.stage = .launched ∧
      s' = { s with callbacks := s.callbacks.set k { c with stage := .requested } } := by
  unfold Clients.request at h
  split at h
  · rename_i c hc
    split at h
    · rename_i hstage
      exact ⟨c, hc, hstage, (Option.some.inj h).symm⟩
    · cases h
  · cases h

theorem clientPop_cases {k : ℕ} (h : s.popResult k = some s') :
    ∃ c result rque, s.callbacks[k]? = some c ∧ c.stage = .requested ∧
      s.server.rque.popKey c.queryId = some (result, rque) ∧
      s' = {
        server := { s.server with
          rque
          deliveries := match c.ticket with
            | some client => ⟨client, c.queryId, result⟩ :: s.server.deliveries
            | none => s.server.deliveries }
        callbacks := s.callbacks.set k { c with stage := .answered } } := by
  unfold Clients.popResult at h
  split at h
  · rename_i c hc
    split at h
    · rename_i hstage
      obtain ⟨⟨result, rque⟩, hpop, rfl⟩ := Option.map_eq_some_iff.1 h
      exact ⟨c, result, rque, hc, hstage, hpop, rfl⟩
    · cases h
  · cases h

theorem ClientInv.request (h : ClientInv P n s) {k : ℕ} (hs : s.request k = some s') :
    ClientInv P n s' := by
  obtain ⟨c, hc, hstage, rfl⟩ := request_cases hs
  refine ⟨h.server, h.tracked.set_stage hc rfl fun k' c' client hc' ht hne => ?_, h.nonneg, h.expired⟩
  refine h.tracked.waits k' c' client hc' ht ?_
  by_cases hk : k' = k
  · subst hk
    cases hc.symm.trans hc'
    rw [hstage]
    decide
  · rwa [if_neg hk] at hne

theorem ClientInv.popResult (h : ClientInv P n s) {k : ℕ} (hs : s.popResult k = some s') :
    ClientInv P n s' := by
  obtain ⟨⟨queryId, ticket, stage⟩, result, rque, hc, hstage, hpop, rfl⟩ := clientPop_cases hs
  obtain rfl : stage = .requested := hstage
  cases ticket with
  | none =>
    -- no result has the id of a query that was not accepted
    have hstored : (queryId, result.ticket) ∈ s.server.stored := by
      rw [State.stored, ticketsIn_perm (ConcurrentMapQueue.popKey_perm hpop)]
      exact Multiset.mem_add.2 (.inl (Multiset.mem_singleton_self _))
    have hissued := Multiset.mem_of_le h.orderly.conserved.inside_le
      (Multiset.mem_add.2 (.inl (Multiset.mem_add.2 (.inr hstored))))
    exact absurd (h.tracked.rejected k _ hc rfl) (h.id_ne hissued)
  | some client =>
    obtain ⟨query, hrec⟩ := h.tracked.accepted k _ client hc rfl
    have hclient := h.tracked.waits k _ client hc rfl (by simp)
    have hserver : s.server.popResult client =
        some { s.server with rque, deliveries := ⟨client, queryId, result⟩ :: s.server.deliveries } := by
      unfold State.popResult
      simp only [hrec, if_neg hclient, hpop, Option.map_some]
    refine ⟨h.server.step (l := .popResult client) ⟨trivial, trivial⟩ hserver,
      h.tracked.set_stage hc rfl fun k' c' client' hc' ht' hne => ?_, h.nonneg, h.expired⟩
    have hk : k' ≠ k := by
      rintro rfl
      exact hne (if_pos rfl)
    rw [if_neg hk] at hne
    rw [List.map_cons, List.mem_cons, not_or]
    refine ⟨?_, h.tracked.waits k' c' client' hc' ht' hne⟩
    rintro rfl
    exact hk (h.tracked.own k' k c' _ _ hc' hc ht' rfl)

theorem ClientInv.step (h : ClientInv P n s) {l : ClientAction E Keys Ct} (hok : Assumed P s l)
    (hs : s.step P l = some s') : ClientInv P n s' := by
  cases l with
  | server l =>
    obtain ⟨⟨server, hstep, rfl⟩, hfresh, hacc, hdel, hexp⟩ := serverStep_frame hs
    refine ⟨h.server.step ⟨hfresh, hok⟩ hstep, ⟨?_, h.tracked.rejected, h.tracked.own, ?_⟩, ?_, ?_⟩
    · rw [hacc]
      exact h.tracked.accepted
    · rw [hdel]
      exact h.tracked.waits
    · rw [hacc]
      exact h.nonneg
    · exact hexp.trans h.expired
  | sendQuery query =>
    cases hs
    exact h.sendQuery query hok
  | request k => exact h.request hs
  | popResult k => exact h.popResult hs

theorem clientInv_start (now : ℕ) :
    ClientInv P n (⟨State.start now n, []⟩ : Clients Keys Ct) where
  server := .init ⟨now, rfl⟩
  tracked := ⟨by simp, by simp, by simp, by simp⟩
  nonneg _ h := by cases h
  expired := rfl

theorem clientInv_reachable (h : (clientSystem P n).Reachable (Assumed P) s) : ClientInv P n s :=
  h.invariant (fun _ ⟨now, hs⟩ => hs ▸ clientInv_start now) fun _ _ _ hinv hok hstep =>
    hinv.step hok hstep

/-! ## Which results can come -/

/-- A result can come for a callback that waits exactly if its query was accepted. -/
theorem ClientInv.canCome_iff (h : ClientInv P n s) {c : Callback} (hc : c ∈ s.callbacks)
    (hstage : c.stage ≠ .answered) : CanCome s.server c.queryId ↔ c.ticket ≠ none := by
  obtain ⟨k, hk⟩ := List.mem_iff_getElem?.1 hc
  have hconserved := h.orderly.conserved
  constructor
  · intro hcome hnone
    obtain ⟨a, ha, hid⟩ := Multiset.mem_map.1 hcome
    have hissued := Multiset.mem_of_le hconserved.inside_le (Multiset.mem_add.2 (.inl ha))
    exact h.id_ne hissued (hid.trans (h.tracked.rejected k c hk hnone))
  · intro hticket
    obtain ⟨client, ht⟩ := Option.ne_none_iff_exists'.1 hticket
    obtain ⟨query, hrec⟩ := h.tracked.accepted k c client hk ht
    have hissued : (c.queryId, client) ∈ (s.server.issued : Multiset (ℤ × ℕ)) :=
      mem_issued.2 ⟨query, hrec⟩
    rw [← hconserved.places, lost_reachable h.server, Multiset.coe_nil, add_zero] at hissued
    rcases Multiset.mem_add.1 hissued with hinside | hfinished
    · exact Multiset.mem_map.2 ⟨_, hinside, rfl⟩
    · -- what is handed out went to the client of the query itself
      rcases Multiset.mem_add.1 hfinished with hdelivered | hexpired
      · obtain ⟨d, hd, he⟩ := List.mem_map.1 hdelivered
        have hown := h.orderly.separate.own d hd
        rw [Prod.mk.injEq] at he
        exact absurd (List.mem_map.2 ⟨d, hd, hown.symm.trans he.2⟩)
          (h.tracked.waits k c client hk ht hstage)
      · rw [h.expired] at hexpired
        cases hexpired

/-- In runs in which the queues have room for every query, every query is accepted. -/
theorem accepted_reachable
    (h : (clientSystem P n).Reachable (fun s l => Assumed P s l ∧ RoomFor P s l) s) :
    ∀ c ∈ s.callbacks, c.ticket ≠ none := by
  refine h.invariant (I := fun s => ∀ c ∈ s.callbacks, c.ticket ≠ none) ?_ ?_
  · rintro s ⟨now, rfl⟩ c hc
    cases hc
  · intro s l s' hinv hok hs
    cases l with
    | server l =>
      obtain ⟨⟨server, -, rfl⟩, -⟩ := serverStep_frame hs
      exact hinv
    | sendQuery query =>
      cases hs
      intro c hc
      rcases List.mem_append.1 hc with hc | hc
      · exact hinv c hc
      · obtain rfl := List.mem_singleton.1 hc
        simp [show s.server.HasRoom P from hok.2]
    | request k =>
      obtain ⟨c0, hc0, -, rfl⟩ := request_cases hs
      intro c hc
      rcases List.mem_or_eq_of_mem_set hc with hc | rfl
      · exact hinv c hc
      · exact hinv c0 (List.mem_of_getElem? hc0)
    | popResult k =>
      obtain ⟨c0, _, _, hc0, -, -, rfl⟩ := clientPop_cases hs
      intro c hc
      rcases List.mem_or_eq_of_mem_set hc with hc | rfl
      · exact hinv c hc
      · exact hinv c0 (List.mem_of_getElem? hc0)

end

/-- In a run in which the queues have room for every query that arrives, a result can come for every
callback that is launched or waits. Without that, it can come exactly for the callbacks whose query
found room. -/
theorem requests_answered (P : Config E Keys Ct) (threadNum : ℕ) :
    (∀ s, (clientSystem P threadNum).Reachable (fun s l => Assumed P s l ∧ RoomFor P s l) s →
      ∀ c ∈ s.callbacks, c.stage ≠ .answered → CanCome s.server c.queryId) ∧
    ∀ s, (clientSystem P threadNum).Reachable (Assumed P) s →
      ∀ c ∈ s.callbacks, c.stage ≠ .answered → (CanCome s.server c.queryId ↔ c.ticket ≠ none) := by
  refine ⟨fun s h c hc hstage => ?_, fun s h c hc hstage => ?_⟩
  · have hinv := clientInv_reachable (h.mono fun _ _ hok => hok.1)
    exact (hinv.canCome_iff hc hstage).2 (accepted_reachable h c hc)
  · exact (clientInv_reachable h).canCome_iff hc hstage

section Sample

/-- What every callback is for, and how far it has come. -/
def callbackStages (s : Clients Unit ℕ) : List (ℤ × Option ℕ × Stage) :=
  s.callbacks.map fun c => (c.queryId, c.ticket, c.stage)

/-- Two queries, a second apart, with a request for each. -/
def twoCallbacks : List (ClientAction Unit Unit ℕ) :=
  [.sendQuery (echoQuery "HCNN" [7]), .server (.tick clockTicks), .sendQuery (echoQuery "HCNN" [8]),
    .request 1, .server (.popQuery 0), .request 0, .server (.execQuery 0 ()),
    .server (.pushResult 0), .popResult 0]

theorem requests_answered_sample : ∃ s : Clients Unit ℕ,
    callbackStages s = [(0, some 0, .answered), (1, some 1, .requested)] ∧
    ∀ c ∈ s.callbacks, c.stage ≠ .answered → CanCome s.server c.queryId := by
  have hrun : ((clientSystem allFiles 1).run
      (fun s l => Assumed allFiles s l ∧ RoomFor allFiles s l) ⟨State.start 0 1, []⟩ twoCallbacks).map
      callbackStages = some [(0, some 0, .answered), (1, some 1, .requested)] := by
    decide +kernel
  obtain ⟨s, hs, hstages⟩ := Option.map_eq_some_iff.1 hrun
  have hinit : (clientSystem allFiles 1).Reachable
      (fun s l => Assumed allFiles s l ∧ RoomFor allFiles s l) ⟨State.start 0 1, []⟩ := .init ⟨0, rfl⟩
  exact ⟨s, hstages, (requests_answered allFiles 1).1 s (hinit.run hs)⟩

/-- One query at a time. -/
def oneQuery : Config Unit Unit ℕ := { allFiles with maxConcurrentQueries := 1 }

/-- The second query finds the queue full, and its handler waits for the id -1. -/
theorem requests_answered_differs : ∃ s : Clients Unit ℕ,
    (clientSystem oneQuery 1).run (Assumed oneQuery) ⟨State.start 0 1, []⟩
      [.sendQuery (echoQuery "HCNN" [7]), .server (.tick clockTicks),
        .sendQuery (echoQuery "HCNN" [8]), .request 1] = some s ∧
    callbackStages s = [(0, some 0, .launched), (-1, none, .requested)] ∧ ¬ CanCome s.server (-1) := by
  have hrun : ((clientSystem oneQuery 1).run (Assumed oneQuery) ⟨State.start 0 1, []⟩
      [.sendQuery (echoQuery "HCNN" [7]), .server (.tick clockTicks),
        .sendQuery (echoQuery "HCNN" [8]), .request 1]).map
      (fun s => (callbackStages s, decide (CanCome s.server (-1)))) =
      some ([(0, some 0, .launched), (-1, none, .requested)], false) := by
    decide +kernel
  obtain ⟨s, hs, hval⟩ := Option.map_eq_some_iff.1 hrun
  simp only [Prod.mk.injEq, decide_eq_false_iff_not] at hval
  exact ⟨s, hs, hval.1, hval.2⟩

end Sample

end Server
