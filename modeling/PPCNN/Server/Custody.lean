import PPCNN.Lib.Except
import PPCNN.Server.CalcManager
import Mathlib.Tactic.Abel

/-!
# Where the accepted queries are

`Conserved`: at every moment of every run, each accepted query is in exactly one of the query
queue, the hands of a thread, the result queue, the results handed out or expired, and the queries
lost with a thread that ended; and one thread has ended for each lost query.
-/

set_option autoImplicit false

namespace Server

open Lib Share

variable {E Keys Ct : Type} {P : Config E Keys Ct} {n : ℕ}

/-! ## Places -/

/-- The queries behind the entries of a queue: id and ticket. -/
def ticketsIn {α : Type} (q : ConcurrentMapQueue ℤ (Ticketed α)) : Multiset (ℤ × ℕ) :=
  (q.entries : Multiset (ℤ × Ticketed α)).map fun e => (e.1, e.2.ticket)

def CalcThread.held : CalcThread Keys Ct → Multiset (ℤ × ℕ)
  | .computing queryId query => {(queryId, query.ticket)}
  | .computed queryId result => {(queryId, result.ticket)}
  | .waiting | .ended => 0

def CalcThread.live : CalcThread Keys Ct → ℕ
  | .ended => 0
  | _ => 1

namespace State

variable (s : State Keys Ct)

def queued : Multiset (ℤ × ℕ) := ticketsIn s.qque

def held : Multiset (ℤ × ℕ) := (s.threads.map CalcThread.held).sum

def stored : Multiset (ℤ × ℕ) := ticketsIn s.rque

def finished : Multiset (ℤ × ℕ) :=
  (s.deliveries.map fun d => (d.queryId, d.result.ticket)) +
    (s.expired.map fun e => (e.1, e.2.ticket) : Multiset (ℤ × ℕ))

/-- The accepted queries: the id that `push_query` returned, and the ticket. -/
def issued : List (ℤ × ℕ) := s.accepted.mapIdx fun ticket a => (a.1, ticket)

/-- The number of live calculation threads. -/
def live : ℕ := (s.threads.map CalcThread.live).sum

end State

structure Conserved (n : ℕ) (s : State Keys Ct) : Prop where
  places : s.queued + s.held + s.stored + s.finished + s.lost = s.issued
  threads : s.live + s.lost.length = n

/-! ## What the operations do -/

section

variable {s s' : State Keys Ct} {th : ℕ}

theorem pushQuery_cases (P : Config E Keys Ct) (s : State Keys Ct) (query : Query Keys Ct) :
    s.pushQuery P query = (-1, s) ∨ ∃ qque, s.qque.size < P.maxConcurrentQueries ∧
      s.rque.size < P.maxResults ∧
      ConcurrentMapQueue.push s.qque (P.genUuid s.now) ⟨s.accepted.length, query⟩ = .ok qque ∧
      s.pushQuery P query = (P.genUuid s.now,
        { s with qque, accepted := s.accepted ++ [(P.genUuid s.now, query)] }) := by
  unfold State.pushQuery
  split
  · rename_i hsize
    cases hp : ConcurrentMapQueue.push s.qque (P.genUuid s.now) ⟨s.accepted.length, query⟩ with
    | error e => exact .inl (by simp [QueryQueue.push, hp])
    | ok qque => exact .inr ⟨qque, hsize.1, hsize.2, rfl, by simp [QueryQueue.push, hp]⟩
  · exact .inl rfl

theorem pushQuery_full (h : ¬s.HasRoom P) (query : Query Keys Ct) :
    s.pushQuery P query = (-1, s) := by
  unfold State.pushQuery
  exact if_neg h

theorem pushQuery_room (h : s.HasRoom P) (hkey : P.genUuid s.now ∉ s.qque.keys)
    (query : Query Keys Ct) : s.pushQuery P query = (P.genUuid s.now, { s with
      qque := s.qque.emplace (P.genUuid s.now) ⟨s.accepted.length, query⟩
      accepted := s.accepted ++ [(P.genUuid s.now, query)] }) := by
  have hpush : ConcurrentMapQueue.push s.qque (P.genUuid s.now) ⟨s.accepted.length, query⟩ =
      .ok _ := ConcurrentMapQueue.push_eq_ok.2 ⟨hkey, rfl⟩
  unfold State.pushQuery
  unfold State.HasRoom at h
  rw [if_pos h]
  simp only [QueryQueue.push, hpush, ok_bind, pure_eq_ok]

theorem popQuery_cases (h : s.popQuery th = some s') :
    ∃ queryId query qque, s.threads[th]? = some .waiting ∧
      s.qque.pop = some ((queryId, query), qque) ∧
      s' = { s with qque, threads := s.threads.set th (.computing queryId query) } := by
  unfold State.popQuery at h
  split at h
  · rename_i queryId query qque hth hpop
    exact ⟨queryId, query, qque, hth, hpop, (Option.some.inj h).symm⟩
  · cases h

theorem execQuery_cases {e : E} (h : s.execQuery P th e = some s') :
    ∃ queryId query, s.threads[th]? = some (.computing queryId query) ∧
      ((∃ result, P.exec e s.now queryId query.val = .ok result ∧
        s' = { s with threads := s.threads.set th (.computed queryId ⟨query.ticket, result⟩) }) ∨
      (∃ err, P.exec e s.now queryId query.val = .error err ∧
        s' = { s with
          threads := s.threads.set th .ended, lost := (queryId, query.ticket) :: s.lost })) := by
  unfold State.execQuery at h
  split at h
  · rename_i queryId query hth
    refine ⟨queryId, query, hth, ?_⟩
    split at h
    · rename_i result hr
      exact .inl ⟨result, hr, (Option.some.inj h).symm⟩
    · rename_i err hr
      exact .inr ⟨err, hr, (Option.some.inj h).symm⟩
  · cases h

theorem pushResult_cases (h : s.pushResult th = some s') :
    ∃ queryId result, s.threads[th]? = some (.computed queryId result) ∧
      ((∃ rque, s.rque.push queryId result = .ok rque ∧
        s' = { s with rque, threads := s.threads.set th .waiting }) ∨
      (∃ err, s.rque.push queryId result = .error err ∧
        s' = { s with
          threads := s.threads.set th .ended, lost := (queryId, result.ticket) :: s.lost })) := by
  unfold State.pushResult at h
  split at h
  · rename_i queryId result hth
    refine ⟨queryId, result, hth, ?_⟩
    split at h
    · rename_i rque hr
      exact .inl ⟨rque, hr, (Option.some.inj h).symm⟩
    · rename_i err hr
      exact .inr ⟨err, hr, (Option.some.inj h).symm⟩
  · cases h

theorem popResult_cases {client : ℕ} (h : s.popResult client = some s') :
    ∃ queryId query result rque, s.accepted[client]? = some (queryId, query) ∧
      client ∉ s.deliveries.map Delivery.client ∧ s.rque.popKey queryId = some (result, rque) ∧
      s' = { s with rque, deliveries := ⟨client, queryId, result⟩ :: s.deliveries } := by
  unfold State.popResult at h
  split at h
  · rename_i queryId query hacc
    split at h
    · cases h
    · rename_i hnew
      obtain ⟨⟨result, rque⟩, hpop, rfl⟩ := Option.map_eq_some_iff.1 h
      exact ⟨queryId, query, result, rque, hacc, hnew, hpop, rfl⟩
  · cases h

theorem expire_cases (s : State Keys Ct) (id : ℤ) :
    s.expire id = s ∨ ∃ result rque, s.rque.popKey id = some (result, rque) ∧
      s.expire id = { s with rque, expired := (id, result) :: s.expired } := by
  unfold State.expire
  split
  · rename_i result rque hpop
    exact .inr ⟨result, rque, hpop, rfl⟩
  · exact .inl rfl

/-- Cleaning up keeps what removing one expired result keeps. -/
theorem cleanupResults_keeps {I : State Keys Ct → Prop} (h : ∀ s id, I s → I (s.expire id))
    (hs : I s) : I (s.cleanupResults P) := by
  unfold State.cleanupResults
  split
  · exact List.foldlRecOn _ _ hs fun s hs id _ => h s id hs
  · exact hs

/-! ## Conservation -/

theorem sum_map_set {α M : Type} [AddCommMonoid M] (f : α → M) {l : List α} {i : ℕ} {a : α}
    (h : l[i]? = some a) (b : α) : ((l.set i b).map f).sum + f a = (l.map f).sum + f b := by
  induction l generalizing i with
  | nil => cases h
  | cons x l ih =>
    cases i with
    | zero =>
      cases h
      simp only [List.set_cons_zero, List.map_cons, List.sum_cons]
      abel
    | succ i =>
      simp only [List.set_cons_succ, List.map_cons, List.sum_cons, add_assoc]
      rw [ih (by simpa using h)]

theorem mem_ticketsIn {α : Type} {q : ConcurrentMapQueue ℤ (Ticketed α)} {id : ℤ} {v : Ticketed α}
    (h : (id, v) ∈ q.entries) : (id, v.ticket) ∈ ticketsIn q :=
  Multiset.mem_map.2 ⟨(id, v), h, rfl⟩

theorem ticketsIn_perm {α : Type} {q q' : ConcurrentMapQueue ℤ (Ticketed α)} {id : ℤ}
    {v : Ticketed α} (h : q.entries.Perm ((id, v) :: q'.entries)) :
    ticketsIn q = {(id, v.ticket)} + ticketsIn q' := by
  unfold ticketsIn
  rw [Multiset.coe_eq_coe.2 h, ← Multiset.cons_coe, Multiset.map_cons, Multiset.singleton_add]

theorem conserved_start (now : ℕ) : Conserved n (State.start now n : State Keys Ct) where
  places := by
    simp [State.start, State.queued, State.held, State.stored, State.finished, State.issued,
      ticketsIn, CalcThread.held]
  threads := by simp [State.start, State.live, CalcThread.live]

theorem issued_append (s : State Keys Ct) (id : ℤ) (query : Query Keys Ct) :
    (s.accepted ++ [(id, query)]).mapIdx (fun ticket a => (a.1, ticket)) =
      s.issued ++ [(id, s.accepted.length)] := by
  simp [State.issued, List.mapIdx_append]

theorem Conserved.push {s : State Keys Ct} (h : Conserved n s) (query : Query Keys Ct) :
    Conserved n (s.pushQuery P query).2 := by
  rcases pushQuery_cases P s query with hp | ⟨qque, _, _, hpush, hp⟩
  · rw [hp]
    exact h
  · rw [hp]
    refine ⟨?_, h.threads⟩
    show ticketsIn qque + s.held + s.stored + s.finished + s.lost =
      ↑((s.accepted ++ [(P.genUuid s.now, query)]).mapIdx fun ticket a => (a.1, ticket))
    rw [issued_append, ticketsIn_perm (ConcurrentMapQueue.push_perm hpush), ← Multiset.coe_add,
      ← h.places]
    show _ = ticketsIn s.qque + s.held + s.stored + s.finished + s.lost + {_}
    abel

/-- A thread changes its place in the code and passes on what it held. -/
theorem held_set {a : CalcThread Keys Ct} (h : s.threads[th]? = some a) (b : CalcThread Keys Ct) :
    ((s.threads.set th b).map CalcThread.held).sum + a.held = s.held + b.held :=
  sum_map_set CalcThread.held h b

theorem live_set {a : CalcThread Keys Ct} (h : s.threads[th]? = some a) (b : CalcThread Keys Ct) :
    ((s.threads.set th b).map CalcThread.live).sum + a.live = s.live + b.live :=
  sum_map_set CalcThread.live h b

theorem Conserved.pop (h : Conserved n s) (hs : s.popQuery th = some s') : Conserved n s' := by
  obtain ⟨queryId, query, qque, hth, hpop, rfl⟩ := popQuery_cases hs
  have hheld := held_set hth (.computing queryId query)
  have hlive := live_set hth (.computing queryId query)
  refine ⟨?_, ?_⟩
  · show ticketsIn qque + ((s.threads.set th _).map CalcThread.held).sum + s.stored + s.finished +
      s.lost = s.issued
    rw [CalcThread.held, CalcThread.held, add_zero] at hheld
    rw [hheld, ← h.places]
    show _ = ticketsIn s.qque + s.held + s.stored + s.finished + s.lost
    rw [ticketsIn_perm (ConcurrentMapQueue.pop_perm hpop)]
    abel
  · show ((s.threads.set th _).map CalcThread.live).sum + s.lost.length = n
    have := h.threads
    simp only [CalcThread.live] at hlive
    omega

/-- The thread ends, and the query it held is lost with it. -/
theorem Conserved.end_thread (h : Conserved n s) {a : CalcThread Keys Ct} {x : ℤ × ℕ}
    (hth : s.threads[th]? = some a) (ha : a.held = {x}) :
    Conserved n { s with threads := s.threads.set th .ended, lost := x :: s.lost } := by
  have hheld := held_set hth .ended
  have hlive := live_set hth .ended
  have halive : a.live = 1 := by
    cases a with
    | ended => simp [CalcThread.held] at ha
    | _ => rfl
  refine ⟨?_, ?_⟩
  · show s.queued + ((s.threads.set th .ended).map CalcThread.held).sum + s.stored + s.finished +
      ↑(x :: s.lost) = s.issued
    rw [ha, CalcThread.held, add_zero] at hheld
    rw [← h.places, ← hheld, ← Multiset.cons_coe, ← Multiset.singleton_add]
    abel
  · show ((s.threads.set th .ended).map CalcThread.live).sum + (x :: s.lost).length = n
    have := h.threads
    rw [halive, CalcThread.live] at hlive
    simp only [List.length_cons]
    omega

theorem Conserved.exec {e : E} (h : Conserved n s) (hs : s.execQuery P th e = some s') :
    Conserved n s' := by
  obtain ⟨queryId, query, hth, ⟨result, _, rfl⟩ | ⟨err, _, rfl⟩⟩ := execQuery_cases hs
  · have hheld := held_set hth (.computed queryId ⟨query.ticket, result⟩)
    have hlive := live_set hth (.computed queryId ⟨query.ticket, result⟩)
    refine ⟨?_, ?_⟩
    · show s.queued + ((s.threads.set th _).map CalcThread.held).sum + s.stored + s.finished +
        s.lost = s.issued
      rw [← h.places, add_right_cancel hheld]
    · show ((s.threads.set th _).map CalcThread.live).sum + s.lost.length = n
      rw [← h.threads, add_right_cancel hlive]
  · exact h.end_thread hth rfl

theorem Conserved.put (h : Conserved n s) (hs : s.pushResult th = some s') : Conserved n s' := by
  obtain ⟨queryId, result, hth, ⟨rque, hpush, rfl⟩ | ⟨err, _, rfl⟩⟩ := pushResult_cases hs
  · have hheld := held_set hth .waiting
    have hlive := live_set hth .waiting
    refine ⟨?_, ?_⟩
    · show s.queued + ((s.threads.set th .waiting).map CalcThread.held).sum + ticketsIn rque +
        s.finished + s.lost = s.issued
      rw [CalcThread.held, CalcThread.held, add_zero] at hheld
      rw [← h.places, ← hheld, ticketsIn_perm (ConcurrentMapQueue.push_perm hpush)]
      show _ = s.queued + _ + ticketsIn s.rque + s.finished + s.lost
      abel
    · show ((s.threads.set th .waiting).map CalcThread.live).sum + s.lost.length = n
      rw [← h.threads, add_right_cancel hlive]
  · exact h.end_thread hth rfl

theorem Conserved.deliver {client : ℕ} (h : Conserved n s) (hs : s.popResult client = some s') :
    Conserved n s' := by
  obtain ⟨queryId, query, result, rque, _, _, hpop, rfl⟩ := popResult_cases hs
  refine ⟨?_, h.threads⟩
  show s.queued + s.held + ticketsIn rque + (↑((queryId, result.ticket) ::
    s.deliveries.map fun d => (d.queryId, d.result.ticket)) +
    ↑(s.expired.map fun e => (e.1, e.2.ticket))) + s.lost = s.issued
  rw [← h.places]
  show _ = s.queued + s.held + ticketsIn s.rque + (_ + _) + s.lost
  rw [ticketsIn_perm (ConcurrentMapQueue.popKey_perm hpop), ← Multiset.cons_coe, ← Multiset.singleton_add]
  abel

theorem Conserved.expire (h : Conserved n s) (id : ℤ) : Conserved n (s.expire id) := by
  rcases expire_cases s id with hid | ⟨result, rque, hpop, hid⟩
  · rw [hid]
    exact h
  · rw [hid]
    refine ⟨?_, h.threads⟩
    show s.queued + s.held + ticketsIn rque +
      (↑(s.deliveries.map fun d => (d.queryId, d.result.ticket)) +
        ↑((id, result.ticket) :: s.expired.map fun e => (e.1, e.2.ticket))) + s.lost = s.issued
    rw [← h.places]
    show _ = s.queued + s.held + ticketsIn s.rque + (_ + _) + s.lost
    rw [ticketsIn_perm (ConcurrentMapQueue.popKey_perm hpop), ← Multiset.cons_coe, ← Multiset.singleton_add]
    abel

theorem Conserved.step (h : Conserved n s) {l : Action E Keys Ct} (hs : s.step P l = some s') :
    Conserved n s' := by
  cases l with
  | tick d =>
    cases hs
    exact ⟨h.places, h.threads⟩
  | pushQuery query =>
    cases hs
    exact h.push query
  | popQuery th => exact h.pop hs
  | execQuery th e => exact h.exec hs
  | pushResult th => exact h.put hs
  | popResult client => exact h.deliver hs
  | cleanupResults =>
    cases hs
    exact cleanupResults_keeps (fun s id h => h.expire id) h

end

/-- Nothing is lost except with a thread that ends, in any run. -/
theorem conserved_reachable {ok : State Keys Ct → Action E Keys Ct → Prop} {s : State Keys Ct}
    (h : (system P n).Reachable ok s) : Conserved n s :=
  h.invariant (fun _ ⟨now, hs⟩ => hs ▸ conserved_start now) fun _ _ _ hinv _ hstep => hinv.step hstep

end Server
