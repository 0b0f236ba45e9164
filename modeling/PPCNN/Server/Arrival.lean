import PPCNN.Server.Delivery

/-!
# The order in which queries are taken (`ppcnn_concurrent_mapqueue.hpp`, `ppcnn_server_calcthread.cpp`)

The query queue is a map, and a thread takes the query with the least id. The ids come from a random
generator, so a query is overtaken by every query that comes after it with a smaller id. If every id is
greater than the ids in the queue, the map stands in the order of arrival (`Arrived`), and the queries are
taken in that order (`arrival_order`).
-/

set_option autoImplicit false

namespace Server

open Lib Share

variable {E Keys Ct : Type} (P : Config E Keys Ct) {n : ℕ}

/-- No thread takes a query while one that was accepted before it is in the queue. -/
def InArrivalOrder (s : State Keys Ct) : Prop :=
  ∀ th s' queryId query, s.popQuery th = some s' → s'.threads[th]? = some (.computing queryId query) →
    ∀ entry ∈ s'.qque.entries, query.ticket < entry.2.ticket

/-- The id of a query to be accepted is greater than the ids in the query queue. -/
def IdsGrow (s : State Keys Ct) : Action E Keys Ct → Prop
  | .pushQuery _ => s.Admits P → ∀ id ∈ s.qque.keys, id < P.genUuid s.now
  | _ => True

instance (s : State Keys Ct) (l : Action E Keys Ct) : Decidable (IdsGrow P s l) :=
  match l with
  | .pushQuery _ => inferInstanceAs (Decidable (s.Admits P → ∀ id ∈ s.qque.keys, id < P.genUuid s.now))
  | .tick _ | .popQuery _ | .execQuery _ _ | .pushResult _ | .popResult _ | .cleanupResults =>
    isTrue trivial

/-! ## The queue in the order of arrival -/

/-- The tickets of the queue ascend with the ids, and all are of the past. -/
structure Arrived (s : State Keys Ct) : Prop where
  ascend : s.qque.entries.Pairwise fun a b => a.2.ticket < b.2.ticket
  past : ∀ entry ∈ s.qque.entries, entry.2.ticket < s.accepted.length

variable {P} {s s' : State Keys Ct}

theorem arrived_start (now : ℕ) : Arrived (State.start now n : State Keys Ct) where
  ascend := .nil
  past _ h := by cases h

theorem Arrived.push (h : Arrived s) {query : Query Keys Ct} (hok : IdsGrow P s (.pushQuery query)) :
    Arrived (s.pushQuery P query).2 := by
  rcases pushQuery_cases P s query with hp | ⟨qque, hq, hr, hpush, hp⟩
  · rw [hp]
    exact h
  · rw [hp]
    obtain ⟨hkey, rfl⟩ := ConcurrentMapQueue.push_eq_ok.1 hpush
    have hgrow := hok ⟨hq, hr, ConcurrentMapQueue.count_eq_zero.2 hkey⟩
    have hentries := OrdMap.entries_emplace_of_lt (⟨s.accepted.length, query⟩ : Ticketed _) hgrow
    constructor
    · show (s.qque.emplace _ _).entries.Pairwise _
      rw [hentries, List.pairwise_append]
      refine ⟨h.ascend, List.pairwise_singleton _ _, fun a ha b hb => ?_⟩
      rw [List.mem_singleton.1 hb]
      exact h.past a ha
    · intro entry he
      rw [List.length_append, List.length_singleton]
      rcases List.mem_append.1 (hentries ▸ he) with he | he
      · exact Nat.lt_succ_of_lt (h.past entry he)
      · rw [List.mem_singleton.1 he]
        exact Nat.lt_succ_self _

theorem Arrived.pop (h : Arrived s) {th : ℕ} (hs : s.popQuery th = some s') : Arrived s' := by
  obtain ⟨queryId, query, qque, -, hpop, rfl⟩ := popQuery_cases hs
  have hentries := ConcurrentMapQueue.pop_entries hpop
  have hascend := h.ascend
  have hpast := h.past
  rw [hentries] at hascend hpast
  exact ⟨hascend.of_cons, fun entry he => hpast entry (List.mem_cons_of_mem _ he)⟩

theorem Arrived.step (h : Arrived s) {l : Action E Keys Ct} (hok : IdsGrow P s l)
    (hs : s.step P l = some s') : Arrived s' := by
  cases l with
  | tick d =>
    cases hs
    exact ⟨h.ascend, h.past⟩
  | pushQuery query =>
    cases hs
    exact h.push hok
  | popQuery th => exact h.pop hs
  | execQuery th e =>
    obtain ⟨_, _, _, ⟨_, _, rfl⟩ | ⟨_, _, rfl⟩⟩ := execQuery_cases hs <;>
      exact ⟨h.ascend, h.past⟩
  | pushResult th =>
    obtain ⟨_, _, _, ⟨_, _, rfl⟩ | ⟨_, _, rfl⟩⟩ := pushResult_cases hs <;>
      exact ⟨h.ascend, h.past⟩
  | popResult client =>
    obtain ⟨_, _, _, _, _, _, _, rfl⟩ := popResult_cases hs
    exact ⟨h.ascend, h.past⟩
  | cleanupResults =>
    cases hs
    refine cleanupResults_keeps (fun s id h => ?_) h
    rcases expire_cases s id with hid | ⟨_, _, _, hid⟩
    · rw [hid]
      exact h
    · rw [hid]
      exact ⟨h.ascend, h.past⟩

/-! ## Which query is taken -/

/-- A thread takes what stands at the front of the queue. -/
theorem popQuery_takes {th : ℕ} (hs : s.popQuery th = some s') :
    ∃ queryId query, s'.threads[th]? = some (.computing queryId query) ∧
      s.qque.entries = (queryId, query) :: s'.qque.entries := by
  obtain ⟨queryId, query, qque, hwaiting, hpop, rfl⟩ := popQuery_cases hs
  obtain ⟨hlt, -⟩ := List.getElem?_eq_some_iff.1 hwaiting
  exact ⟨queryId, query, List.getElem?_set_self hlt, ConcurrentMapQueue.pop_entries hpop⟩

theorem popQuery_front {th : ℕ} {queryId : ℤ} {query : Ticketed (Query Keys Ct)}
    (hs : s.popQuery th = some s') (hth : s'.threads[th]? = some (.computing queryId query)) :
    s.qque.entries = (queryId, query) :: s'.qque.entries := by
  obtain ⟨queryId', query', htaken, hentries⟩ := popQuery_takes hs
  cases htaken.symm.trans hth
  exact hentries

/-- A query with a smaller id is taken first, whenever it came. -/
theorem popQuery_least {th : ℕ} {queryId : ℤ} {query : Ticketed (Query Keys Ct)}
    (hs : s.popQuery th = some s') (hth : s'.threads[th]? = some (.computing queryId query)) :
    ∀ entry ∈ s'.qque.entries, queryId < entry.1 := by
  have hsorted := s.qque.sorted
  rw [popQuery_front hs hth, List.pairwise_cons] at hsorted
  exact hsorted.1

theorem Arrived.inArrivalOrder (h : Arrived s) : InArrivalOrder s := by
  intro th s' queryId query hs hth
  have hascend := h.ascend
  rw [popQuery_front hs hth, List.pairwise_cons] at hascend
  exact hascend.1

/-- In a run in which every accepted query has a greater id than those in the query queue, the threads take
the queries in the order in which they were accepted. -/
theorem arrival_order (P : Config E Keys Ct) (threadNum : ℕ) {s : State Keys Ct}
    (h : (system P threadNum).Reachable (IdsGrow P) s) : InArrivalOrder s := by
  have harrived : Arrived s := h.invariant (fun _ ⟨now, hs⟩ => hs ▸ arrived_start now)
    fun _ _ _ hinv hok hstep => hinv.step hok hstep
  exact harrived.inArrivalOrder

section Sample

/-- The first values of `rand` after `srand(1)` and after any other seed. -/
def fallingIds : Config Unit Unit ℕ where
  __ := allFiles
  rand seed := if seed = 1 then 1804289383 else 1505335290

/-- Two queries, a second apart, and a thread that is free after both. -/
def twoArrivals : List (Action Unit Unit ℕ) :=
  [.tick clockTicks, .pushQuery (echoQuery "HCNN" [7]), .tick clockTicks,
    .pushQuery (echoQuery "HCNN" [8])]

theorem arrival_order_sample : ∃ s, (system allFiles 1).Reachable (IdsGrow allFiles) s ∧
    s.qque.entries.map (fun e => e.2.ticket) = [0, 1] ∧ (s.popQuery 0).isSome ∧ InArrivalOrder s := by
  have hrun : ((system allFiles 1).run (IdsGrow allFiles) (State.start 0 1) twoArrivals).map
      (fun s => (s.qque.entries.map (fun e => e.2.ticket), (s.popQuery 0).isSome)) =
      some ([0, 1], true) := by
    decide +kernel
  obtain ⟨s, hs, hvalues⟩ := Option.map_eq_some_iff.1 hrun
  obtain ⟨htickets, hpop⟩ := Prod.mk.inj hvalues
  have hinit : (system allFiles 1).Reachable (IdsGrow allFiles) (State.start 0 1) := .init ⟨0, rfl⟩
  have hreach := hinit.run hs
  exact ⟨s, hreach, htickets, hpop, arrival_order allFiles 1 hreach⟩

/-- The thread takes the second query, with the first one in the queue. -/
theorem arrival_order_differs : ∃ s, (system fallingIds 1).Reachable System.anyStep s ∧
    s.qque.entries.map (fun e => (e.1, e.2.ticket)) = [(1505335290, 1), (1804289383, 0)] ∧
    ¬InArrivalOrder s := by
  have hrun : ((system fallingIds 1).run System.anyStep (State.start 0 1) twoArrivals).map
      (fun s => (s.qque.entries.map (fun e => (e.1, e.2.ticket)),
        (s.popQuery 0).isSome)) = some ([(1505335290, 1), (1804289383, 0)], true) := by
    decide +kernel
  obtain ⟨s, hs, hvalues⟩ := Option.map_eq_some_iff.1 hrun
  obtain ⟨hentries, hpop⟩ := Prod.mk.inj hvalues
  have hinit : (system fallingIds 1).Reachable System.anyStep (State.start 0 1) := .init ⟨0, rfl⟩
  refine ⟨s, hinit.run hs, hentries, fun horder => ?_⟩
  obtain ⟨s', hs'⟩ := Option.isSome_iff_exists.1 hpop
  obtain ⟨queryId, query, hth, hfront⟩ := popQuery_takes hs'
  have hless := horder 0 _ queryId query hs' hth
  rw [hfront, List.map_cons] at hentries
  obtain ⟨hhead, htail⟩ := List.cons.inj hentries
  obtain ⟨entry, rest, hqque, hentry, -⟩ := List.map_eq_cons_iff.1 htail
  have hoverlooked := hless entry (by rw [hqque]; exact List.mem_cons_self)
  have hquery : query.ticket = 1 := congrArg Prod.snd hhead
  have hfirst : entry.2.ticket = 0 := congrArg Prod.snd hentry
  omega

end Sample

end Server
