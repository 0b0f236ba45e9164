import PPCNN.Server.Delivery

/-!
# The limits of the queues

The steps are those of the server's own code: the handlers of queries and of result requests, for any
id, and the threads. (The handler of keys does not touch the queues.) No such step calls
`cleanup_results`, and `push_query` compares each queue with its own limit.

* `never_blocks_iff`: in which states an expired result does not keep a query out, and no result is
  discarded.
* `blocked_run`: a full result queue from which nobody requests stays full.
* `limits_hold`: the query queue keeps its limit; the result queue keeps it in the runs that admit a
  query only while fewer than `max_results` queries and results are inside.
-/

set_option autoImplicit false

namespace Server

open Lib Share

variable {E Keys Ct : Type} (P : Config E Keys Ct) {n : ℕ}

/-! ## The system -/

inductive HandlerAction (E Keys Ct : Type) where
  | tick (d : ℕ)
  | query (query : Query Keys Ct)
  | popQuery (th : ℕ)
  | execQuery (th : ℕ) (e : E)
  | pushResult (th : ℕ)
  | resultRequest (queryId : ℤ)

namespace State

variable (s : State Keys Ct)

/-- `CalcManager::pop_result`, for an id that anybody asks for. -/
def resultRequest (queryId : ℤ) : Option (State Keys Ct) :=
  (s.rque.popKey queryId).map fun (_, rque) => { s with rque }

def handlerStep : HandlerAction E Keys Ct → Option (State Keys Ct)
  | .tick d => some { s with now := s.now + d }
  | .query query => some (s.pushQuery P query).2
  | .popQuery th => s.popQuery th
  | .execQuery th e => s.execQuery P th e
  | .pushResult th => s.pushResult th
  | .resultRequest queryId => s.resultRequest queryId

end State

/-- The server's own steps. -/
def handlers (P : Config E Keys Ct) (threadNum : ℕ) :
    System (State Keys Ct) (HandlerAction E Keys Ct) where
  init s := ∃ now, s = State.start now threadNum
  step := State.handlerStep P

/-! ## Expired results -/

/-- A stored result has reached the lifetime. -/
def Overdue (s : State Keys Ct) : Prop :=
  ∃ entry ∈ s.rque.entries, P.resultLifetimeSec ≤ entry.2.val.elapsedTime s.now

instance (s : State Keys Ct) : Decidable (Overdue P s) :=
  inferInstanceAs (Decidable (∃ entry ∈ s.rque.entries, _))

/-- What the server owes while results expire: with room in the query queue a query that arrives is
accepted, no result leaves the result queue but by a request, and none is lost on the way there. -/
structure NeverBlocks (query : Query Keys Ct) (s : State Keys Ct) : Prop where
  accepts : s.qque.size < P.maxConcurrentQueries → Overdue P s → (s.pushQuery P query).1 ≠ -1
  keeps : ∀ (l : HandlerAction E Keys Ct) s', s.handlerStep P l = some s' →
    ∀ entry ∈ s.rque.entries, entry ∈ s'.rque.entries ∨ l = .resultRequest entry.1
  stores : ∀ (th : ℕ) s', s.pushResult th = some s' → s'.lost = s.lost

/-- Where results expire, the result queue has room and the id of a query is new; and no computed
result has the id of a stored one. -/
structure Unblocked (s : State Keys Ct) : Prop where
  room : s.qque.size < P.maxConcurrentQueries → Overdue P s →
    s.rque.size < P.maxResults ∧ P.genUuid s.now ∉ s.qque.keys
  distinct : ∀ (th : ℕ) queryId result, s.threads[th]? = some (.computed queryId result) →
    queryId ∉ s.rque.keys

variable {P} {s s' : State Keys Ct}

theorem resultRequest_cases {queryId : ℤ} (h : s.resultRequest queryId = some s') :
    ∃ result rque, s.rque.popKey queryId = some (result, rque) ∧ s' = { s with rque } := by
  obtain ⟨⟨result, rque⟩, hpop, rfl⟩ := Option.map_eq_some_iff.1 h
  exact ⟨result, rque, hpop, rfl⟩

theorem pushQuery_accepts_iff (query : Query Keys Ct) :
    (s.pushQuery P query).1 ≠ -1 ↔ s.HasRoom P ∧ P.genUuid s.now ∉ s.qque.keys := by
  rcases pushQuery_cases P s query with hp | ⟨qque, hq, hr, hpush, hp⟩
  · rw [hp]
    refine iff_of_false (by simp) fun h => ?_
    rw [pushQuery_room h.1 h.2] at hp
    have hid : P.genUuid s.now = -1 := congrArg Prod.fst hp
    have hnonneg : 0 ≤ P.genUuid s.now := Int.natCast_nonneg _
    omega
  · rw [hp]
    refine iff_of_true ?_ ⟨⟨hq, hr⟩, (ConcurrentMapQueue.push_eq_ok.1 hpush).1⟩
    have hnonneg : 0 ≤ P.genUuid s.now := Int.natCast_nonneg _
    show P.genUuid s.now ≠ -1
    omega

/-- A stored result stays, unless its id is requested. -/
theorem handlerStep_keeps {l : HandlerAction E Keys Ct} (hs : s.handlerStep P l = some s')
    {entry : ℤ × Ticketed (Result Ct)} (hentry : entry ∈ s.rque.entries) :
    entry ∈ s'.rque.entries ∨ l = .resultRequest entry.1 := by
  cases l with
  | tick d =>
    cases hs
    exact .inl hentry
  | query query =>
    cases hs
    rcases pushQuery_cases P s query with hp | ⟨_, _, _, _, hp⟩ <;> exact .inl (by rw [hp]; exact hentry)
  | popQuery th =>
    obtain ⟨_, _, _, _, _, rfl⟩ := popQuery_cases hs
    exact .inl hentry
  | execQuery th e =>
    obtain ⟨_, _, _, ⟨_, _, rfl⟩ | ⟨_, _, rfl⟩⟩ := execQuery_cases hs <;> exact .inl hentry
  | pushResult th =>
    obtain ⟨_, _, _, ⟨_, hpush, rfl⟩ | ⟨_, _, rfl⟩⟩ := pushResult_cases hs
    · exact .inl ((ConcurrentMapQueue.push_perm hpush).mem_iff.2 (List.mem_cons_of_mem _ hentry))
    · exact .inl hentry
  | resultRequest queryId =>
    obtain ⟨result, rque, hpop, rfl⟩ := resultRequest_cases hs
    rcases List.mem_cons.1 ((ConcurrentMapQueue.popKey_perm hpop).mem_iff.1 hentry) with rfl | hrest
    · exact .inr rfl
    · exact .inl hrest

/-- A computed result is not lost exactly if its id is not in the result queue. -/
theorem pushResult_lost_iff {th : ℕ} {queryId : ℤ} {result : Ticketed (Result Ct)}
    (hth : s.threads[th]? = some (.computed queryId result)) :
    (∀ s', s.pushResult th = some s' → s'.lost = s.lost) ↔ queryId ∉ s.rque.keys := by
  unfold State.pushResult
  rw [hth]
  by_cases hkey : queryId ∈ s.rque.keys
  · have hpush : s.rque.push queryId result = .error "key has already exist." := by
      unfold ConcurrentMapQueue.push
      rw [if_neg (mt ConcurrentMapQueue.count_eq_zero.1 (not_not.2 hkey))]
    simp [hpush, hkey]
  · have hpush : s.rque.push queryId result = .ok _ := ConcurrentMapQueue.push_eq_ok.2 ⟨hkey, rfl⟩
    simp only [hpush, hkey, not_false_eq_true, iff_true]
    intro s' hs
    cases hs
    rfl

theorem neverBlocks_iff (query : Query Keys Ct) (s : State Keys Ct) :
    NeverBlocks P query s ↔ Unblocked P s := by
  constructor
  · intro h
    refine ⟨fun hroom hoverdue => ?_, fun th queryId result hth => ?_⟩
    · have haccepts := (pushQuery_accepts_iff query).1 (h.accepts hroom hoverdue)
      exact ⟨haccepts.1.2, haccepts.2⟩
    · exact (pushResult_lost_iff hth).1 (h.stores th)
  · intro h
    refine ⟨fun hroom hoverdue => ?_, fun l s' hs entry hentry => handlerStep_keeps hs hentry,
      fun th s' hs => ?_⟩
    · have hcond := h.room hroom hoverdue
      exact (pushQuery_accepts_iff query).2 ⟨⟨hroom, hcond.1⟩, hcond.2⟩
    · obtain ⟨queryId, result, hth, -⟩ := pushResult_cases hs
      exact (pushResult_lost_iff hth).2 (h.distinct th queryId result hth) s' hs

/-! ## A full result queue -/

/-- Nobody requests a result. -/
def Unrequested (_ : State Keys Ct) : HandlerAction E Keys Ct → Prop
  | .resultRequest _ => False
  | _ => True

instance (s : State Keys Ct) (l : HandlerAction E Keys Ct) : Decidable (Unrequested s l) := by
  cases l <;> unfold Unrequested <;> infer_instance

/-- What is stored stays stored, so the result queue does not get shorter. -/
theorem rque_size_le {l : HandlerAction E Keys Ct} (hok : Unrequested s l)
    (hs : s.handlerStep P l = some s') : s.rque.size ≤ s'.rque.size := by
  have hsub : s.rque.entries ⊆ s'.rque.entries := by
    intro entry hentry
    rcases handlerStep_keeps hs hentry with hkept | rfl
    · exact hkept
    · exact hok.elim
  exact (s.rque.keys_nodup.of_map.subperm hsub).length_le

/-- Without requests a full result queue stays full, and every query is rejected, however long the
results have expired. -/
theorem blocked_run {actions : List (HandlerAction E Keys Ct)} (hfull : P.maxResults ≤ s.rque.size)
    (hrun : (handlers P n).run Unrequested s actions = some s') (query : Query Keys Ct) :
    s'.pushQuery P query = (-1, s') := by
  induction actions generalizing s with
  | nil =>
    cases hrun
    exact pushQuery_full (fun hroom => absurd hroom.2 (not_lt.2 hfull)) query
  | cons l actions ih =>
    rw [System.run] at hrun
    split at hrun
    · rename_i hok
      obtain ⟨s1, hs1, hrun⟩ := Option.bind_eq_some_iff.1 hrun
      exact ih (hfull.trans (rque_size_le hok hs1)) hrun
    · cases hrun

/-- In every reachable state the server accepts a query while a result is expired, and discards no
result, exactly if the result queue has room and no id occurs twice; and once the result queue is full,
no query is accepted until a result is requested. -/
theorem never_blocks_iff (P : Config E Keys Ct) (threadNum : ℕ) (s : State Keys Ct)
    (_ : (handlers P threadNum).Reachable System.anyStep s) (query : Query Keys Ct) :
    (NeverBlocks P query s ↔ Unblocked P s) ∧
    (P.maxResults ≤ s.rque.size → ∀ actions s',
      (handlers P threadNum).run Unrequested s actions = some s' →
        ∀ query, s'.pushQuery P query = (-1, s')) :=
  ⟨neverBlocks_iff query s, fun hfull _ _ hrun query => blocked_run hfull hrun query⟩

section Sample

/-- One result at a time. -/
def oneResult : Config Unit Unit ℕ := { allFiles with maxResults := 1 }

/-- One query is computed, and nobody requests its result for as long as the lifetime of results. -/
def abandoned : List (HandlerAction Unit Unit ℕ) :=
  [.query (echoQuery "HCNN" [7]), .popQuery 0, .execQuery 0 (), .pushResult 0,
    .tick (50000 * clockTicks)]

theorem never_blocks_iff_sample : ∃ s : State Unit ℕ, s.rque.size = 1 ∧
    (NeverBlocks allFiles (echoQuery "HCNN" [8]) s ↔ Unblocked allFiles s) ∧
    (allFiles.maxResults ≤ s.rque.size → ∀ actions s',
      (handlers allFiles 1).run Unrequested s actions = some s' →
        ∀ query, s'.pushQuery allFiles query = (-1, s')) := by
  have hrun : ((handlers allFiles 1).run System.anyStep (State.start 0 1) abandoned).map
      (fun s => s.rque.size) = some 1 := by
    decide +kernel
  obtain ⟨s, hs, hsize⟩ := Option.map_eq_some_iff.1 hrun
  have hinit : (handlers allFiles 1).Reachable System.anyStep (State.start 0 1) := .init ⟨0, rfl⟩
  exact ⟨s, hsize, never_blocks_iff allFiles 1 s (hinit.run hs) (echoQuery "HCNN" [8])⟩

/-- The expired result keeps the next query out. -/
theorem never_blocks_differs : ∃ s : State Unit ℕ,
    (handlers oneResult 1).run System.anyStep (State.start 0 1) abandoned = some s ∧
    s.qque.size < oneResult.maxConcurrentQueries ∧ Overdue oneResult s ∧
    (s.pushQuery oneResult (echoQuery "HCNN" [8])).1 = -1 := by
  have hrun : ((handlers oneResult 1).run System.anyStep (State.start 0 1) abandoned).map
      (fun s => (s.qque.size, decide (Overdue oneResult s),
        (s.pushQuery oneResult (echoQuery "HCNN" [8])).1)) = some (0, true, -1) := by
    decide +kernel
  obtain ⟨s, hs, hval⟩ := Option.map_eq_some_iff.1 hrun
  simp only [Prod.mk.injEq, decide_eq_true_eq] at hval
  exact ⟨s, hs, hval.1 ▸ (by decide), hval.2.1, hval.2.2⟩

end Sample

/-! ## The sizes of the queues -/

/-- The queries that are queued or computed, and the results that are stored. -/
def State.inside (s : State Keys Ct) : ℕ := Multiset.card (s.queued + s.held + s.stored)

/-- A query is admitted only while fewer than `max_results` queries and results are inside. -/
def Reserves (P : Config E Keys Ct) (s : State Keys Ct) : HandlerAction E Keys Ct → Prop
  | .query _ => s.HasRoom P → s.inside < P.maxResults
  | _ => True

instance (s : State Keys Ct) (l : HandlerAction E Keys Ct) : Decidable (Reserves P s l) := by
  cases l <;> unfold Reserves <;> infer_instance

theorem card_ticketsIn {α : Type} (q : ConcurrentMapQueue ℤ (Ticketed α)) :
    Multiset.card (ticketsIn q) = q.size := by
  rw [ticketsIn, Multiset.card_map, Multiset.coe_card]
  rfl

theorem State.inside_eq (s : State Keys Ct) :
    s.inside = s.qque.size + Multiset.card s.held + s.rque.size := by
  rw [State.inside, Multiset.card_add, Multiset.card_add, State.queued, State.stored, card_ticketsIn,
    card_ticketsIn]

theorem size_push {α : Type} {q q' : ConcurrentMapQueue ℤ (Ticketed α)} {id : ℤ} {v : Ticketed α}
    (h : q.push id v = .ok q') : q'.size = q.size + 1 :=
  (ConcurrentMapQueue.push_perm h).length_eq

theorem card_held_set {th : ℕ} {a : CalcThread Keys Ct} (h : s.threads[th]? = some a)
    (b : CalcThread Keys Ct) :
    Multiset.card ((s.threads.set th b).map CalcThread.held).sum + Multiset.card a.held =
      Multiset.card s.held + Multiset.card b.held := by
  rw [← Multiset.card_add, held_set h b, Multiset.card_add]

/-- A step of one thread, by what the queues and the thread hold before and after. -/
theorem inside_le {th : ℕ} {a b : CalcThread Keys Ct} (hth : s.threads[th]? = some a)
    (hthreads : s'.threads = s.threads.set th b)
    (hsize : s'.qque.size + Multiset.card b.held + s'.rque.size ≤
      s.qque.size + Multiset.card a.held + s.rque.size) : s'.inside ≤ s.inside := by
  have hheld := card_held_set hth b
  rw [State.inside_eq, State.inside_eq, State.held, hthreads]
  omega

/-- A step raises the number inside by one where it accepts a query, and by nothing otherwise. -/
theorem inside_step {l : HandlerAction E Keys Ct} (hs : s.handlerStep P l = some s') :
    s'.inside ≤ s.inside ∨ (∃ query, l = .query query) ∧ s.HasRoom P ∧ s'.inside = s.inside + 1 := by
  cases l with
  | tick d =>
    cases hs
    exact .inl le_rfl
  | query query =>
    cases hs
    rcases pushQuery_cases P s query with hp | ⟨qque, hq, hr, hpush, hp⟩
    · rw [hp]
      exact .inl le_rfl
    · rw [hp]
      refine .inr ⟨⟨query, rfl⟩, ⟨hq, hr⟩, ?_⟩
      rw [State.inside_eq, State.inside_eq]
      show qque.size + Multiset.card s.held + s.rque.size = _
      rw [size_push hpush]
      omega
  | popQuery th =>
    obtain ⟨queryId, query, qque, hth, hpop, rfl⟩ := popQuery_cases hs
    have hsize : s.qque.size = qque.size + 1 := (ConcurrentMapQueue.pop_perm hpop).length_eq
    left
    apply inside_le hth rfl
    simp only [CalcThread.held, Multiset.card_zero, Multiset.card_singleton, hsize]
    omega
  | execQuery th e =>
    left
    obtain ⟨queryId, query, hth, ⟨result, _, rfl⟩ | ⟨err, _, rfl⟩⟩ := execQuery_cases hs
    · apply inside_le hth rfl
      simp only [CalcThread.held, Multiset.card_singleton, le_refl]
    · apply inside_le hth rfl
      simp only [CalcThread.held, Multiset.card_zero, Multiset.card_singleton]
      omega
  | pushResult th =>
    left
    obtain ⟨queryId, result, hth, ⟨rque, hpush, rfl⟩ | ⟨err, _, rfl⟩⟩ := pushResult_cases hs
    · apply inside_le hth rfl
      simp only [CalcThread.held, Multiset.card_zero, Multiset.card_singleton, size_push hpush]
      omega
    · apply inside_le hth rfl
      simp only [CalcThread.held, Multiset.card_zero, Multiset.card_singleton]
      omega
  | resultRequest queryId =>
    obtain ⟨result, rque, hpop, rfl⟩ := resultRequest_cases hs
    have hsize : s.rque.size = rque.size + 1 := (ConcurrentMapQueue.popKey_perm hpop).length_eq
    left
    rw [State.inside_eq, State.inside_eq, hsize]
    show s.qque.size + Multiset.card s.held + rque.size ≤ _
    omega

/-- Only an accepted query makes the query queue longer. -/
theorem qque_size_step {l : HandlerAction E Keys Ct} (hs : s.handlerStep P l = some s') :
    s'.qque.size ≤ s.qque.size ∨
      s.qque.size < P.maxConcurrentQueries ∧ s'.qque.size = s.qque.size + 1 := by
  cases l with
  | tick d =>
    cases hs
    exact .inl le_rfl
  | query query =>
    cases hs
    rcases pushQuery_cases P s query with hp | ⟨qque, hq, hr, hpush, hp⟩
    · rw [hp]
      exact .inl le_rfl
    · rw [hp]
      exact .inr ⟨hq, size_push hpush⟩
  | popQuery th =>
    obtain ⟨queryId, query, qque, hth, hpop, rfl⟩ := popQuery_cases hs
    have hsize : s.qque.size = qque.size + 1 := (ConcurrentMapQueue.pop_perm hpop).length_eq
    left
    show qque.size ≤ s.qque.size
    omega
  | execQuery th e =>
    obtain ⟨_, _, _, ⟨_, _, rfl⟩ | ⟨_, _, rfl⟩⟩ := execQuery_cases hs <;> exact .inl le_rfl
  | pushResult th =>
    obtain ⟨_, _, _, ⟨_, _, rfl⟩ | ⟨_, _, rfl⟩⟩ := pushResult_cases hs <;> exact .inl le_rfl
  | resultRequest queryId =>
    obtain ⟨_, _, _, rfl⟩ := resultRequest_cases hs
    exact .inl le_rfl

theorem qque_size_reachable {ok : State Keys Ct → HandlerAction E Keys Ct → Prop}
    (h : (handlers P n).Reachable ok s) : s.qque.size ≤ P.maxConcurrentQueries := by
  induction h with
  | init hs =>
    obtain ⟨now, rfl⟩ := hs
    exact Nat.zero_le _
  | step _ _ hs ih =>
    rcases qque_size_step hs with hle | ⟨hlt, heq⟩
    · exact hle.trans ih
    · omega

theorem inside_reachable (h : (handlers P n).Reachable (Reserves P) s) : s.inside ≤ P.maxResults := by
  induction h with
  | init hs =>
    obtain ⟨now, rfl⟩ := hs
    rw [State.inside_eq]
    have hheld : (State.start now n : State Keys Ct).held = 0 := by
      simp [State.held, State.start, CalcThread.held]
    rw [hheld]
    exact Nat.zero_le _
  | step _ hok hs ih =>
    rcases inside_step hs with hle | ⟨⟨query, rfl⟩, hroom, heq⟩
    · exact hle.trans ih
    · have := hok hroom
      omega

/-- In every run the query queue keeps its limit. The result queue keeps its limit in every run that
admits a query only while fewer than `max_results` queries and results are inside. -/
theorem limits_hold (P : Config E Keys Ct) (threadNum : ℕ) :
    (∀ s, (handlers P threadNum).Reachable System.anyStep s → s.qque.size ≤ P.maxConcurrentQueries) ∧
    ∀ s, (handlers P threadNum).Reachable (Reserves P) s →
      s.qque.size ≤ P.maxConcurrentQueries ∧ s.rque.size ≤ P.maxResults := by
  refine ⟨fun s h => qque_size_reachable h, fun s h => ⟨qque_size_reachable h, ?_⟩⟩
  have hinside := inside_reachable h
  rw [State.inside_eq] at hinside
  omega

section Sample

/-- Two queries, a second apart, are computed by one thread. -/
def twoQueries : List (HandlerAction Unit Unit ℕ) :=
  [.query (echoQuery "HCNN" [7]), .tick clockTicks, .query (echoQuery "HCNN" [8]),
    .popQuery 0, .execQuery 0 (), .pushResult 0, .popQuery 0, .execQuery 0 (), .pushResult 0]

theorem limits_hold_sample : ∃ s : State Unit ℕ, s.rque.size = 2 ∧
    s.qque.size ≤ allFiles.maxConcurrentQueries ∧ s.rque.size ≤ allFiles.maxResults := by
  have hrun : ((handlers allFiles 1).run (Reserves allFiles) (State.start 0 1) twoQueries).map
      (fun s => s.rque.size) = some 2 := by
    decide +kernel
  obtain ⟨s, hs, hsize⟩ := Option.map_eq_some_iff.1 hrun
  have hinit : (handlers allFiles 1).Reachable (Reserves allFiles) (State.start 0 1) :=
    .init ⟨0, rfl⟩
  exact ⟨s, hsize, (limits_hold allFiles 1).2 s (hinit.run hs)⟩

/-- Both queries are admitted while the result queue is empty, and it holds two results in the end. -/
theorem limits_hold_differs : ∃ s : State Unit ℕ,
    (handlers oneResult 1).run System.anyStep (State.start 0 1) twoQueries = some s ∧
    oneResult.maxResults < s.rque.size := by
  have hrun : ((handlers oneResult 1).run System.anyStep (State.start 0 1) twoQueries).map
      (fun s => s.rque.size) = some 2 := by
    decide +kernel
  obtain ⟨s, hs, hsize⟩ := Option.map_eq_some_iff.1 hrun
  exact ⟨s, hs, hsize ▸ (by decide)⟩

end Sample

end Server
