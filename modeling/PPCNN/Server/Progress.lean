import PPCNN.Lib.Progress
import PPCNN.Server.Loss

/-!
# The threads come to an end of their work

A query costs at most three steps of the threads: one takes it from the query queue, computes it and puts
the result into the result queue. So a run has at most three thread steps for each accepted query, and where
the threads alone go on, they come to a rest (`threads_settle`). At rest no thread holds anything, and if a
thread still lives, the query queue is empty. With fresh ids and queries that can be computed every client
then has its result, finds it in the result queue, or asks too late (`every_client_answered`).
-/

set_option autoImplicit false

namespace Server

open Lib Share

variable {E Keys Ct : Type} (P : Config E Keys Ct) {n : ℕ}

/-! ## Work -/

/-- The steps of the calculation threads. -/
def Action.byThread : Action E Keys Ct → Bool
  | .popQuery _ | .execQuery _ _ | .pushResult _ => true
  | .tick _ | .pushQuery _ | .popResult _ | .cleanupResults => false

/-- The steps that the thread still makes for the query it holds. -/
def CalcThread.work : CalcThread Keys Ct → ℕ
  | .computing _ _ => 2
  | .computed _ _ => 1
  | .waiting | .ended => 0

def State.work (s : State Keys Ct) : ℕ := 3 * s.qque.size + (s.threads.map CalcThread.work).sum

/-- The steps that the accepted queries cost at most. -/
def State.brought (s : State Keys Ct) : ℕ := 3 * s.accepted.length

/-- The client of an accepted query has a result of its own query, can fetch it now, or the result of its
query has expired. -/
inductive Answered (s : State Keys Ct) (client : ℕ) : Prop
  | delivered (d : Delivery Ct) (mem : d ∈ s.deliveries) (own : d.client = client)
      (result : d.result.ticket = client) (origin : ComputedFrom P s.accepted d.queryId d.result)
  | ready (queryId : ℤ) (result : Ticketed (Result Ct)) (rque : ResultQueue Ct)
      (pop : s.popResult client =
        some { s with rque, deliveries := ⟨client, queryId, result⟩ :: s.deliveries })
      (own : result.ticket = client) (origin : ComputedFrom P s.accepted queryId result)
  | expired (queryId : ℤ) (result : Ticketed (Result Ct)) (mem : (queryId, result) ∈ s.expired)
      (own : result.ticket = client) (late : P.resultLifetimeSec ≤ result.val.elapsedTime s.now)

variable {P} {s s' : State Keys Ct}

theorem work_set {th : ℕ} {a : CalcThread Keys Ct} (h : s.threads[th]? = some a) (b : CalcThread Keys Ct) :
    ((s.threads.set th b).map CalcThread.work).sum + a.work =
      (s.threads.map CalcThread.work).sum + b.work :=
  sum_map_set CalcThread.work h b

theorem expire_frame (s : State Keys Ct) (id : ℤ) : (s.expire id).now = s.now ∧
    (s.expire id).qque = s.qque ∧ (s.expire id).threads = s.threads ∧
      (s.expire id).accepted = s.accepted := by
  rcases expire_cases s id with hid | ⟨_, _, _, hid⟩ <;> rw [hid] <;> exact ⟨rfl, rfl, rfl, rfl⟩

/-- Cleaning up changes only the result queue and the record of expired results. -/
theorem cleanupResults_frame (P : Config E Keys Ct) (s : State Keys Ct) :
    (s.cleanupResults P).now = s.now ∧ (s.cleanupResults P).qque = s.qque ∧
      (s.cleanupResults P).threads = s.threads ∧ (s.cleanupResults P).accepted = s.accepted := by
  refine cleanupResults_keeps (I := fun t => t.now = s.now ∧ t.qque = s.qque ∧ t.threads = s.threads ∧
    t.accepted = s.accepted) (fun t id ht => ?_) ⟨rfl, rfl, rfl, rfl⟩
  obtain ⟨hnow, hqque, hthreads, haccepted⟩ := expire_frame t id
  exact ⟨hnow.trans ht.1, hqque.trans ht.2.1, hthreads.trans ht.2.2.1, haccepted.trans ht.2.2.2⟩

/-- A thread step takes a unit of work, and an accepted query brings three. -/
theorem work_step {l : Action E Keys Ct} (hs : s.step P l = some s') :
    l.byThread.toNat + s'.work + s.brought ≤ s.work + s'.brought := by
  unfold State.work State.brought
  cases l with
  | tick d =>
    cases hs
    simp [Action.byThread]
  | pushQuery query =>
    cases hs
    rcases pushQuery_cases P s query with hp | ⟨qque, _, _, hpush, hp⟩
    · simp [hp, Action.byThread]
    · have hsize : qque.size = s.qque.size + 1 := (ConcurrentMapQueue.push_perm hpush).length_eq
      simp only [hp, hsize, Action.byThread, Bool.toNat_false, List.length_append, List.length_singleton]
      omega
  | popQuery th =>
    obtain ⟨queryId, query, qque, hth, hpop, rfl⟩ := popQuery_cases hs
    have hsize : s.qque.size = qque.size + 1 := (ConcurrentMapQueue.pop_perm hpop).length_eq
    have hwork := work_set hth (.computing queryId query)
    simp only [CalcThread.work] at hwork
    simp only [Action.byThread, Bool.toNat_true]
    omega
  | execQuery th e =>
    simp only [Action.byThread, Bool.toNat_true]
    obtain ⟨queryId, query, hth, ⟨result, _, rfl⟩ | ⟨err, _, rfl⟩⟩ := execQuery_cases hs
    · have hwork := work_set hth (.computed queryId ⟨query.ticket, result⟩)
      simp only [CalcThread.work] at hwork
      dsimp only
      omega
    · have hwork := work_set hth .ended
      simp only [CalcThread.work] at hwork
      dsimp only
      omega
  | pushResult th =>
    simp only [Action.byThread, Bool.toNat_true]
    obtain ⟨queryId, result, hth, ⟨rque, _, rfl⟩ | ⟨err, _, rfl⟩⟩ := pushResult_cases hs
    · have hwork := work_set hth .waiting
      simp only [CalcThread.work] at hwork
      dsimp only
      omega
    · have hwork := work_set hth .ended
      simp only [CalcThread.work] at hwork
      dsimp only
      omega
  | popResult client =>
    obtain ⟨_, _, _, _, _, _, _, rfl⟩ := popResult_cases hs
    simp [Action.byThread]
  | cleanupResults =>
    cases hs
    obtain ⟨_, hqque, hthreads, haccepted⟩ := cleanupResults_frame P s
    simp only [hqque, hthreads, haccepted, Action.byThread, Bool.toNat_false]
    omega

theorem paysFor : (system P n).PaysFor Action.byThread State.work State.brought :=
  fun _ _ _ hs => work_step hs

/-- A thread accepts no query. -/
theorem accepted_byThread {l : Action E Keys Ct} (hl : l.byThread = true) (hs : s.step P l = some s') :
    s'.accepted = s.accepted := by
  cases l with
  | popQuery th =>
    obtain ⟨_, _, _, _, _, rfl⟩ := popQuery_cases hs
    rfl
  | execQuery th e => obtain ⟨_, _, _, ⟨_, _, rfl⟩ | ⟨_, _, rfl⟩⟩ := execQuery_cases hs <;> rfl
  | pushResult th => obtain ⟨_, _, _, ⟨_, _, rfl⟩ | ⟨_, _, rfl⟩⟩ := pushResult_cases hs <;> rfl
  | tick _ | pushQuery _ | popResult _ | cleanupResults => cases hl

theorem work_lower {l : Action E Keys Ct} (hl : l.byThread = true) (hs : s.step P l = some s') :
    s'.work < s.work := by
  have hwork := work_step hs
  rw [hl, State.brought, State.brought, accepted_byThread hl hs, Bool.toNat_true] at hwork
  omega

theorem settled_of_work_eq_zero {ok : State Keys Ct → Action E Keys Ct → Prop} (h : s.work = 0) :
    (system P n).Settled ok Action.byThread s := by
  intro l hl _
  by_contra hsome
  obtain ⟨s', hs⟩ := Option.ne_none_iff_exists'.1 hsome
  have hlower := work_lower hl hs
  omega

/-! ## At rest -/

section

variable {th : ℕ}

theorem execQuery_enabled (e : E) {queryId : ℤ} {query : Ticketed (Query Keys Ct)}
    (h : s.threads[th]? = some (.computing queryId query)) : s.execQuery P th e ≠ none := by
  unfold State.execQuery
  rw [h]
  cases hexec : P.exec e s.now queryId query.val <;> simp [hexec]

theorem pushResult_enabled {queryId : ℤ} {result : Ticketed (Result Ct)}
    (h : s.threads[th]? = some (.computed queryId result)) : s.pushResult th ≠ none := by
  unfold State.pushResult
  rw [h]
  cases hpush : s.rque.push queryId result <;> simp [hpush]

theorem popQuery_enabled (h : s.threads[th]? = some .waiting) (hqque : s.qque.entries ≠ []) :
    s.popQuery th ≠ none := by
  obtain ⟨front, rest, hentries⟩ := List.exists_cons_of_ne_nil hqque
  unfold State.popQuery ConcurrentMapQueue.pop
  rw [h, hentries]
  simp

/-- No thread is in the middle of a query. -/
def State.Resting (s : State Keys Ct) : Prop := ∀ thread ∈ s.threads, thread = .waiting ∨ thread = .ended

theorem Resting.held_eq_zero (h : s.Resting) : s.held = 0 := by
  refine List.sum_eq_zero fun x hx => ?_
  obtain ⟨thread, hmem, rfl⟩ := List.mem_map.1 hx
  rcases h thread hmem with rfl | rfl <;> rfl

theorem exists_live (h : 0 < s.live) : ∃ (th : ℕ) (thread : CalcThread Keys Ct),
    s.threads[th]? = some thread ∧ thread ≠ .ended := by
  by_contra hnone
  push Not at hnone
  have hzero : s.live = 0 := by
    refine List.sum_eq_zero fun x hx => ?_
    obtain ⟨thread, hmem, rfl⟩ := List.mem_map.1 hx
    obtain ⟨th, hth⟩ := List.mem_iff_getElem?.1 hmem
    rw [hnone th thread hth]
    rfl
  omega

/-- A live thread at rest has emptied the query queue. -/
theorem queued_eq_zero (hrest : s.Resting) (hpop : ∀ th, s.popQuery th = none) (hlive : 0 < s.live) :
    s.queued = 0 := by
  obtain ⟨th, thread, hth, hne⟩ := exists_live hlive
  have hwaiting : thread = .waiting :=
    (hrest thread (List.mem_of_getElem? hth)).resolve_right hne
  subst hwaiting
  by_cases hqque : s.qque.entries = []
  · simp [State.queued, ticketsIn, hqque]
  · exact absurd (hpop th) (popQuery_enabled hth hqque)

/-- With live threads the accepted queries are then in the result queue or behind it, or lost. -/
theorem Conserved.at_rest (h : Conserved n s) (hrest : s.Resting) (hpop : ∀ th, s.popQuery th = none)
    (hlive : s.lost.length < n) : s.stored + s.finished + s.lost = s.issued := by
  have hthreads := h.threads
  have hplaces := h.places
  rw [Resting.held_eq_zero hrest, queued_eq_zero hrest hpop (by omega), zero_add, zero_add] at hplaces
  exact hplaces

end

theorem settled_resting (e : E) (h : (system P n).Settled System.anyStep Action.byThread s) :
    s.Resting := by
  intro thread hmem
  obtain ⟨th, hth⟩ := List.mem_iff_getElem?.1 hmem
  cases thread with
  | waiting => exact .inl rfl
  | ended => exact .inr rfl
  | computing queryId query => exact absurd (h (.execQuery th e) rfl trivial) (execQuery_enabled e hth)
  | computed queryId result => exact absurd (h (.pushResult th) rfl trivial) (pushResult_enabled hth)

/-- In every run each thread step is paid for by an accepted query, at three for a query; the threads alone
settle; and where they have settled, nothing is held, and while a thread lives, every accepted query is
stored, handed out, expired or lost with a thread that ended. -/
theorem threads_settle (P : Config E Keys Ct) (threadNum : ℕ) (e : E) (s : State Keys Ct)
    (h : (system P threadNum).Reachable System.anyStep s) :
    (∀ actions s', (system P threadNum).run System.anyStep s actions = some s' →
      actions.countP Action.byThread + s'.work + s.brought ≤ s.work + s'.brought ∧
      ((system P threadNum).Settled System.anyStep Action.byThread s' →
        s'.held = 0 ∧ (s'.lost.length < threadNum → s'.stored + s'.finished + s'.lost = s'.issued))) ∧
    ∃ actions s', (∀ l ∈ actions, Action.byThread l = true) ∧
      (system P threadNum).run System.anyStep s actions = some s' ∧
      (system P threadNum).Settled System.anyStep Action.byThread s' := by
  refine ⟨fun actions s' hrun => ⟨System.run_countP_le paysFor hrun, fun hsettled => ?_⟩,
    System.exists_settled (fun _ _ _ hl hs => work_lower hl hs) s⟩
  have hrest := settled_resting e hsettled
  refine ⟨Resting.held_eq_zero hrest, fun hlive => ?_⟩
  exact (conserved_reachable (h.run hrun)).at_rest hrest (fun th => hsettled (.popQuery th) rfl trivial)
    hlive

/-! ## Expired results -/

/-- A result that cleaning up removes was stored and has reached its lifetime. -/
theorem cleanupResults_expired {entry : ℤ × Ticketed (Result Ct)}
    (h : entry ∈ (s.cleanupResults P).expired) : entry ∈ s.expired ∨
      entry ∈ s.rque.entries ∧ P.resultLifetimeSec ≤ entry.2.val.elapsedTime s.now := by
  unfold State.cleanupResults at h
  split at h
  · let I : State Keys Ct → Prop := fun t => t.rque.entries ⊆ s.rque.entries ∧
      ∀ entry ∈ t.expired, entry ∈ s.expired ∨
        entry ∈ s.rque.entries ∧ P.resultLifetimeSec ≤ entry.2.val.elapsedTime s.now
    refine (List.foldlRecOn (motive := I) _ _ ⟨fun _ he => he, fun _ he => .inl he⟩
      fun t ht id hid => ?_).2 entry h
    rcases expire_cases t id with heq | ⟨result, rque, hpop, heq⟩
    · rw [heq]
      exact ht
    · rw [heq]
      have hperm := ConcurrentMapQueue.popKey_perm hpop
      have hstored : (id, result) ∈ s.rque.entries := ht.1 (hperm.mem_iff.2 List.mem_cons_self)
      refine ⟨fun x hx => ht.1 (hperm.mem_iff.2 (List.mem_cons_of_mem _ hx)), fun x hx => ?_⟩
      rcases List.mem_cons.1 hx with rfl | hx
      · -- the entry that was found to be overdue has the same key
        obtain ⟨other, hother, hkey⟩ := List.mem_map.1 hid
        obtain ⟨hmem, hlate⟩ := List.mem_filter.1 hother
        have hsame : other.2 = result := OrdMap.entry_unique (hkey ▸ hmem) hstored
        refine .inr ⟨hstored, ?_⟩
        rw [← hsame]
        simpa using hlate
      · exact ht.2 x hx
  · exact .inl h

/-- Every expired result has reached its lifetime. -/
def Overripe (P : Config E Keys Ct) (s : State Keys Ct) : Prop :=
  ∀ entry ∈ s.expired, P.resultLifetimeSec ≤ entry.2.val.elapsedTime s.now

theorem overripe_step {l : Action E Keys Ct} (h : Overripe P s) (hs : s.step P l = some s') :
    Overripe P s' := by
  cases l with
  | tick d =>
    cases hs
    intro entry he
    refine (h entry he).trans ?_
    exact Nat.div_le_div_right (Nat.sub_le_sub_right (Nat.le_add_right _ _) _)
  | pushQuery query =>
    cases hs
    rcases pushQuery_cases P s query with hp | ⟨_, _, _, _, hp⟩ <;> rw [hp] <;> exact h
  | popQuery th =>
    obtain ⟨_, _, _, _, _, rfl⟩ := popQuery_cases hs
    exact h
  | execQuery th e => obtain ⟨_, _, _, ⟨_, _, rfl⟩ | ⟨_, _, rfl⟩⟩ := execQuery_cases hs <;> exact h
  | pushResult th => obtain ⟨_, _, _, ⟨_, _, rfl⟩ | ⟨_, _, rfl⟩⟩ := pushResult_cases hs <;> exact h
  | popResult client =>
    obtain ⟨_, _, _, _, _, _, _, rfl⟩ := popResult_cases hs
    exact h
  | cleanupResults =>
    cases hs
    intro entry he
    rw [(cleanupResults_frame P s).1]
    rcases cleanupResults_expired he with hold | ⟨_, hlate⟩
    · exact h entry hold
    · exact hlate

theorem overripe_reachable {ok : State Keys Ct → Action E Keys Ct → Prop}
    (h : (system P n).Reachable ok s) : Overripe P s := by
  refine h.invariant (I := Overripe P) ?_ fun _ _ _ hinv _ hstep => overripe_step hinv hstep
  rintro s ⟨now, rfl⟩ entry he
  cases he

/-! ## Every client has its answer -/

/-- The steps of the runs with fresh ids and queries that can be computed. -/
def Regular (P : Config E Keys Ct) (s : State Keys Ct) (l : Action E Keys Ct) : Prop :=
  FreshId P s l ∧ Computes P s l

instance (s : State Keys Ct) (l : Action E Keys Ct) : Decidable (Regular P s l) :=
  inferInstanceAs (Decidable (_ ∧ _))

theorem accepted_run {ok : State Keys Ct → Action E Keys Ct → Prop} [∀ s l, Decidable (ok s l)]
    {actions : List (Action E Keys Ct)} (hactions : ∀ l ∈ actions, Action.byThread l = true)
    (hrun : (system P n).run ok s actions = some s') : s'.accepted = s.accepted := by
  induction actions generalizing s with
  | nil => rw [Option.some.inj hrun]
  | cons l actions ih =>
    rw [System.run] at hrun
    split at hrun
    · obtain ⟨s1, hs1, hrun⟩ := Option.bind_eq_some_iff.1 hrun
      rw [ih (fun l hl => hactions l (List.mem_cons_of_mem _ hl)) hrun]
      exact accepted_byThread (hactions l List.mem_cons_self) hs1
    · cases hrun

theorem regular_resting (ho : Origins P s) {e : E} (hcomp : ∀ a ∈ s.accepted, Computable P e a.2)
    (h : (system P n).Settled (Regular P) Action.byThread s) : s.Resting := by
  intro thread hmem
  obtain ⟨th, hth⟩ := List.mem_iff_getElem?.1 hmem
  cases thread with
  | waiting => exact .inl rfl
  | ended => exact .inr rfl
  | computing queryId query =>
    have horigin : s.accepted[query.ticket]? = some (queryId, query.val) := ho.threads _ hmem
    have hquery : Computable P e query.val := hcomp (queryId, query.val) (List.mem_of_getElem? horigin)
    have hok : Regular P s (.execQuery th e) := by
      refine ⟨trivial, fun thread hthread => ?_⟩
      rw [hth] at hthread
      cases hthread
      exact hquery
    exact absurd (h (.execQuery th e) rfl hok) (execQuery_enabled e hth)
  | computed queryId result =>
    exact absurd (h (.pushResult th) rfl ⟨trivial, trivial⟩) (pushResult_enabled hth)

/-- A client has its answer when its query is stored, handed out or expired. -/
theorem Orderly.answered (h : Orderly P n s) (hripe : Overripe P s)
    (hplaces : s.stored + s.finished = s.issued) {client : ℕ} (hclient : client < s.accepted.length) :
    Answered P s client := by
  obtain ⟨⟨queryId, query⟩, hget⟩ : ∃ a, s.accepted[client]? = some a :=
    ⟨_, List.getElem?_eq_getElem hclient⟩
  have hdelivered : ∀ d ∈ s.deliveries, d.client = client → Answered P s client := fun d hd hown =>
    .delivered d hd hown ((h.separate.own d hd).trans hown) (h.origins.delivered d hd).1
  have hmem : (queryId, client) ∈ s.stored + s.finished := by
    rw [hplaces]
    exact mem_issued.2 ⟨query, hget⟩
  rcases Multiset.mem_add.1 hmem with hstored | hfinished
  · unfold State.stored ticketsIn at hstored
    obtain ⟨⟨id, result⟩, hentry, heq⟩ := Multiset.mem_map.1 hstored
    simp only [Prod.mk.injEq] at heq
    obtain ⟨rfl, hticket⟩ := heq
    by_cases hold : client ∈ s.deliveries.map Delivery.client
    · obtain ⟨d, hd, hown⟩ := List.mem_map.1 hold
      exact hdelivered d hd hown
    · refine .ready id result (s.rque.erase id) ?_ hticket (h.origins.stored _ hentry)
      have hpop : s.rque.popKey id = some (result, s.rque.erase id) := by
        rw [ConcurrentMapQueue.popKey, OrdMap.find?_eq_some.2 hentry, Option.map_some]
      unfold State.popResult
      rw [hget]
      simp only [hpop, if_neg hold, Option.map_some]
  · rcases Multiset.mem_add.1 hfinished with hd | he
    · obtain ⟨d, hd, heq⟩ := List.mem_map.1 hd
      simp only [Prod.mk.injEq] at heq
      exact hdelivered d hd ((h.separate.own d hd).symm.trans heq.2)
    · obtain ⟨⟨id, result⟩, he, heq⟩ := List.mem_map.1 he
      simp only [Prod.mk.injEq] at heq
      exact .expired id result he heq.2 (hripe _ he)

/-- In the runs with fresh ids and queries that can be computed, the threads alone, in any order, make at
most `work` steps, and when none is left to make, every client has the result of its own query, finds it in
the result queue, or the result has passed its lifetime. -/
theorem every_client_answered (P : Config E Keys Ct) (threadNum : ℕ) (hthreads : 0 < threadNum)
    (s : State Keys Ct) (h : (system P threadNum).Reachable (Regular P) s) (e : E)
    (hcomp : ∀ a ∈ s.accepted, Computable P e a.2) (actions : List (Action E Keys Ct))
    (hactions : ∀ l ∈ actions, Action.byThread l = true) (s' : State Keys Ct)
    (hrun : (system P threadNum).run (Regular P) s actions = some s') :
    actions.length + s'.work ≤ s.work ∧
    ((system P threadNum).Settled (Regular P) Action.byThread s' →
      ∀ client < s.accepted.length, Answered P s' client) := by
  have haccepted := accepted_run hactions hrun
  have hreach := h.run hrun
  constructor
  · have hpaid := System.run_countP_le paysFor (System.run_any hrun)
    rw [List.countP_eq_length.2 hactions, State.brought, State.brought, haccepted] at hpaid
    omega
  · intro hsettled client hclient
    have horderly := orderly_reachable (fun _ _ hl => hl.1) hreach
    have hlost : s'.lost = [] := lost_reachable hreach
    have hrest := regular_resting horderly.origins (haccepted ▸ hcomp) hsettled
    have hplaces := horderly.conserved.at_rest hrest
      (fun th => hsettled (.popQuery th) rfl ⟨trivial, trivial⟩) (by simpa [hlost] using hthreads)
    rw [hlost, Multiset.coe_nil, add_zero] at hplaces
    exact horderly.answered (overripe_reachable hreach) hplaces (haccepted ▸ hclient)

section Sample

/-- Two queries, accepted a second apart. -/
def twoAccepted : List (Action Unit Unit ℕ) :=
  [.pushQuery (echoQuery "HCNN" [7]), .tick clockTicks, .pushQuery (echoQuery "HCNN" [8])]

/-- Two threads compute them at the same time. -/
def bothComputed : List (Action Unit Unit ℕ) :=
  [.popQuery 0, .popQuery 1, .execQuery 1 (), .execQuery 0 (), .pushResult 0, .pushResult 1]

theorem threads_settle_sample : ∃ s : State Unit ℕ, s.issued = [(0, 0), (1, 1)] ∧
    (∀ actions s', (system allFiles 2).run System.anyStep s actions = some s' →
      actions.countP Action.byThread + s'.work + s.brought ≤ s.work + s'.brought ∧
      ((system allFiles 2).Settled System.anyStep Action.byThread s' →
        s'.held = 0 ∧ (s'.lost.length < 2 → s'.stored + s'.finished + s'.lost = s'.issued))) ∧
    ∃ actions s', (∀ l ∈ actions, Action.byThread l = true) ∧
      (system allFiles 2).run System.anyStep s actions = some s' ∧
      (system allFiles 2).Settled System.anyStep Action.byThread s' := by
  have hrun : ((system allFiles 2).run System.anyStep (State.start 0 2) twoAccepted).map State.issued =
      some [(0, 0), (1, 1)] := by
    decide +kernel
  obtain ⟨s, hs, hissued⟩ := Option.map_eq_some_iff.1 hrun
  have hinit : (system allFiles 2).Reachable System.anyStep (State.start 0 2) := .init ⟨0, rfl⟩
  exact ⟨s, hissued, threads_settle allFiles 2 () s (hinit.run hs)⟩

theorem every_client_answered_sample : ∃ s s' : State Unit ℕ,
    (system allFiles 2).run (Regular allFiles) s bothComputed = some s' ∧ s.work = 6 ∧ s'.work = 0 ∧
      ∀ client < 2, Answered allFiles s' client := by
  have hrun : ((system allFiles 2).run (Regular allFiles) (State.start 0 2) twoAccepted).bind (fun s =>
      ((system allFiles 2).run (Regular allFiles) s bothComputed).map fun s' =>
        (decide (∀ a ∈ s.accepted, Computable allFiles () a.2), s.accepted.length, s.work, s'.work)) =
      some (true, 2, 6, 0) := by
    decide +kernel
  obtain ⟨s, hs, hrest⟩ := Option.bind_eq_some_iff.1 hrun
  obtain ⟨s', hs', hval⟩ := Option.map_eq_some_iff.1 hrest
  simp only [Prod.mk.injEq, decide_eq_true_eq] at hval
  obtain ⟨hcomp, hlength, hwork, hdone⟩ := hval
  have hinit : (system allFiles 2).Reachable (Regular allFiles) (State.start 0 2) := .init ⟨0, rfl⟩
  have hanswered := (every_client_answered allFiles 2 (by decide) s (hinit.run hs) () hcomp bothComputed
    (by decide) s' hs').2 (settled_of_work_eq_zero hdone)
  exact ⟨s, s', hs', hwork, hdone, hlength ▸ hanswered⟩

end Sample

end Server
