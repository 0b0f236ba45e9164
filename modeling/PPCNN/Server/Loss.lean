import PPCNN.Server.Delivery
import Mathlib.Data.List.Infix

/-!
# Lost queries

An exception in the computation of a query ends the thread, and the query is lost with it: no result
is stored. With fresh ids this is the only way to lose a query (`lost_step`), so no query is lost
in a run in which every query taken from the queue can be computed (`no_query_lost`).
-/

set_option autoImplicit false

namespace Server

open Lib Share

variable {E Keys Ct : Type} (P : Config E Keys Ct) {n : ℕ}

/-- What a server owes its clients: every accepted query is in one place (the query queue, a live
thread, the result queue, the results handed out or expired), and every thread lives. -/
structure NoLoss (threadNum : ℕ) (s : State Keys Ct) : Prop where
  one_place : ∀ a ∈ s.issued, (s.queued + s.held + s.stored + s.finished).count a = 1
  all_live : s.live = threadNum

/-- The files of the query's model are there, a vector of as many ciphertexts as it has labels can be
made, and building and running the network throws nothing. -/
def Computable (e : E) (query : Query Keys Ct) : Prop :=
  P.fileExist e (P.structurePath query.params) ∧ P.fileExist e (P.weightsPath query.params) ∧
    query.params.labels ≤ P.maxSize ∧
    (P.predict e query.params query.encKeys query.ctxts (P.structurePath query.params)
      (P.weightsPath query.params)).isOk

instance (e : E) (query : Query Keys Ct) : Decidable (Computable P e query) :=
  inferInstanceAs (Decidable (_ ∧ _ ∧ _ ∧ _))

def CalcThread.Computes (e : E) : CalcThread Keys Ct → Prop
  | .computing _ query => Computable P e query.val
  | _ => True

instance (e : E) (thread : CalcThread Keys Ct) : Decidable (thread.Computes P e) :=
  match thread with
  | .computing _ query => inferInstanceAs (Decidable (Computable P e query.val))
  | .computed _ _ | .waiting | .ended => isTrue trivial

/-- A query that a thread computes now can be computed. -/
def Computes (s : State Keys Ct) : Action E Keys Ct → Prop
  | .execQuery th e => ∀ thread ∈ s.threads[th]?, thread.Computes P e
  | _ => True

instance (s : State Keys Ct) (l : Action E Keys Ct) : Decidable (Computes P s l) :=
  match l with
  | .execQuery th e => inferInstanceAs (Decidable (∀ thread ∈ s.threads[th]?, thread.Computes P e))
  | .tick _ | .pushQuery _ | .popQuery _ | .pushResult _ | .popResult _ | .cleanupResults =>
    isTrue trivial

variable {P} {s s' : State Keys Ct}

theorem exec_succeeds_iff (e : E) (now : ℕ) (queryId : ℤ) (query : Query Keys Ct) :
    (∃ result, P.exec e now queryId query = .ok result) ↔ Computable P e query := by
  unfold Config.exec Config.compute Computable
  cases P.fileExist e (P.structurePath query.params) with
  | false => simp
  | true =>
    cases P.fileExist e (P.weightsPath query.params) with
    | false => simp
    | true =>
      by_cases hlabels : query.params.labels ≤ P.maxSize
      · have hroom : ¬P.maxSize < query.params.labels := Nat.not_lt.2 hlabels
        cases P.predict e query.params query.encKeys query.ctxts (P.structurePath query.params)
          (P.weightsPath query.params) with
        | error err => simp [hlabels, hroom, Except.isOk, Except.toBool]
        | ok out => simp [hlabels, hroom, Except.isOk, Except.toBool]
      · simp [hlabels, Nat.lt_of_not_le hlabels]

theorem noLoss_iff (h : Conserved n s) : NoLoss n s ↔ s.lost = [] := by
  constructor
  · intro hs
    have := h.threads
    rw [hs.all_live] at this
    exact List.eq_nil_of_length_eq_zero (by omega)
  · intro hlost
    have hplaces := h.places
    have hthreads := h.threads
    rw [hlost] at hplaces hthreads
    refine ⟨fun a ha => ?_, hthreads⟩
    rw [← add_zero (s.queued + s.held + s.stored + s.finished)]
    exact hplaces ▸ Multiset.count_eq_one_of_mem (issued_nodup s) ha

/-- The id of a result that a thread holds is not in the result queue. -/
theorem Orderly.push_result (h : Orderly P n s) {th : ℕ} {queryId : ℤ}
    {result : Ticketed (Result Ct)} (hth : s.threads[th]? = some (.computed queryId result)) :
    queryId ∉ s.rque.keys := by
  intro hkey
  obtain ⟨other, hother⟩ := OrdMap.mem_keys_iff.1 hkey
  have hheld : (queryId, result.ticket) ∈ s.held := by
    have hset := held_set hth .waiting
    rw [CalcThread.held, CalcThread.held, add_zero] at hset
    exact hset ▸ Multiset.mem_add.2 (.inr (Multiset.mem_singleton_self _))
  have hstored : (queryId, other.ticket) ∈ s.stored := mem_ticketsIn hother
  have heq : (queryId, result.ticket) = (queryId, other.ticket) :=
    h.separate.distinct _
      (inside_waiting h.conserved h.origins h.separate
        (Multiset.mem_add.2 (.inl (Multiset.mem_add.2 (.inr hheld)))))
      _ (inside_waiting h.conserved h.origins h.separate (Multiset.mem_add.2 (.inr hstored))) rfl
  have hnodup := (Multiset.nodup_add.1
    (Multiset.nodup_of_le h.conserved.inside_le (issued_nodup s))).1
  exact Multiset.disjoint_left.1 (Multiset.nodup_add.1 hnodup).2.2
    (Multiset.mem_add.2 (.inr hheld)) (heq ▸ hstored)

/-- A step loses a query exactly when it is a computation that fails. -/
theorem lost_step (h : Orderly P n s) {l : Action E Keys Ct} (hs : s.step P l = some s') :
    s'.lost = [] ↔ s.lost = [] ∧ Computes P s l := by
  cases l with
  | tick d =>
    cases hs
    simp [Computes]
  | pushQuery query =>
    cases hs
    rcases pushQuery_cases P s query with hp | ⟨_, _, _, _, hp⟩ <;> simp [hp, Computes]
  | popQuery th =>
    obtain ⟨_, _, _, _, _, rfl⟩ := popQuery_cases hs
    simp [Computes]
  | execQuery th e =>
    obtain ⟨queryId, query, hth, hcases⟩ := execQuery_cases hs
    have hcomputes : Computes P s (.execQuery th e) ↔ Computable P e query.val := by
      simp [Computes, hth, CalcThread.Computes]
    rw [hcomputes, ← exec_succeeds_iff e s.now queryId]
    rcases hcases with ⟨result, hexec, rfl⟩ | ⟨err, hexec, rfl⟩
    · simp only [iff_self_and]
      exact fun _ => ⟨result, hexec⟩
    · simp [hexec]
  | pushResult th =>
    obtain ⟨queryId, result, hth, ⟨rque, _, rfl⟩ | ⟨err, herr, rfl⟩⟩ := pushResult_cases hs
    · simp [Computes]
    · have hok : s.rque.push queryId result = .ok (s.rque.emplace queryId result) :=
        ConcurrentMapQueue.push_eq_ok.2 ⟨h.push_result hth, rfl⟩
      rw [hok] at herr
      cases herr
  | popResult client =>
    obtain ⟨_, _, _, _, _, _, _, rfl⟩ := popResult_cases hs
    simp [Computes]
  | cleanupResults =>
    cases hs
    have hkeeps : (s.cleanupResults P).lost = s.lost := by
      refine cleanupResults_keeps (I := fun t => t.lost = s.lost) (fun t id ht => ?_) rfl
      rcases expire_cases t id with hid | ⟨_, _, _, hid⟩ <;> rw [hid] <;> exact ht
    simp [hkeeps, Computes]

theorem lost_reachable (h : (system P n).Reachable (fun s l => FreshId P s l ∧ Computes P s l) s) :
    s.lost = [] := by
  induction h with
  | init hs =>
    obtain ⟨now, rfl⟩ := hs
    rfl
  | step hreach hok hstep ih =>
    exact (lost_step (orderly_reachable (fun _ _ hl => hl.1) hreach) hstep).2 ⟨ih, hok.2⟩

/-- With fresh ids and queries that can be computed, every accepted query is in one place at every
moment, and no thread ends. -/
theorem no_query_lost (P : Config E Keys Ct) (threadNum : ℕ) (s : State Keys Ct)
    (h : (system P threadNum).Reachable (fun s l => FreshId P s l ∧ Computes P s l) s) :
    NoLoss threadNum s :=
  (noLoss_iff (conserved_reachable h)).2 (lost_reachable h)

section Sample

/-- Two threads and two queries. -/
theorem no_query_lost_sample : ∃ s : State Unit ℕ, s.issued = [(0, 0), (1, 1)] ∧ NoLoss 2 s := by
  have hrun : ((system allFiles 2).run (fun s l => FreshId allFiles s l ∧ Computes allFiles s l)
      (State.start 0 2) secondApart).map State.issued = some [(0, 0), (1, 1)] := by
    decide +kernel
  obtain ⟨s, hs, hissued⟩ := Option.map_eq_some_iff.1 hrun
  have hinit : (system allFiles 2).Reachable
      (fun s l => FreshId allFiles s l ∧ Computes allFiles s l) (State.start 0 2) := .init ⟨0, rfl⟩
  exact ⟨s, hissued, no_query_lost allFiles 2 s (hinit.run hs)⟩

/-- No model is called `missing`. -/
def someFiles : Config Unit Unit ℕ :=
  echoConfig fun _ path => !decide ("missing".toList <:+: path.toList)

/-- A query for a model whose files are missing: the thread ends, and the query is nowhere. -/
theorem no_query_lost_differs : ∃ s,
    (system someFiles 1).run (FreshId someFiles) (State.start 0 1)
      [.pushQuery (echoQuery "missing" [7]), .popQuery 0, .execQuery 0 ()] = some s ∧
    s.issued = [(0, 0)] ∧ s.live = 0 ∧ ¬ NoLoss 1 s := by
  have hrun : ((system someFiles 1).run (FreshId someFiles) (State.start 0 1)
      [.pushQuery (echoQuery "missing" [7]), .popQuery 0, .execQuery 0 ()]).map
      (fun s => (s.issued, s.live)) = some ([(0, 0)], 0) := by
    decide +kernel
  obtain ⟨s, hs, hval⟩ := Option.map_eq_some_iff.1 hrun
  simp only [Prod.mk.injEq] at hval
  refine ⟨s, hs, hval.1, hval.2, fun h => ?_⟩
  have hlive := h.all_live
  omega

end Sample

end Server
