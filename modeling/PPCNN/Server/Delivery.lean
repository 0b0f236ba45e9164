import PPCNN.Server.Custody

/-!
# Who receives which result

Two invariants. `Origins` holds in every run: the queries in the places are the accepted ones, and
the results were computed from them. `Separate` needs that an accepted id is not the id of a query
whose client still waits (`FreshId`): then the waiting clients have different ids, and every client
has received the result of its own query (`own_results`).
-/

set_option autoImplicit false

namespace Server

open Lib Share

variable {E Keys Ct : Type} (P : Config E Keys Ct) {n : ℕ}

/-! ## Origins -/

/-- The result was computed from the query accepted under its ticket, with the id `queryId`. -/
def ComputedFrom (accepted : List (ℤ × Query Keys Ct)) (queryId : ℤ)
    (result : Ticketed (Result Ct)) : Prop :=
  ∃ query, accepted[result.ticket]? = some (queryId, query) ∧
    ∃ e now, P.exec e now queryId query = .ok result.val

def CalcThread.HasOrigin (accepted : List (ℤ × Query Keys Ct)) : CalcThread Keys Ct → Prop
  | .computing queryId query => accepted[query.ticket]? = some (queryId, query.val)
  | .computed queryId result => ComputedFrom P accepted queryId result
  | .waiting | .ended => True

structure Origins (s : State Keys Ct) : Prop where
  queued : ∀ entry ∈ s.qque.entries, s.accepted[entry.2.ticket]? = some (entry.1, entry.2.val)
  threads : ∀ thread ∈ s.threads, thread.HasOrigin P s.accepted
  stored : ∀ entry ∈ s.rque.entries, ComputedFrom P s.accepted entry.1 entry.2
  delivered : ∀ d ∈ s.deliveries, ComputedFrom P s.accepted d.queryId d.result ∧
    ∃ query, s.accepted[d.client]? = some (d.queryId, query)

/-! ## Waiting clients -/

/-- The accepted queries whose client has not received a result. -/
def State.waiting (s : State Keys Ct) : List (ℤ × ℕ) :=
  s.issued.filter fun a => a.2 ∉ s.deliveries.map Delivery.client

/-- `push_query` accepts a query: the queues have room, and no query in the query queue has the
id. -/
def State.Admits (s : State Keys Ct) : Prop :=
  s.qque.size < P.maxConcurrentQueries ∧ s.rque.size < P.maxResults ∧
    s.qque.count (P.genUuid s.now) = 0

instance (s : State Keys Ct) : Decidable (s.Admits P) :=
  inferInstanceAs (Decidable (_ ∧ _ ∧ _))

/-- The id of a query to be accepted is not the id of a query whose client still waits. -/
def FreshId (s : State Keys Ct) : Action E Keys Ct → Prop
  | .pushQuery _ => s.Admits P → ∀ a ∈ s.waiting, a.1 ≠ P.genUuid s.now
  | _ => True

instance (s : State Keys Ct) (l : Action E Keys Ct) : Decidable (FreshId P s l) :=
  match l with
  | .pushQuery _ => inferInstanceAs (Decidable (s.Admits P → ∀ a ∈ s.waiting, a.1 ≠ P.genUuid s.now))
  | .tick _ | .popQuery _ | .execQuery _ _ | .pushResult _ | .popResult _ | .cleanupResults =>
    isTrue trivial

structure Separate (s : State Keys Ct) : Prop where
  own : ∀ d ∈ s.deliveries, d.result.ticket = d.client
  distinct : ∀ a ∈ s.waiting, ∀ b ∈ s.waiting, a.1 = b.1 → a = b

/-- What a server owes its clients: the accepted queries that are queued, computed or stored have
different ids, and a client has received the result of its own query. -/
structure NoMixUp (s : State Keys Ct) : Prop where
  ids_distinct : ((s.queued + s.held + s.stored).map Prod.fst).Nodup
  own_result : ∀ d ∈ s.deliveries, d.result.ticket = d.client ∧
    ∃ query, s.accepted[d.client]? = some (d.queryId, query) ∧
      ∃ e now, P.exec e now d.queryId query = .ok d.result.val

variable {P} {s s' : State Keys Ct}

/-! ## Origins hold in every run -/

section

variable {th : ℕ}

/-- What is recorded stays recorded. -/
theorem recorded {α : Type} {l : List α} {i : ℕ} {a : α} (h : l[i]? = some a) {more : List α} :
    (l ++ more)[i]? = some a := by
  rw [List.getElem?_append_left (List.getElem?_eq_some_iff.1 h).1, h]

theorem ComputedFrom.append {accepted : List (ℤ × Query Keys Ct)} {queryId : ℤ}
    {result : Ticketed (Result Ct)} (h : ComputedFrom P accepted queryId result)
    (more : List (ℤ × Query Keys Ct)) : ComputedFrom P (accepted ++ more) queryId result := by
  obtain ⟨query, hacc, hexec⟩ := h
  exact ⟨query, recorded hacc, hexec⟩

theorem Origins.push (h : Origins P s) (query : Query Keys Ct) :
    Origins P (s.pushQuery P query).2 := by
  rcases pushQuery_cases P s query with hp | ⟨qque, _, _, hpush, hp⟩
  · rw [hp]
    exact h
  · rw [hp]
    refine ⟨fun entry he => ?_, fun thread ht => ?_, fun entry he => (h.stored entry he).append _,
      fun d hd => ?_⟩
    · rcases List.mem_cons.1 ((ConcurrentMapQueue.push_perm hpush).mem_iff.1 he) with rfl | he
      · simp
      · exact recorded (h.queued entry he)
    · have := h.threads thread ht
      cases thread with
      | computing queryId query => exact recorded this
      | computed queryId result => exact this.append _
      | waiting => trivial
      | ended => trivial
    · obtain ⟨hresult, query, hclient⟩ := h.delivered d hd
      exact ⟨hresult.append _, query, recorded hclient⟩

/-- A thread goes to a place whose query has its origin. -/
theorem Origins.set_thread (h : Origins P s) {a : CalcThread Keys Ct}
    (ha : a.HasOrigin P s.accepted) :
    ∀ thread ∈ s.threads.set th a, thread.HasOrigin P s.accepted := by
  intro thread ht
  rcases List.mem_or_eq_of_mem_set ht with ht | rfl
  · exact h.threads thread ht
  · exact ha

theorem Origins.step (h : Origins P s) {l : Action E Keys Ct} (hs : s.step P l = some s') :
    Origins P s' := by
  cases l with
  | tick d =>
    cases hs
    exact ⟨h.queued, h.threads, h.stored, h.delivered⟩
  | pushQuery query =>
    cases hs
    exact h.push query
  | popQuery th =>
    obtain ⟨queryId, query, qque, _, hpop, rfl⟩ := popQuery_cases hs
    have hperm := ConcurrentMapQueue.pop_perm hpop
    exact ⟨fun entry he => h.queued entry (hperm.mem_iff.2 (List.mem_cons_of_mem _ he)),
      h.set_thread (h.queued _ (hperm.mem_iff.2 List.mem_cons_self)), h.stored, h.delivered⟩
  | execQuery th e =>
    obtain ⟨queryId, query, hth, ⟨result, hexec, rfl⟩ | ⟨err, _, rfl⟩⟩ := execQuery_cases hs
    · have hquery := h.threads _ (List.mem_of_getElem? hth)
      exact ⟨h.queued, h.set_thread ⟨query.val, hquery, e, s.now, hexec⟩, h.stored, h.delivered⟩
    · exact ⟨h.queued, h.set_thread trivial, h.stored, h.delivered⟩
  | pushResult th =>
    obtain ⟨queryId, result, hth, ⟨rque, hpush, rfl⟩ | ⟨err, _, rfl⟩⟩ := pushResult_cases hs
    · have hresult := h.threads _ (List.mem_of_getElem? hth)
      refine ⟨h.queued, h.set_thread trivial, fun entry he => ?_, h.delivered⟩
      rcases List.mem_cons.1 ((ConcurrentMapQueue.push_perm hpush).mem_iff.1 he) with rfl | he
      · exact hresult
      · exact h.stored entry he
    · exact ⟨h.queued, h.set_thread trivial, h.stored, h.delivered⟩
  | popResult client =>
    obtain ⟨queryId, query, result, rque, hacc, _, hpop, rfl⟩ := popResult_cases hs
    have hperm := ConcurrentMapQueue.popKey_perm hpop
    refine ⟨h.queued, h.threads,
      fun entry he => h.stored entry (hperm.mem_iff.2 (List.mem_cons_of_mem _ he)), ?_⟩
    intro d hd
    rcases List.mem_cons.1 hd with rfl | hd
    · exact ⟨h.stored _ (hperm.mem_iff.2 List.mem_cons_self), query, hacc⟩
    · exact h.delivered d hd
  | cleanupResults =>
    cases hs
    refine cleanupResults_keeps (fun s id h => ?_) h
    rcases expire_cases s id with hid | ⟨result, rque, hpop, hid⟩
    · rw [hid]
      exact h
    · rw [hid]
      have hperm := ConcurrentMapQueue.popKey_perm hpop
      exact ⟨h.queued, h.threads,
        fun entry he => h.stored entry (hperm.mem_iff.2 (List.mem_cons_of_mem _ he)), h.delivered⟩

theorem origins_start (now : ℕ) : Origins P (State.start now n : State Keys Ct) where
  queued _ h := by cases h
  threads thread h := by
    rw [List.eq_of_mem_replicate h]
    trivial
  stored _ h := by cases h
  delivered _ h := by cases h

end

/-! ## Waiting clients have different ids -/

theorem mem_issued {a : ℤ × ℕ} : a ∈ s.issued ↔ ∃ query, s.accepted[a.2]? = some (a.1, query) := by
  obtain ⟨id, ticket⟩ := a
  simp only [State.issued, List.mem_mapIdx, Prod.mk.injEq]
  constructor
  · rintro ⟨i, hi, hid, rfl⟩
    exact ⟨s.accepted[i].2, by rw [List.getElem?_eq_getElem hi, ← hid]⟩
  · rintro ⟨query, h⟩
    obtain ⟨hlt, hval⟩ := List.getElem?_eq_some_iff.1 h
    exact ⟨ticket, hlt, by rw [hval], rfl⟩

theorem issued_nodup (s : State Keys Ct) : s.issued.Nodup := by
  have : s.issued.map Prod.snd = List.range s.accepted.length := by
    refine List.ext_getElem (by simp [State.issued]) fun i _ _ => ?_
    simp [State.issued]
  exact .of_map Prod.snd (this ▸ List.nodup_range)

/-- A ticket has one id. -/
theorem issued_unique {a b : ℤ × ℕ} (ha : a ∈ s.issued) (hb : b ∈ s.issued) (h : a.2 = b.2) :
    a = b := by
  obtain ⟨query, ha⟩ := mem_issued.1 ha
  obtain ⟨query', hb⟩ := mem_issued.1 hb
  rw [h, hb] at ha
  exact Prod.ext (congrArg Prod.fst (Option.some.inj ha)).symm h

theorem mem_waiting {a : ℤ × ℕ} :
    a ∈ s.waiting ↔ a ∈ s.issued ∧ a.2 ∉ s.deliveries.map Delivery.client := by
  simp [State.waiting]

/-- The queries in the queues and with the threads are accepted ones, each in one place only. -/
theorem Conserved.inside_le (h : Conserved n s) :
    s.queued + s.held + s.stored + s.finished ≤ (s.issued : Multiset (ℤ × ℕ)) := by
  rw [← h.places]
  exact Multiset.le_add_right _ _

/-- A query in a queue or with a thread is one whose client still waits. -/
theorem inside_waiting (hc : Conserved n s) (ho : Origins P s) (hs : Separate s) {a : ℤ × ℕ}
    (ha : a ∈ s.queued + s.held + s.stored) : a ∈ s.waiting := by
  have hle := hc.inside_le
  have hissued : a ∈ s.issued := Multiset.mem_of_le hle (Multiset.mem_add.2 (.inl ha))
  refine mem_waiting.2 ⟨hissued, fun hclient => ?_⟩
  obtain ⟨d, hd, hda⟩ := List.mem_map.1 hclient
  obtain ⟨⟨query, hrec, _⟩, _⟩ := ho.delivered d hd
  have hfin : (d.queryId, d.result.ticket) ∈ s.finished :=
    Multiset.mem_add.2 (.inl (List.mem_map.2 ⟨d, hd, rfl⟩))
  have heq : a = (d.queryId, d.result.ticket) :=
    issued_unique hissued (mem_issued.2 ⟨query, hrec⟩) (hda.symm.trans (hs.own d hd).symm)
  have hdisj := (Multiset.nodup_add.1 (Multiset.nodup_of_le hle (issued_nodup s))).2.2
  exact Multiset.disjoint_left.1 hdisj ha (heq ▸ hfin)

theorem Separate.push (h : Separate s) {query : Query Keys Ct}
    (hok : FreshId P s (.pushQuery query)) : Separate (s.pushQuery P query).2 := by
  rcases pushQuery_cases P s query with hp | ⟨qque, hq, hr, hpush, hp⟩
  · rw [hp]
    exact h
  · have hfresh := hok ⟨hq, hr, ConcurrentMapQueue.count_eq_zero.2
      (ConcurrentMapQueue.push_eq_ok.1 hpush).1⟩
    have hwaiting : ∀ a ∈ (s.pushQuery P query).2.waiting,
        a ∈ s.waiting ∨ a = (P.genUuid s.now, s.accepted.length) := by
      rw [hp]
      intro a ha
      obtain ⟨ha, hnew⟩ := mem_waiting.1 ha
      rw [State.issued, issued_append, List.mem_append, List.mem_singleton] at ha
      exact ha.imp_left fun ha => mem_waiting.2 ⟨ha, hnew⟩
    refine ⟨by rw [hp]; exact h.own, fun a ha b hb hab => ?_⟩
    rcases hwaiting a ha with ha | rfl <;> rcases hwaiting b hb with hb | rfl
    · exact h.distinct a ha b hb hab
    · exact absurd hab (hfresh a ha)
    · exact absurd hab.symm (hfresh b hb)
    · rfl

theorem Separate.deliver (hc : Conserved n s) (ho : Origins P s) (h : Separate s) {client : ℕ}
    (hs : s.popResult client = some s') : Separate s' := by
  obtain ⟨queryId, query, result, rque, hacc, hnew, hpop, rfl⟩ := popResult_cases hs
  have hstored : (queryId, result.ticket) ∈ s.stored := by
    rw [State.stored, ticketsIn_perm (ConcurrentMapQueue.popKey_perm hpop)]
    exact Multiset.mem_add.2 (.inl (Multiset.mem_singleton_self _))
  have hresult := inside_waiting hc ho h (Multiset.mem_add.2 (.inr hstored))
  have hclient : (queryId, client) ∈ s.waiting :=
    mem_waiting.2 ⟨mem_issued.2 ⟨query, hacc⟩, hnew⟩
  refine ⟨fun d hd => ?_, fun a ha b hb hab => ?_⟩
  · rcases List.mem_cons.1 hd with rfl | hd
    · exact congrArg Prod.snd (h.distinct _ hresult _ hclient rfl)
    · exact h.own d hd
  · have hwas : ∀ a ∈ State.waiting { s with
        rque, deliveries := ⟨client, queryId, result⟩ :: s.deliveries }, a ∈ s.waiting := by
      intro a ha
      obtain ⟨ha, hnot⟩ := mem_waiting.1 ha
      exact mem_waiting.2 ⟨ha, fun hmem => hnot (List.mem_cons_of_mem _ hmem)⟩
    exact h.distinct a (hwas a ha) b (hwas b hb) hab

theorem Separate.step (hc : Conserved n s) (ho : Origins P s) (h : Separate s)
    {l : Action E Keys Ct} (hok : FreshId P s l) (hs : s.step P l = some s') : Separate s' := by
  cases l with
  | tick d =>
    cases hs
    exact ⟨h.own, h.distinct⟩
  | pushQuery query =>
    cases hs
    exact h.push hok
  | popQuery th =>
    obtain ⟨_, _, _, _, _, rfl⟩ := popQuery_cases hs
    exact ⟨h.own, h.distinct⟩
  | execQuery th e =>
    obtain ⟨_, _, _, ⟨_, _, rfl⟩ | ⟨_, _, rfl⟩⟩ := execQuery_cases hs <;>
      exact ⟨h.own, h.distinct⟩
  | pushResult th =>
    obtain ⟨_, _, _, ⟨_, _, rfl⟩ | ⟨_, _, rfl⟩⟩ := pushResult_cases hs <;>
      exact ⟨h.own, h.distinct⟩
  | popResult client => exact h.deliver hc ho hs
  | cleanupResults =>
    cases hs
    refine cleanupResults_keeps (fun s id h => ?_) h
    rcases expire_cases s id with hid | ⟨_, _, _, hid⟩
    · rw [hid]
      exact h
    · rw [hid]
      exact ⟨h.own, h.distinct⟩

theorem separate_start (now : ℕ) : Separate (State.start now n : State Keys Ct) where
  own _ h := by cases h
  distinct _ h := by cases h

/-- The invariant of the runs with fresh ids. -/
structure Orderly (P : Config E Keys Ct) (n : ℕ) (s : State Keys Ct) : Prop where
  conserved : Conserved n s
  origins : Origins P s
  separate : Separate s

theorem orderly_reachable {ok : State Keys Ct → Action E Keys Ct → Prop}
    (hok : ∀ s l, ok s l → FreshId P s l) (h : (system P n).Reachable ok s) : Orderly P n s := by
  refine h.invariant ?_ fun s l s' hinv hl hstep => ?_
  · rintro s ⟨now, rfl⟩
    exact ⟨conserved_start now, origins_start now, separate_start now⟩
  · exact ⟨hinv.conserved.step hstep, hinv.origins.step hstep,
      hinv.separate.step hinv.conserved hinv.origins (hok s l hl) hstep⟩

/-- In a run in which no query is accepted with the id of a waiting client, the queries inside have
different ids, and every result handed out was computed from the client's own query. -/
theorem own_results (P : Config E Keys Ct) (threadNum : ℕ) (s : State Keys Ct)
    (h : (system P threadNum).Reachable (FreshId P) s) : NoMixUp P s := by
  obtain ⟨hc, ho, hs⟩ := orderly_reachable (fun _ _ hl => hl) h
  refine ⟨?_, fun d hd => ⟨hs.own d hd, ?_⟩⟩
  · have hnodup := (Multiset.nodup_add.1 (Multiset.nodup_of_le hc.inside_le (issued_nodup s))).1
    refine hnodup.map_on fun a ha b hb hab => ?_
    exact hs.distinct a (inside_waiting hc ho hs ha) b (inside_waiting hc ho hs hb) hab
  · obtain ⟨⟨query, hrec, hexec⟩, _⟩ := ho.delivered d hd
    rw [hs.own d hd] at hrec
    exact ⟨query, hrec, hexec⟩

section Sample

/-- One computation returns the ciphertexts it was given. -/
def echoConfig (fileExist : Unit → String → Bool) : Config Unit Unit ℕ where
  rand seed := seed
  fileExist := fileExist
  predict _ _ _ ctxts _ _ := .ok ctxts
  maxSize := 2 ^ 56
  plaintextExperimentPath := "../../../plaintext_experiment/"
  maxConcurrentQueries := 128
  maxResults := 128
  resultLifetimeSec := 50000

def echoQuery (model : String) (ctxts : List ℕ) : Query Unit ℕ where
  keyId := 0
  params := ⟨28, 28, 1, 10, "mnist", model, 0, 0⟩
  ctxts := ctxts
  encKeys := ()

/-- What every client has received: client, ticket of the query behind the result, ciphertexts. -/
def received (s : State Unit ℕ) : List (ℕ × ℕ × List ℕ) :=
  s.deliveries.map fun d => (d.client, d.result.ticket, d.result.val.ctxts)

def allFiles : Config Unit Unit ℕ := echoConfig fun _ _ => true

/-- A second between the two queries. -/
def secondApart : List (Action Unit Unit ℕ) :=
  [.pushQuery (echoQuery "HCNN" [7]), .popQuery 0, .tick clockTicks,
    .pushQuery (echoQuery "HCNN" [8]), .popQuery 1, .execQuery 1 (), .execQuery 0 (),
    .pushResult 0, .pushResult 1, .popResult 1, .popResult 0]

/-- Both queries in one second; a thread has the first when the second is accepted. -/
def sameSecond : List (Action Unit Unit ℕ) :=
  [.pushQuery (echoQuery "HCNN" [7]), .popQuery 0, .pushQuery (echoQuery "HCNN" [8]),
    .execQuery 0 (), .pushResult 0, .popResult 1]

theorem own_results_sample : ∃ s, received s = [(0, 0, [7]), (1, 1, [8])] ∧ NoMixUp allFiles s := by
  have hrun : ((system allFiles 2).run (FreshId allFiles) (State.start 0 2) secondApart).map
      received = some [(0, 0, [7]), (1, 1, [8])] := by
    decide +kernel
  obtain ⟨s, hs, hreceived⟩ := Option.map_eq_some_iff.1 hrun
  have hinit : (system allFiles 2).Reachable (FreshId allFiles) (State.start 0 2) := .init ⟨0, rfl⟩
  exact ⟨s, hreceived, own_results allFiles 2 s (hinit.run hs)⟩

/-- The second client receives the result of the first query. -/
theorem own_results_differs : ∃ s,
    (system allFiles 1).run System.anyStep (State.start 0 1) sameSecond = some s ∧
    received s = [(1, 0, [7])] ∧ ¬ NoMixUp allFiles s := by
  have hrun : ((system allFiles 1).run System.anyStep (State.start 0 1) sameSecond).map
      received = some [(1, 0, [7])] := by
    decide +kernel
  obtain ⟨s, hs, hreceived⟩ := Option.map_eq_some_iff.1 hrun
  refine ⟨s, hs, hreceived, fun h => ?_⟩
  have hmem : (1, 0, [7]) ∈ received s := by
    rw [hreceived]
    exact List.mem_singleton_self _
  obtain ⟨d, hd, hval⟩ := List.mem_map.1 hmem
  simp only [Prod.mk.injEq] at hval
  have hown := (h.own_result d hd).1
  omega

end Sample

end Server
