import PPCNN.Cnn.BuildLoop
import PPCNN.Cnn.Compute
import PPCNN.Server.Loss

/-!
# Calculation threads that build at the same time

The computation of a query is not one step: the threads share the file-scope variables of `load_model.cpp`,
and between two calls of `buildLayer` in one thread there are calls in the others. Here the steps of a
computation are its passes through the loop of `BuildNetwork`.

`building_refines`: if each call finds, in the variables it reads, what its own thread has left there, this
server does what the server does whose computations are single steps, each in a process of its own.
-/

set_option autoImplicit false

namespace Server

open Lib Share Cnn Cnn.Proof

variable {E K Pt Ct Keys : Type}

/-! ## What the threads compute with -/

/-- The settings of a server, and the libraries its calculation threads call. -/
structure Service (E K Pt Ct Keys : Type) where
  rand : ℕ → ℕ
  /-- the files that a computation finds -/
  files : E → String → Option (List UInt8)
  /-- a decimal as a `double`, if it is none too large -/
  round : ℚ → Option ℚ
  /-- what the HDF5 library reads in a file -/
  hdf5 : List UInt8 → H5File K
  /-- SEAL with the keys of a query -/
  ev : Keys → Evaluator K Pt Ct
  arith : IntArith
  define : Define K
  /-- the text of an exception -/
  what : Error → String
  /-- the most ciphertexts that a `std::vector` can have -/
  maxSize : ℕ
  plaintextExperimentPath : String
  maxConcurrentQueries : ℕ
  maxResults : ℕ
  resultLifetimeSec : ℕ

/-- The value of `EOptLevel`; the constructor of `OptOption` takes any other as `NO_OPT`. -/
def optLevelOf (optLevel : ℤ) : EOptLevel :=
  if optLevel = 1 then .fuseLayers
  else if optLevel = 2 then .optActivation
  else if optLevel = 3 then .optPooling
  else if optLevel = 4 then .allOpt
  else .noOpt

/-- The value of `EActivation`; any other is none of those that the code asks for. -/
def activationOf (activation : ℤ) : EActivation :=
  if activation = 1 then .square
  else if activation = 2 then .swishRg4Deg4
  else if activation = 3 then .swishRg6Deg4
  else if activation = 4 then .mishRg4Deg4
  else if activation = 5 then .mishRg6Deg4
  else .default

namespace Service

variable [Field K] [LinearOrder K] (S : Service E K Pt Ct Keys)

def env (keys : Keys) : Env K Pt Ct := ⟨S.ev keys, S.arith, S.define⟩

/-- The weight file as the calls of `buildLayer` open it. -/
def weights (e : E) (path : String) : H5File K := S.hdf5 ((S.files e path).getD [])

/-- The option object of a query. -/
def option (params : ComputationParams) : OptOption K :=
  computeOption S.define (optLevelOf params.optLevel) (activationOf params.activation) params.model

/-- What `compute` does with the network. -/
def predictOn (params : ComputationParams) (keys : Keys) (ctxts : List Ct) (network : List (Layer Pt))
    (option : OptOption K) : Except Error (List Ct) := do
  let storage ← copyCtxts S.arith params.imgHeight params.imgWidth params.imgChannels ctxts
  let results ← Cnn.predict (S.ev keys).lift S.arith option network
    (inputTensor params.imgHeight params.imgWidth params.imgChannels storage)
  results.mapM id

/-- `BuildNetwork` and `predict` in a process that does nothing else. -/
def predict (e : E) (params : ComputationParams) (keys : Keys) (ctxts : List Ct)
    (structurePath weightsPath : String) : Except Error (List Ct) := do
  let (network, st) ← buildNetworkFile S.round (S.files e) (S.env keys) (S.weights e weightsPath)
    structurePath .fresh (S.option params)
  S.predictOn params keys ctxts network st.option

/-- The server whose computations are single steps. -/
def config : Config E Keys Ct where
  rand := S.rand
  fileExist e path := (S.files e path).isSome
  predict e params keys ctxts structurePath weightsPath :=
    (S.predict e params keys ctxts structurePath weightsPath).mapError S.what
  maxSize := S.maxSize
  plaintextExperimentPath := S.plaintextExperimentPath
  maxConcurrentQueries := S.maxConcurrentQueries
  maxResults := S.maxResults
  resultLifetimeSec := S.resultLifetimeSec

/-- What a thread does with a query before the loop of `BuildNetwork`. -/
def begin (e : E) (query : Query Keys Ct) : Except Error (Building K Pt) := do
  if !(S.files e (S.config.structurePath query.params)).isSome then
    throw (.runtimeError ("File not fount. (" ++ S.config.structurePath query.params ++ ")"))
  if !(S.files e (S.config.weightsPath query.params)).isSome then
    throw (.runtimeError ("File not fount. (" ++ S.config.weightsPath query.params ++ ")"))
  if S.maxSize < query.params.labels then throw .lengthError
  startBuilding S.round (S.files e) (S.config.structurePath query.params) (S.option query.params)

/-- A pass of the thread through the loop. -/
def pass (e : E) (query : Query Keys Ct) (b : Building K Pt) (next : NextLayer) :
    Except Error (Building K Pt × NextLayer) :=
  b.step (S.env query.encKeys) (S.weights e (S.config.weightsPath query.params)) next

end Service

/-! ## The system -/

/-- The server, the file-scope variables, and the threads that are in the loop with the files they found. -/
structure BuildingServer (E K Pt Ct Keys : Type) where
  server : State Keys Ct
  next : NextLayer
  building : ℕ → Option (E × Building K Pt)

inductive BuildingAction (E Keys Ct : Type) where
  | other (a : Action E Keys Ct)
  | begin (th : ℕ) (e : E)
  | pass (th : ℕ)
  | finish (th : ℕ)

namespace BuildingServer

section

variable (s : BuildingServer E K Pt Ct Keys) (th : ℕ)

/-- The thread has its result. -/
def complete (queryId : ℤ) (result : Ticketed (Result Ct)) : BuildingServer E K Pt Ct Keys :=
  { s with
    server := { s.server with threads := s.server.threads.set th (.computed queryId result) }
    building := Function.update s.building th none }

/-- An exception ends the thread. -/
def stop (queryId : ℤ) (ticket : ℕ) : BuildingServer E K Pt Ct Keys :=
  { s with
    server := { s.server with
      threads := s.server.threads.set th .ended, lost := (queryId, ticket) :: s.server.lost }
    building := Function.update s.building th none }

end

variable [Field K] [LinearOrder K] (S : Service E K Pt Ct Keys) (s : BuildingServer E K Pt Ct Keys)

/-- The thread begins to compute its query. -/
def begin (th : ℕ) (e : E) : Option (BuildingServer E K Pt Ct Keys) :=
  match s.server.threads[th]?, s.building th with
  | some (.computing queryId query), none =>
    match S.begin e query.val with
    | .ok b => some { s with building := Function.update s.building th (some (e, b)) }
    | .error _ => some (s.stop th queryId query.ticket)
  | _, _ => none

/-- The thread makes its next call of `buildLayer`. -/
def pass (th : ℕ) : Option (BuildingServer E K Pt Ct Keys) :=
  match s.server.threads[th]?, s.building th with
  | some (.computing queryId query), some (e, b) =>
    if b.values.isEmpty then none
    else
      match S.pass e query.val b s.next with
      | .ok (b, next) =>
        some { s with next, building := Function.update s.building th (some (e, b)) }
      | .error _ => some (s.stop th queryId query.ticket)
  | _, _ => none

/-- The thread predicts with its network. -/
def finish (th : ℕ) : Option (BuildingServer E K Pt Ct Keys) :=
  match s.server.threads[th]?, s.building th with
  | some (.computing queryId query), some (_, b) =>
    if b.values.isEmpty then
      match S.predictOn query.val.params query.val.encKeys query.val.ctxts b.layers b.option with
      | .ok ctxts => some (s.complete th queryId
          ⟨query.ticket, ⟨query.val.keyId, queryId, true, ctxts, s.server.now⟩⟩)
      | .error _ => some (s.stop th queryId query.ticket)
    else none
  | _, _ => none

def step : BuildingAction E Keys Ct → Option (BuildingServer E K Pt Ct Keys)
  | .other (.execQuery _ _) => none
  | .other a => (s.server.step S.config a).map fun server => { s with server }
  | .begin th e => s.begin S th e
  | .pass th => s.pass S th
  | .finish th => s.finish S th

/-- The next call of the thread finds what its own calls have left. -/
def ReadsOwn : BuildingAction E Keys Ct → Prop
  | .pass th => ∀ x ∈ s.building th, ∀ call ∈ x.2.upcoming S.arith, Agrees x.2.own s.next call
  | _ => True

end BuildingServer

/-- The file-scope variables start with any values. -/
def buildingSystem [Field K] [LinearOrder K] (S : Service E K Pt Ct Keys) (threadNum : ℕ) :
    System (BuildingServer E K Pt Ct Keys) (BuildingAction E Keys Ct) where
  init s := (∃ now, s.server = State.start now threadNum) ∧ ∀ th, s.building th = none
  step := BuildingServer.step S

variable [Field K] [LinearOrder K] {S : Service E K Pt Ct Keys} {s s' : BuildingServer E K Pt Ct Keys} {th : ℕ}

/-! ## A computation of one step -/

namespace Service

/-- The network of a query in a process of its own. -/
def built (S : Service E K Pt Ct Keys) (e : E) (query : Query Keys Ct) :
    Except Error (List (Layer Pt) × BuildState K) :=
  buildNetworkFile S.round (S.files e) (S.env query.encKeys) (S.weights e (S.config.weightsPath query.params))
    (S.config.structurePath query.params) .fresh (S.option query.params)

/-- A thread finds both files of a query, and can make the vector for its labels. -/
structure Starts (S : Service E K Pt Ct Keys) (e : E) (query : Query Keys Ct) : Prop where
  structureFile : (S.files e (S.config.structurePath query.params)).isSome
  weightsFile : (S.files e (S.config.weightsPath query.params)).isSome
  labels : query.params.labels ≤ S.maxSize

/-- The thread has started, and is on the way to the network of its query. -/
structure OnTheWay (S : Service E K Pt Ct Keys) (e : E) (query : Query Keys Ct) (b : Building K Pt) : Prop where
  starts : S.Starts e query
  leadsTo : b.LeadsTo (S.env query.encKeys) (S.weights e (S.config.weightsPath query.params)) (S.built e query)

variable {e : E} {now : ℕ} {queryId : ℤ} {query : Query Keys Ct} {b b' : Building K Pt} {next next' : NextLayer}

/-- A computation that starts is building the network and predicting on it. -/
theorem exec_eq (hstarts : S.Starts e query) :
    S.config.exec e now queryId query = (do
      let ctxts ← ((do
        let (network, st) ← S.built e query
        S.predictOn query.params query.encKeys query.ctxts network st.option).mapError S.what)
      return ⟨query.keyId, queryId, true, ctxts, now⟩) := by
  have hs : S.config.fileExist e (S.config.structurePath query.params) = true := hstarts.structureFile
  have hw : S.config.fileExist e (S.config.weightsPath query.params) = true := hstarts.weightsFile
  have hl : ¬S.config.maxSize < query.params.labels := Nat.not_lt.2 hstarts.labels
  simp only [Config.exec, hs, hw, hl, Bool.not_true, Bool.false_eq_true, if_false, Config.compute, bind_assoc,
    pure_eq_ok, ok_bind]
  rfl

/-- A computation that succeeds has started. -/
theorem starts_of_exec {result : Result Ct} (h : S.config.exec e now queryId query = .ok result) :
    S.Starts e query := by
  obtain ⟨hs, hw, hl, -⟩ := (exec_succeeds_iff e now queryId query).1 ⟨result, h⟩
  exact ⟨hs, hw, hl⟩

theorem exec_of_not_starts (h : ¬S.Starts e query) :
    ∃ err, S.config.exec e now queryId query = .error err := by
  cases hexec : S.config.exec e now queryId query with
  | error err => exact ⟨err, rfl⟩
  | ok result => exact absurd (starts_of_exec hexec) h

theorem exec_of_built_error (hstarts : S.Starts e query) {err : Error}
    (h : S.built e query = .error err) : ∃ err, S.config.exec e now queryId query = .error err := by
  rw [exec_eq hstarts, h]
  exact ⟨S.what err, rfl⟩

theorem begin_eq (hstarts : S.Starts e query) : S.begin e query =
    startBuilding S.round (S.files e) (S.config.structurePath query.params) (S.option query.params) := by
  simp only [begin, hstarts.structureFile, hstarts.weightsFile, Nat.not_lt.2 hstarts.labels, Bool.not_true,
    Bool.false_eq_true, if_false]

theorem starts_of_begin (h : S.begin e query = .ok b) : S.Starts e query := by
  cases hs : (S.files e (S.config.structurePath query.params)).isSome with
  | false => simp [begin, hs] at h
  | true =>
    cases hw : (S.files e (S.config.weightsPath query.params)).isSome with
    | false => simp [begin, hs, hw] at h
    | true =>
      by_cases hl : S.maxSize < query.params.labels
      · simp [begin, hs, hw, hl] at h
      · exact ⟨hs, hw, Nat.not_lt.1 hl⟩

/-- It is on its way, or ends as it does when the computation is one step. -/
theorem begin_cases (S : Service E K Pt Ct Keys) (e : E) (query : Query Keys Ct) (now : ℕ) (queryId : ℤ) :
    (∀ err, S.begin e query = .error err → ∃ err, S.config.exec e now queryId query = .error err) ∧
    ∀ b, S.begin e query = .ok b → S.OnTheWay e query b := by
  refine ⟨fun err h => ?_, fun b h => ?_⟩
  · by_cases hstarts : S.Starts e query
    · rw [begin_eq hstarts] at h
      exact exec_of_built_error hstarts (startBuilding_leadsTo.1 err h)
    · exact exec_of_not_starts hstarts
  · have hstarts := starts_of_begin h
    rw [begin_eq hstarts] at h
    exact ⟨hstarts, startBuilding_leadsTo.2 b h⟩

/-- A pass through the loop keeps the thread on its way, or ends it as if the computation were one step. -/
theorem pass_cases (now : ℕ) (queryId : ℤ) (h : S.OnTheWay e query b)
    (hread : ∀ call ∈ b.upcoming S.arith, Agrees b.own next call) :
    (∀ err, S.pass e query b next = .error err → ∃ err, S.config.exec e now queryId query = .error err) ∧
    ∀ b' next', S.pass e query b next = .ok (b', next') → S.OnTheWay e query b' := by
  obtain ⟨herr, hok⟩ := h.leadsTo.step hread
  exact ⟨fun err he => exec_of_built_error h.starts (herr err he),
    fun b' next' hb => ⟨h.starts, hok b' next' hb⟩⟩

/-- At the end of the loop, the thread has the network of a computation of one step. -/
theorem finish_cases (now : ℕ) (queryId : ℤ) (h : S.OnTheWay e query b) (hdone : b.values.isEmpty) :
    (∀ err, S.predictOn query.params query.encKeys query.ctxts b.layers b.option = .error err →
      ∃ err, S.config.exec e now queryId query = .error err) ∧
    ∀ ctxts, S.predictOn query.params query.encKeys query.ctxts b.layers b.option = .ok ctxts →
      S.config.exec e now queryId query = .ok ⟨query.keyId, queryId, true, ctxts, now⟩ := by
  have hbuilt : S.built e query = .ok (b.layers, ⟨b.own, b.option⟩) :=
    h.leadsTo.done (List.isEmpty_iff.1 hdone)
  rw [exec_eq h.starts, hbuilt]
  simp only [ok_bind]
  refine ⟨fun err he => ⟨S.what err, ?_⟩, fun ctxts hc => ?_⟩
  · rw [he]
    rfl
  · rw [hc]
    rfl

end Service

/-! ## The refinement -/

/-- Every thread in the loop computes a query, and is on the way to its network. -/
def BuildingServer.Consistent (S : Service E K Pt Ct Keys) (s : BuildingServer E K Pt Ct Keys) : Prop :=
  ∀ th x, s.building th = some x → ∃ queryId query,
    s.server.threads[th]? = some (.computing queryId query) ∧ S.OnTheWay x.1 query.val x.2

/-- A thread that computes goes on computing while the others take their steps. -/
theorem step_computing {P : Config E Keys Ct} {t t' : State Keys Ct} {a : Action E Keys Ct} {queryId : ℤ}
    {query : Ticketed (Query Keys Ct)} (hexec : ∀ th e, a ≠ .execQuery th e)
    (hth : t.threads[th]? = some (.computing queryId query)) (h : t.step P a = some t') :
    t'.threads[th]? = some (.computing queryId query) := by
  -- the thread that takes the step is in another state
  have hset : ∀ {th' : ℕ} {x y : CalcThread Keys Ct}, t.threads[th']? = some x →
      x ≠ .computing queryId query → (t.threads.set th' y)[th]? = some (.computing queryId query) := by
    intro th' x y hx hne
    have hdiff : th' ≠ th := by
      rintro rfl
      exact hne (Option.some.inj (hx.symm.trans hth))
    rw [List.getElem?_set_ne hdiff]
    exact hth
  cases a with
  | tick d =>
    cases h
    exact hth
  | pushQuery query' =>
    cases h
    rcases pushQuery_cases P t query' with hp | ⟨qque, _, _, _, hp⟩
    · rw [hp]
      exact hth
    · rw [hp]
      exact hth
  | popQuery th' =>
    obtain ⟨id, q, qque, hwaiting, -, rfl⟩ := popQuery_cases h
    exact hset hwaiting nofun
  | execQuery th' e => exact absurd rfl (hexec th' e)
  | pushResult th' =>
    obtain ⟨id, result, hcomputed, ⟨rque, -, rfl⟩ | ⟨err, -, rfl⟩⟩ := pushResult_cases h
    · exact hset hcomputed nofun
    · exact hset hcomputed nofun
  | popResult client =>
    obtain ⟨id, q, result, rque, -, -, -, rfl⟩ := popResult_cases h
    exact hth
  | cleanupResults =>
    cases h
    refine cleanupResults_keeps (I := fun t => t.threads[th]? = some (.computing queryId query))
      (fun t id ht => ?_) hth
    rcases expire_cases t id with hid | ⟨result, rque, -, hid⟩
    · rw [hid]
      exact ht
    · rw [hid]
      exact ht

namespace BuildingServer

theorem Consistent.enter (h : s.Consistent S) {e : E} {b : Building K Pt} {queryId : ℤ}
    {query : Ticketed (Query Keys Ct)} (hth : s.server.threads[th]? = some (.computing queryId query))
    (hway : S.OnTheWay e query.val b) (next : NextLayer) :
    Consistent S ⟨s.server, next, Function.update s.building th (some (e, b))⟩ := by
  intro th' x hx
  by_cases hdiff : th' = th
  · subst hdiff
    obtain rfl : (e, b) = x := by simpa using hx
    exact ⟨queryId, query, hth, hway⟩
  · exact h th' x (by simpa [hdiff] using hx)

theorem Consistent.leave (h : s.Consistent S) {t : State Keys Ct} {thread : CalcThread Keys Ct}
    (ht : t.threads = s.server.threads.set th thread) :
    Consistent S ⟨t, s.next, Function.update s.building th none⟩ := by
  intro th' x hx
  by_cases hdiff : th' = th
  · subst hdiff
    simp at hx
  · obtain ⟨queryId, query, hth, hway⟩ := h th' x (by simpa [hdiff] using hx)
    refine ⟨queryId, query, ?_, hway⟩
    show t.threads[th']? = _
    rw [ht, List.getElem?_set_ne (Ne.symm hdiff)]
    exact hth

/-- A thread that stops where a computation of one step would fail. -/
theorem stop_step {e : E} {queryId : ℤ} {query : Ticketed (Query Keys Ct)}
    (hth : s.server.threads[th]? = some (.computing queryId query))
    (hexec : ∃ err, S.config.exec e s.server.now queryId query.val = .error err) :
    s.server.step S.config (.execQuery th e) = some (s.stop th queryId query.ticket).server := by
  obtain ⟨err, hexec⟩ := hexec
  simp only [State.step, State.execQuery, hth, hexec]
  rfl

theorem complete_step {e : E} {queryId : ℤ} {query : Ticketed (Query Keys Ct)} {result : Result Ct}
    (hth : s.server.threads[th]? = some (.computing queryId query))
    (hexec : S.config.exec e s.server.now queryId query.val = .ok result) :
    s.server.step S.config (.execQuery th e) =
      some (s.complete th queryId ⟨query.ticket, result⟩).server := by
  simp only [State.step, State.execQuery, hth, hexec]
  rfl

/-- What a step is for the server whose computations are single steps: no step, a step of the same kind, or
the computation of a query. -/
inductive Mirrored (S : Service E K Pt Ct Keys) (s s' : BuildingServer E K Pt Ct Keys) :
    BuildingAction E Keys Ct → Prop where
  | silent {a} : s'.server = s.server → Mirrored S s s' a
  | other {a} : s.server.step S.config a = some s'.server → Mirrored S s s' (.other a)
  | computes {a} (th : ℕ) (e : E) : s.server.step S.config (.execQuery th e) = some s'.server →
    Mirrored S s s' a

theorem begin_mirrored (h : s.Consistent S) {e : E} (hstep : s.begin S th e = some s') :
    s'.Consistent S ∧ Mirrored S s s' (.begin th e) := by
  unfold begin at hstep
  split at hstep
  · rename_i queryId query hth hnone
    obtain ⟨herr, hok⟩ := Service.begin_cases S e query.val s.server.now queryId
    split at hstep
    · rename_i b hb
      cases hstep
      exact ⟨h.enter hth (hok b hb) s.next, .silent rfl⟩
    · rename_i err he
      cases hstep
      exact ⟨h.leave rfl, .computes th e (stop_step hth (herr err he))⟩
  · cases hstep

theorem pass_mirrored (h : s.Consistent S) (hread : s.ReadsOwn S (.pass th))
    (hstep : s.pass S th = some s') : s'.Consistent S ∧ Mirrored S s s' (.pass th) := by
  unfold pass at hstep
  split at hstep
  · rename_i queryId query e b hth hsome
    obtain ⟨queryId', query', hth', hway⟩ := h th _ hsome
    cases hth.symm.trans hth'
    obtain ⟨herr, hok⟩ := Service.pass_cases s.server.now queryId hway (hread _ hsome)
    split at hstep
    · cases hstep
    · split at hstep
      · rename_i b' next hb
        cases hstep
        exact ⟨h.enter hth (hok b' next hb) next, .silent rfl⟩
      · rename_i err he
        cases hstep
        exact ⟨h.leave rfl, .computes th e (stop_step hth (herr err he))⟩
  · cases hstep

theorem finish_mirrored (h : s.Consistent S) (hstep : s.finish S th = some s') :
    s'.Consistent S ∧ Mirrored S s s' (.finish th) := by
  unfold finish at hstep
  split at hstep
  · rename_i queryId query e b hth hsome
    obtain ⟨queryId', query', hth', hway⟩ := h th _ hsome
    cases hth.symm.trans hth'
    split at hstep
    · rename_i hdone
      obtain ⟨herr, hok⟩ := Service.finish_cases s.server.now queryId hway hdone
      split at hstep
      · rename_i ctxts hc
        cases hstep
        exact ⟨h.leave rfl, .computes th e (complete_step hth (hok ctxts hc))⟩
      · rename_i err he
        cases hstep
        exact ⟨h.leave rfl, .computes th e (stop_step hth (herr err he))⟩
    · cases hstep
  · cases hstep

/-- One case for each kind of step. -/
theorem step_mirrored (h : s.Consistent S) {a : BuildingAction E Keys Ct} (hread : s.ReadsOwn S a)
    (hstep : s.step S a = some s') : s'.Consistent S ∧ Mirrored S s s' a := by
  cases a with
  | other a =>
    have hmap : (s.server.step S.config a).map (fun server => { s with server }) = some s' ∧
        ∀ th e, a ≠ .execQuery th e := by
      cases a with
      | execQuery th e => cases hstep
      | _ => exact ⟨hstep, nofun⟩
    obtain ⟨⟨t, ht, rfl⟩, hexec⟩ := And.imp_left Option.map_eq_some_iff.1 hmap
    refine ⟨fun th x hx => ?_, .other ht⟩
    obtain ⟨queryId, query, hth, hway⟩ := h th x hx
    exact ⟨queryId, query, step_computing hexec hth ht, hway⟩
  | begin th e => exact begin_mirrored h hstep
  | pass th => exact pass_mirrored h hread hstep
  | finish th => exact finish_mirrored h hstep

end BuildingServer

/-- Each call reads what its own thread has left, and the steps that are no part of a computation meet `ok`. -/
def Undisturbed (S : Service E K Pt Ct Keys) (ok : State Keys Ct → Action E Keys Ct → Prop)
    (s : BuildingServer E K Pt Ct Keys) (a : BuildingAction E Keys Ct) : Prop :=
  s.ReadsOwn S a ∧ ∀ a', a = .other a' → ok s.server a'

instance {ok : State Keys Ct → Action E Keys Ct → Prop} [∀ t a, Decidable (ok t a)]
    (s : BuildingServer E K Pt Ct Keys) (a : BuildingAction E Keys Ct) : Decidable (Undisturbed S ok s a) :=
  match a with
  | .other a =>
    decidable_of_iff (ok s.server a)
      ⟨fun h => ⟨trivial, fun _ ha => BuildingAction.other.inj ha ▸ h⟩, fun h => h.2 a rfl⟩
  | .begin _ _ | .finish _ => isTrue ⟨trivial, nofun⟩
  | .pass th =>
    decidable_of_iff (∀ x ∈ s.building th, ∀ call ∈ x.2.upcoming S.arith, Agrees x.2.own s.next call)
      ⟨fun h => ⟨h, nofun⟩, fun h => h.1⟩

/-- In the runs in which each call of `buildLayer` reads what its own thread has left, the server does what
the server does whose computations are single steps. -/
theorem building_simulates {ok : State Keys Ct → Action E Keys Ct → Prop}
    (hexec : ∀ t th e, ok t (.execQuery th e)) (threadNum : ℕ) :
    System.Simulates (buildingSystem S threadNum) (system S.config threadNum) (Undisturbed S ok) ok
      (BuildingServer.Consistent S) BuildingServer.server where
  init s hs := by
    obtain ⟨hstart, hnone⟩ := hs
    refine ⟨fun th x hx => ?_, hstart⟩
    rw [hnone th] at hx
    cases hx
  step s a s' hinv hl hstep := by
    obtain ⟨hinv', hsame | hother | ⟨th, e, hcomputes⟩⟩ := BuildingServer.step_mirrored hinv hl.1 hstep
    · exact ⟨hinv', .inl hsame⟩
    · exact ⟨hinv', .inr ⟨_, hl.2 _ rfl, hother⟩⟩
    · exact ⟨hinv', .inr ⟨_, hexec s.server th e, hcomputes⟩⟩

/-- In these runs every thread in the loop of `BuildNetwork` is on the way to the network that it gets alone,
and what the clients and the queues have seen is what they see of the server whose computations are single
steps. -/
theorem building_refines (S : Service E K Pt Ct Keys) (ok : State Keys Ct → Action E Keys Ct → Prop)
    (hexec : ∀ t th e, ok t (.execQuery th e)) (threadNum : ℕ) (s : BuildingServer E K Pt Ct Keys)
    (h : (buildingSystem S threadNum).Reachable (Undisturbed S ok) s) :
    s.Consistent S ∧ (system S.config threadNum).Reachable ok s.server :=
  (building_simulates hexec threadNum).reachable h

section Sample

/-- All files have the text of a `Flatten` layer. -/
def flattenService : Service Unit ℚ ℚ ℚ Unit where
  rand seed := seed
  files _ _ := some sampleText
  round := some
  hdf5 _ _ := none
  ev _ := .exact ℚ
  arith := .lp64
  define := unroundedDefine
  what _ := "exception"
  maxSize := 2 ^ 56
  plaintextExperimentPath := "../../../plaintext_experiment/"
  maxConcurrentQueries := 128
  maxResults := 128
  resultLifetimeSec := 50000

def flattenQuery : Query Unit ℚ where
  keyId := 0
  params := ⟨1, 2, 1, 2, "mnist", "HCNN", 0, 0⟩
  ctxts := [1, 2]
  encKeys := ()

/-- Each thread is in the loop while the other is. -/
def bothBuild : List (BuildingAction Unit Unit ℚ) :=
  [.other (.pushQuery flattenQuery), .other (.popQuery 0), .other (.tick clockTicks),
    .other (.pushQuery flattenQuery), .other (.popQuery 1), .begin 0 (), .begin 1 (), .pass 1, .pass 0,
    .finish 0, .finish 1, .other (.pushResult 1), .other (.pushResult 0), .other (.popResult 0),
    .other (.popResult 1)]

theorem building_refines_sample : ∃ s : BuildingServer Unit ℚ ℚ ℚ Unit,
    s.server.deliveries.map Delivery.client = [1, 0] ∧ s.Consistent flattenService ∧
    (system flattenService.config 2).Reachable (FreshId flattenService.config) s.server := by
  have hrun : ((buildingSystem flattenService 2).run
      (Undisturbed flattenService (FreshId flattenService.config)) ⟨State.start 0 2, .fresh, fun _ => none⟩
      bothBuild).map (fun s => s.server.deliveries.map Delivery.client) = some [1, 0] := by
    decide +kernel
  obtain ⟨s, hs, hdelivered⟩ := Option.map_eq_some_iff.1 hrun
  have hinit : (buildingSystem flattenService 2).Reachable
      (Undisturbed flattenService (FreshId flattenService.config)) ⟨State.start 0 2, .fresh, fun _ => none⟩ :=
    .init ⟨⟨0, rfl⟩, fun _ => rfl⟩
  exact ⟨s, hdelivered, building_refines flattenService (FreshId flattenService.config)
    (fun _ _ _ => trivial) 2 s (hinit.run hs)⟩

end Sample

end Server
