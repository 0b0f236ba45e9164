import PPCNN.Server.Delivery

/-!
# The keys of the clients (`ppcnn_server_keycontainer.cpp`, `ppcnn_server_callback_function.cpp`)

Keys are registered under an id that the client chooses. A query keeps a pointer to the entry of its id,
and the handler of its result looks the id up again. The map keeps the first keys under an id:
`register_keys` does nothing for an id that is there, and says nothing. `keys_respected`: every use of
keys is of those that the query's client registered, in the runs that register no other keys under an
id that is there.
-/

set_option autoImplicit false

namespace Server

open Lib Share

/-- `EncryptionKeys`. -/
structure EncryptionKeys (Params PublicKey RelinKeys : Type) where
  params : Params
  pubkey : PublicKey
  relinkey : RelinKeys
  deriving DecidableEq

/-! ## KeyContainer -/

abbrev KeyContainer (Keys : Type) := OrdMap ℤ Keys

namespace KeyContainer

variable {Keys : Type} (container : KeyContainer Keys)

/-- `KeyContainer::register_keys`. -/
def registerKeys (keyId : ℤ) (keys : Keys) : KeyContainer Keys := container.emplace keyId keys

/-- `KeyContainer::get_keys`. -/
def getKeys (keyId : ℤ) : Except String Keys :=
  match container.find? keyId with
  | some keys => .ok keys
  | none => .error ("Value not found. (key_id: " ++ toString keyId ++ ")")

end KeyContainer

/-! ## The system -/

variable {E Params PublicKey RelinKeys Raw Ct : Type}

/-- The configuration of the server, and how it loads the ciphertexts of a message with a context of
the encryption parameters. -/
structure KeyConfig (E Params PublicKey RelinKeys Raw Ct : Type) extends
    Config E (EncryptionKeys Params PublicKey RelinKeys) Ct where
  load : Params → Raw → Except String (List Ct)

/-- The server with queries that hold `enc_keys_p_`, a pointer to the entry of a key id. What a
computation finds includes the entries. -/
def KeyConfig.pointers (P : KeyConfig E Params PublicKey RelinKeys Raw Ct) :
    Config (E × KeyContainer (EncryptionKeys Params PublicKey RelinKeys)) ℤ Ct where
  rand := P.rand
  fileExist e := P.fileExist e.1
  predict e params pointer ctxts structurePath weightsPath :=
    match e.2.find? pointer with
    | some keys => P.predict e.1 params keys ctxts structurePath weightsPath
    | none => .error "no entry"
  maxSize := P.maxSize
  plaintextExperimentPath := P.plaintextExperimentPath
  maxConcurrentQueries := P.maxConcurrentQueries
  maxResults := P.maxResults
  resultLifetimeSec := P.resultLifetimeSec

/-- A registration: the client, the key id and the keys of its message. -/
structure Registration (Keys : Type) where
  client : ℕ
  keyId : ℤ
  keys : Keys

/-- What the keys of an accepted query are used for: to parse its inputs, to compute it, and to
serialise its result. -/
inductive Use (Params PublicKey RelinKeys : Type) where
  | parse (params : Params)
  | compute (keys : EncryptionKeys Params PublicKey RelinKeys)
  | serialise (params : Params)
  deriving DecidableEq

/-- The use is of the given keys. -/
def Use.Under (keys : EncryptionKeys Params PublicKey RelinKeys) : Use Params PublicKey RelinKeys → Prop
  | .parse params => params = keys.params
  | .compute keys' => keys' = keys
  | .serialise params => params = keys.params

structure KeyServer (Params PublicKey RelinKeys Ct : Type) where
  container : KeyContainer (EncryptionKeys Params PublicKey RelinKeys)
  server : State ℤ Ct
  -- the past: the registrations, the latest first; for each accepted query what its client had
  -- registered last under the key id; and the uses of keys, by the ticket of the query
  registrations : List (Registration (EncryptionKeys Params PublicKey RelinKeys))
  latest : List (Option (EncryptionKeys Params PublicKey RelinKeys))
  uses : List (ℕ × Use Params PublicKey RelinKeys)

/-- What a client has registered last under an id. -/
def lastRegistered {Keys : Type} (registrations : List (Registration Keys)) (client : ℕ) (keyId : ℤ) :
    Option Keys :=
  (registrations.find? fun r => r.client = client ∧ r.keyId = keyId).map Registration.keys

/-- What anybody has registered first under an id. -/
def firstRegistered {Keys : Type} (registrations : List (Registration Keys)) (keyId : ℤ) :
    Option Keys :=
  (registrations.reverse.find? fun r => r.keyId = keyId).map Registration.keys

inductive KeyAction (E Params PublicKey RelinKeys Raw : Type) where
  | registerEnckeys (client : ℕ) (keyId : ℤ) (keys : EncryptionKeys Params PublicKey RelinKeys)
  | sendQuery (client : ℕ) (keyId : ℤ) (params : ComputationParams) (encInputs : Raw)
  | resultRequest (queryId : ℤ)
  | tick (d : ℕ)
  | popQuery (th : ℕ)
  | execQuery (th : ℕ) (e : E)
  | pushResult (th : ℕ)

namespace KeyServer

variable (P : KeyConfig E Params PublicKey RelinKeys Raw Ct)
  (s : KeyServer Params PublicKey RelinKeys Ct)

/-- `CallbackFunctionEncryptionKeys`. -/
def registerEnckeys (client : ℕ) (keyId : ℤ) (keys : EncryptionKeys Params PublicKey RelinKeys) :
    KeyServer Params PublicKey RelinKeys Ct :=
  { s with
    container := s.container.registerKeys keyId keys
    registrations := ⟨client, keyId, keys⟩ :: s.registrations }

/-- `CallbackFunctionQuery`, with the id it answers. -/
def sendQuery (client : ℕ) (keyId : ℤ) (params : ComputationParams) (encInputs : Raw) :
    Except String (ℤ × KeyServer Params PublicKey RelinKeys Ct) := do
  let keys ← s.container.getKeys keyId
  let ctxts ← P.load keys.params encInputs
  let (queryId, server) := s.server.pushQuery P.pointers ⟨keyId, params, ctxts, keyId⟩
  if queryId = -1 then return (queryId, s)
  return (queryId, { s with
    server
    latest := s.latest ++ [lastRegistered s.registrations client keyId]
    uses := (s.server.accepted.length, .parse keys.params) :: s.uses })

/-- `CallbackFunctionResultRequest`. -/
def resultRequest (queryId : ℤ) : Option (KeyServer Params PublicKey RelinKeys Ct) :=
  (s.server.rque.popKey queryId).map fun (result, rque) =>
    let s := { s with server := { s.server with rque } }
    match s.container.getKeys result.val.keyId with
    | .ok keys => { s with uses := (result.ticket, .serialise keys.params) :: s.uses }
    | .error _ => s

/-- The computation of a thread, with the keys behind the pointer of its query. -/
def execQuery (th : ℕ) (e : E) : Option (KeyServer Params PublicKey RelinKeys Ct) :=
  match s.server.threads[th]? with
  | some (.computing _ query) =>
    (s.server.execQuery P.pointers th (e, s.container)).map fun server =>
      match s.container.find? query.val.encKeys with
      | some keys => { s with server, uses := (query.ticket, .compute keys) :: s.uses }
      | none => { s with server }
  | _ => none

/-- A handler that throws leaves the state as it was. -/
def step : KeyAction E Params PublicKey RelinKeys Raw → Option (KeyServer Params PublicKey RelinKeys Ct)
  | .registerEnckeys client keyId keys => some (s.registerEnckeys client keyId keys)
  | .sendQuery client keyId params encInputs =>
    match s.sendQuery P client keyId params encInputs with
    | .ok (_, s') => some s'
    | .error _ => some s
  | .resultRequest queryId => s.resultRequest queryId
  | .tick d => some { s with server := { s.server with now := s.server.now + d } }
  | .popQuery th => (s.server.popQuery th).map fun server => { s with server }
  | .execQuery th e => s.execQuery P th e
  | .pushResult th => (s.server.pushResult th).map fun server => { s with server }

end KeyServer

def keySystem (P : KeyConfig E Params PublicKey RelinKeys Raw Ct) (threadNum : ℕ) :
    System (KeyServer Params PublicKey RelinKeys Ct) (KeyAction E Params PublicKey RelinKeys Raw) where
  init s := ∃ now, s = ⟨OrdMap.empty, State.start now threadNum, [], [], []⟩
  step := KeyServer.step P

/-! ## The property -/

/-- Every use of keys for a query is of those its client had registered last under the key id when the
query was accepted, and every registration that raised no error is in force. -/
structure Respected (s : KeyServer Params PublicKey RelinKeys Ct) : Prop where
  uses : ∀ use ∈ s.uses, ∀ keys, s.latest[use.1]? = some (some keys) → use.2.Under keys
  registered : ∀ r ∈ s.registrations, s.container.find? r.keyId = some r.keys

/-- A registration is of a new id, or repeats the keys that are there. -/
def Honourable (s : KeyServer Params PublicKey RelinKeys Ct) :
    KeyAction E Params PublicKey RelinKeys Raw → Prop
  | .registerEnckeys _ keyId keys =>
    s.container.find? keyId = none ∨ s.container.find? keyId = some keys
  | _ => True

instance [DecidableEq Params] [DecidableEq PublicKey] [DecidableEq RelinKeys]
    (s : KeyServer Params PublicKey RelinKeys Ct) (l : KeyAction E Params PublicKey RelinKeys Raw) :
    Decidable (Honourable s l) := by
  cases l <;> unfold Honourable <;> infer_instance

/-! ## The first keys under an id -/

variable {P : KeyConfig E Params PublicKey RelinKeys Raw Ct} {n : ℕ}
  {s s' : KeyServer Params PublicKey RelinKeys Ct}

theorem registerKeys_find?_self {Keys : Type} (container : KeyContainer Keys) (keyId : ℤ)
    (keys : Keys) :
    (container.registerKeys keyId keys).find? keyId = some ((container.find? keyId).getD keys) :=
  OrdMap.find?_emplace_self keyId keys

/-- An entry stays. -/
theorem registerKeys_keeps {Keys : Type} {container : KeyContainer Keys} {k : ℤ} {keys : Keys}
    (h : container.find? k = some keys) (keyId : ℤ) (keys' : Keys) :
    (container.registerKeys keyId keys').find? k = some keys := by
  by_cases hk : k = keyId
  · subst hk
    rw [registerKeys_find?_self, h]
    rfl
  · exact (OrdMap.find?_emplace_ne keys' hk).trans h

/-- A registration is in force exactly if it is honourable. -/
theorem registerEnckeys_honoured (s : KeyServer Params PublicKey RelinKeys Ct) (client : ℕ)
    (keyId : ℤ) (keys : EncryptionKeys Params PublicKey RelinKeys) :
    (s.registerEnckeys client keyId keys).container.find? keyId = some keys ↔
      s.container.find? keyId = none ∨ s.container.find? keyId = some keys := by
  show (s.container.registerKeys keyId keys).find? keyId = some keys ↔ _
  rw [registerKeys_find?_self]
  cases s.container.find? keyId with
  | none => simp
  | some keys' => simp

theorem firstRegistered_cons {Keys : Type} (r : Registration Keys)
    (registrations : List (Registration Keys)) (k : ℤ) :
    firstRegistered (r :: registrations) k =
      (firstRegistered registrations k).or (if r.keyId = k then some r.keys else none) := by
  unfold firstRegistered
  rw [List.reverse_cons, List.find?_append]
  cases registrations.reverse.find? fun r => r.keyId = k with
  | some r' => rfl
  | none =>
    by_cases hk : r.keyId = k
    · simp [hk]
    · simp [hk]

/-! ## What holds in every run -/

theorem exec_keyId {Keys : Type} {Q : Config E Keys Ct} {e : E} {now : ℕ} {queryId : ℤ}
    {query : Query Keys Ct} {result : Result Ct} (h : Q.exec e now queryId query = .ok result) :
    result.keyId = query.keyId := by
  unfold Config.exec at h
  cases hs : Q.fileExist e (Q.structurePath query.params) with
  | false => simp [hs] at h
  | true =>
    cases hw : Q.fileExist e (Q.weightsPath query.params) with
    | false => simp [hs, hw] at h
    | true =>
      by_cases hl : Q.maxSize < query.params.labels
      · simp [hs, hw, hl] at h
      · simp only [hs, hw, hl, Bool.not_true, Bool.false_eq_true, if_false] at h
        obtain ⟨_, -, he⟩ := bind_eq_ok.1 h
        cases he
        rfl

/-- The entries of the container are the first registrations, and every use for a query is of the entry
of its key id. -/
structure FirstKeys (P : KeyConfig E Params PublicKey RelinKeys Raw Ct)
    (s : KeyServer Params PublicKey RelinKeys Ct) : Prop where
  origins : Origins P.pointers s.server
  length : s.latest.length = s.server.accepted.length
  pointer : ∀ a ∈ s.server.accepted, a.2.encKeys = a.2.keyId
  first : ∀ k, s.container.find? k = firstRegistered s.registrations k
  uses : ∀ use ∈ s.uses, ∃ a keys, s.server.accepted[use.1]? = some a ∧
    s.container.find? a.2.keyId = some keys ∧ use.2.Under keys

theorem FirstKeys.registerEnckeys (h : FirstKeys P s) (client : ℕ) (keyId : ℤ)
    (keys : EncryptionKeys Params PublicKey RelinKeys) :
    FirstKeys P (s.registerEnckeys client keyId keys) := by
  refine ⟨h.origins, h.length, h.pointer, fun k => ?_, fun use huse => ?_⟩
  · show (s.container.registerKeys keyId keys).find? k =
      firstRegistered (⟨client, keyId, keys⟩ :: s.registrations) k
    rw [firstRegistered_cons, ← h.first k]
    by_cases hk : k = keyId
    · subst hk
      rw [registerKeys_find?_self, if_pos rfl]
      cases s.container.find? k <;> rfl
    · rw [if_neg (Ne.symm hk), Option.or_none]
      exact OrdMap.find?_emplace_ne keys hk
  · obtain ⟨a, keys', hrec, hfind, hunder⟩ := h.uses use huse
    exact ⟨a, keys', hrec, registerKeys_keeps hfind keyId keys, hunder⟩

theorem getKeys_eq_ok {Keys : Type} {container : KeyContainer Keys} {keyId : ℤ} {keys : Keys} :
    container.getKeys keyId = .ok keys ↔ container.find? keyId = some keys := by
  unfold KeyContainer.getKeys
  cases container.find? keyId with
  | none => simp
  | some keys' => simp

/-- What an accepted query adds. -/
theorem sendQuery_cases {client : ℕ} {keyId : ℤ} {params : ComputationParams} {encInputs : Raw}
    {queryId : ℤ} (h : s.sendQuery P client keyId params encInputs = .ok (queryId, s')) :
    s' = s ∨ ∃ keys ctxts qque, s.container.find? keyId = some keys ∧
      P.load keys.params encInputs = .ok ctxts ∧
      (s.server.pushQuery P.pointers ⟨keyId, params, ctxts, keyId⟩).2 = { s.server with
        qque, accepted := s.server.accepted ++ [(queryId, ⟨keyId, params, ctxts, keyId⟩)] } ∧
      s' = { s with
        server := { s.server with
          qque, accepted := s.server.accepted ++ [(queryId, ⟨keyId, params, ctxts, keyId⟩)] }
        latest := s.latest ++ [lastRegistered s.registrations client keyId]
        uses := (s.server.accepted.length, .parse keys.params) :: s.uses } := by
  obtain ⟨keys, hkeys, h⟩ := bind_eq_ok.1 h
  obtain ⟨ctxts, hload, h⟩ := bind_eq_ok.1 h
  rcases pushQuery_cases P.pointers s.server ⟨keyId, params, ctxts, keyId⟩ with
    hp | ⟨qque, -, -, -, hp⟩
  · rw [hp] at h
    cases h
    exact .inl rfl
  · rw [hp] at h
    have hne : P.pointers.genUuid s.server.now ≠ -1 := by
      have hnonneg : 0 ≤ P.pointers.genUuid s.server.now := Int.natCast_nonneg _
      omega
    simp only [if_neg hne] at h
    cases h
    exact .inr ⟨keys, ctxts, qque, getKeys_eq_ok.1 hkeys, hload, by rw [hp], rfl⟩

theorem FirstKeys.sendQuery (h : FirstKeys P s) {client : ℕ} {keyId : ℤ} {params : ComputationParams}
    {encInputs : Raw} {queryId : ℤ}
    (hs : s.sendQuery P client keyId params encInputs = .ok (queryId, s')) : FirstKeys P s' := by
  rcases sendQuery_cases hs with rfl | ⟨keys, ctxts, qque, hfind, -, hserver, rfl⟩
  · exact h
  · refine ⟨hserver ▸ h.origins.push _, ?_, fun a ha => ?_, h.first, fun use huse => ?_⟩
    · simp only [List.length_append, List.length_singleton, h.length]
    · rcases List.mem_append.1 ha with ha | ha
      · exact h.pointer a ha
      · obtain rfl := List.mem_singleton.1 ha
        rfl
    · rcases List.mem_cons.1 huse with rfl | huse
      · exact ⟨_, keys, List.getElem?_concat_length, hfind, rfl⟩
      · obtain ⟨a, keys', hrec, hfind', hunder⟩ := h.uses use huse
        exact ⟨a, keys', recorded hrec, hfind', hunder⟩

/-- A step of the server that accepts nothing, with at most one use. -/
theorem FirstKeys.set_server (h : FirstKeys P s) {server : State ℤ Ct}
    (horigins : Origins P.pointers server) (haccepted : server.accepted = s.server.accepted)
    {uses : List (ℕ × Use Params PublicKey RelinKeys)}
    (huses : ∀ use ∈ uses, use ∈ s.uses ∨ ∃ a keys, s.server.accepted[use.1]? = some a ∧
      s.container.find? a.2.keyId = some keys ∧ use.2.Under keys) :
    FirstKeys P { s with server, uses } := by
  refine ⟨horigins, h.length.trans (by rw [haccepted]), ?_, h.first, fun use huse => ?_⟩
  · show ∀ a ∈ server.accepted, _
    rw [haccepted]
    exact h.pointer
  · show ∃ a keys, server.accepted[use.1]? = some a ∧ _
    rw [haccepted]
    rcases huses use huse with hold | hnew
    · exact h.uses use hold
    · exact hnew

theorem execKeys_cases {th : ℕ} {e : E} (h : s.execQuery P th e = some s') :
    ∃ queryId query server, s.server.threads[th]? = some (.computing queryId query) ∧
      s.server.execQuery P.pointers th (e, s.container) = some server ∧
      ∃ uses, s' = { s with server, uses } ∧ ∀ use ∈ uses, use ∈ s.uses ∨
        ∃ keys, s.container.find? query.val.encKeys = some keys ∧ use = (query.ticket, .compute keys) := by
  unfold KeyServer.execQuery at h
  split at h
  · rename_i queryId query hth
    obtain ⟨server, hserver, he⟩ := Option.map_eq_some_iff.1 h
    refine ⟨queryId, query, server, hth, hserver, ?_⟩
    split at he
    · rename_i keys hkeys
      refine ⟨_, he.symm, fun use huse => ?_⟩
      rcases List.mem_cons.1 huse with rfl | huse
      · exact .inr ⟨keys, hkeys, rfl⟩
      · exact .inl huse
    · exact ⟨s.uses, he.symm, fun use huse => .inl huse⟩
  · cases h

theorem requestKeys_cases {queryId : ℤ} (h : s.resultRequest queryId = some s') :
    ∃ result rque uses, s.server.rque.popKey queryId = some (result, rque) ∧
      s' = { s with server := { s.server with rque }, uses } ∧ ∀ use ∈ uses, use ∈ s.uses ∨
        ∃ keys, s.container.find? result.val.keyId = some keys ∧
          use = (result.ticket, .serialise keys.params) := by
  obtain ⟨⟨result, rque⟩, hpop, he⟩ := Option.map_eq_some_iff.1 h
  refine ⟨result, rque, ?_⟩
  dsimp only at he
  split at he
  · rename_i keys hkeys
    refine ⟨_, hpop, he.symm, fun use huse => ?_⟩
    rcases List.mem_cons.1 huse with rfl | huse
    · exact .inr ⟨keys, getKeys_eq_ok.1 hkeys, rfl⟩
    · exact .inl huse
  · exact ⟨s.uses, hpop, he.symm, fun use huse => .inl huse⟩

theorem FirstKeys.execQuery (h : FirstKeys P s) {th : ℕ} {e : E}
    (hs : s.execQuery P th e = some s') : FirstKeys P s' := by
  obtain ⟨queryId, query, server, hth, hserver, uses, rfl, huses⟩ := execKeys_cases hs
  have haccepted : server.accepted = s.server.accepted := by
    obtain ⟨_, _, _, ⟨_, _, rfl⟩ | ⟨_, _, rfl⟩⟩ := execQuery_cases hserver <;> rfl
  refine h.set_server (h.origins.step (l := .execQuery th (e, s.container)) hserver) haccepted
    fun use huse => ?_
  rcases huses use huse with hold | ⟨keys, hfind, rfl⟩
  · exact .inl hold
  · -- the pointer of an accepted query is its key id
    have hrec : s.server.accepted[query.ticket]? = some (queryId, query.val) :=
      h.origins.threads _ (List.mem_of_getElem? hth)
    have hpointer : query.val.encKeys = query.val.keyId := h.pointer _ (List.mem_of_getElem? hrec)
    exact .inr ⟨_, keys, hrec, hpointer ▸ hfind, rfl⟩

theorem FirstKeys.resultRequest (h : FirstKeys P s) {queryId : ℤ}
    (hs : s.resultRequest queryId = some s') : FirstKeys P s' := by
  obtain ⟨result, rque, uses, hpop, rfl, huses⟩ := requestKeys_cases hs
  have hperm := ConcurrentMapQueue.popKey_perm hpop
  have horigins : Origins P.pointers { s.server with rque } :=
    ⟨h.origins.queued, h.origins.threads,
      fun entry he => h.origins.stored entry (hperm.mem_iff.2 (List.mem_cons_of_mem _ he)),
      h.origins.delivered⟩
  refine h.set_server horigins rfl fun use huse => ?_
  rcases huses use huse with hold | ⟨keys, hfind, rfl⟩
  · exact .inl hold
  · obtain ⟨query, hrec, e, now, hexec⟩ := h.origins.stored _ (hperm.mem_iff.2 List.mem_cons_self)
    exact .inr ⟨_, keys, hrec, exec_keyId hexec ▸ hfind, rfl⟩

theorem FirstKeys.step (h : FirstKeys P s) {l : KeyAction E Params PublicKey RelinKeys Raw}
    (hs : s.step P l = some s') : FirstKeys P s' := by
  cases l with
  | registerEnckeys client keyId keys =>
    cases hs
    exact h.registerEnckeys client keyId keys
  | sendQuery client keyId params encInputs =>
    simp only [KeyServer.step] at hs
    split at hs
    · rename_i hsend
      cases hs
      exact h.sendQuery hsend
    · cases hs
      exact h
  | resultRequest queryId => exact h.resultRequest hs
  | tick d =>
    cases hs
    exact h.set_server (h.origins.step (l := .tick d) rfl) rfl fun use huse => .inl huse
  | popQuery th =>
    obtain ⟨server, hserver, rfl⟩ := Option.map_eq_some_iff.1 hs
    obtain ⟨_, _, _, _, _, he⟩ := popQuery_cases hserver
    exact h.set_server (h.origins.step (l := .popQuery th) hserver) (by rw [he]) fun use huse => .inl huse
  | execQuery th e => exact h.execQuery hs
  | pushResult th =>
    obtain ⟨server, hserver, rfl⟩ := Option.map_eq_some_iff.1 hs
    have haccepted : server.accepted = s.server.accepted := by
      obtain ⟨_, _, _, ⟨_, _, rfl⟩ | ⟨_, _, rfl⟩⟩ := pushResult_cases hserver <;> rfl
    exact h.set_server (h.origins.step (l := .pushResult th) hserver) haccepted fun use huse => .inl huse

theorem firstKeys_start (now : ℕ) : FirstKeys P (⟨OrdMap.empty, State.start now n, [], [], []⟩ :
    KeyServer Params PublicKey RelinKeys Ct) :=
  ⟨origins_start now, rfl, by simp [State.start], fun _ => rfl, by simp⟩

theorem firstKeys_reachable {ok : KeyServer Params PublicKey RelinKeys Ct →
      KeyAction E Params PublicKey RelinKeys Raw → Prop}
    (h : (keySystem P n).Reachable ok s) : FirstKeys P s := by
  refine h.invariant ?_ fun _ _ _ hinv _ hstep => hinv.step hstep
  rintro s ⟨now, rfl⟩
  exact firstKeys_start now

/-! ## Runs with honourable registrations -/

/-- Every registration is in force, and the keys an accepted query is to be used with are those of its
key id. -/
structure InForce (s : KeyServer Params PublicKey RelinKeys Ct) : Prop where
  registered : ∀ r ∈ s.registrations, s.container.find? r.keyId = some r.keys
  latest : ∀ (ticket : ℕ) (a : ℤ × Query ℤ Ct) (keys : EncryptionKeys Params PublicKey RelinKeys),
    s.server.accepted[ticket]? = some a → s.latest[ticket]? = some (some keys) →
      s.container.find? a.2.keyId = some keys

theorem InForce.registerEnckeys (h : InForce s) {client : ℕ} {keyId : ℤ}
    {keys : EncryptionKeys Params PublicKey RelinKeys}
    (hok : s.container.find? keyId = none ∨ s.container.find? keyId = some keys) :
    InForce (s.registerEnckeys client keyId keys) := by
  refine ⟨fun r hr => ?_, fun ticket a keys' hrec hlatest =>
    registerKeys_keeps (h.latest ticket a keys' hrec hlatest) keyId keys⟩
  rcases List.mem_cons.1 hr with rfl | hr
  · exact (registerEnckeys_honoured s client keyId keys).2 hok
  · exact registerKeys_keeps (h.registered r hr) keyId keys

theorem InForce.sendQuery (h : InForce s) (hlength : s.latest.length = s.server.accepted.length)
    {client : ℕ} {keyId : ℤ} {params : ComputationParams} {encInputs : Raw} {queryId : ℤ}
    (hs : s.sendQuery P client keyId params encInputs = .ok (queryId, s')) : InForce s' := by
  rcases sendQuery_cases hs with rfl | ⟨keys, ctxts, qque, -, -, -, rfl⟩
  · exact h
  · refine ⟨h.registered, fun ticket a keys' hrec hlatest => ?_⟩
    rcases Nat.lt_or_ge ticket s.latest.length with hlt | hge
    · rw [List.getElem?_append_left hlt] at hlatest
      rw [List.getElem?_append_left (hlength ▸ hlt)] at hrec
      exact h.latest ticket a keys' hrec hlatest
    · -- the new query: its client has registered the keys, and they are in force
      rw [List.getElem?_append_right hge] at hlatest
      rw [List.getElem?_append_right (hlength ▸ hge)] at hrec
      rw [List.getElem?_singleton] at hlatest hrec
      split at hlatest
      · rename_i hzero
        rw [hlength] at hzero
        rw [if_pos hzero] at hrec
        cases hrec
        obtain ⟨r, hfind, hkeys⟩ := Option.map_eq_some_iff.1 (Option.some.inj hlatest)
        have hr := List.find?_some hfind
        simp only [decide_eq_true_eq] at hr
        have hforce := h.registered r (List.mem_of_find?_eq_some hfind)
        rw [hr.2, hkeys] at hforce
        exact hforce
      · cases hlatest

theorem inForce_step (h : InForce s) (hfirst : FirstKeys P s)
    {l : KeyAction E Params PublicKey RelinKeys Raw} (hok : Honourable s l)
    (hs : s.step P l = some s') : InForce s' := by
  cases l with
  | registerEnckeys client keyId keys =>
    cases hs
    exact h.registerEnckeys hok
  | sendQuery client keyId params encInputs =>
    simp only [KeyServer.step] at hs
    split at hs
    · rename_i hsend
      cases hs
      exact h.sendQuery hfirst.length hsend
    · cases hs
      exact h
  | resultRequest queryId =>
    obtain ⟨_, _, _, _, rfl, _⟩ := requestKeys_cases hs
    exact ⟨h.registered, h.latest⟩
  | tick d =>
    cases hs
    exact ⟨h.registered, h.latest⟩
  | popQuery th =>
    obtain ⟨server, hserver, rfl⟩ := Option.map_eq_some_iff.1 hs
    obtain ⟨_, _, _, _, _, rfl⟩ := popQuery_cases hserver
    exact ⟨h.registered, h.latest⟩
  | execQuery th e =>
    obtain ⟨_, _, server, _, hserver, _, rfl, _⟩ := execKeys_cases hs
    obtain ⟨_, _, _, ⟨_, _, rfl⟩ | ⟨_, _, rfl⟩⟩ := execQuery_cases hserver <;>
      exact ⟨h.registered, h.latest⟩
  | pushResult th =>
    obtain ⟨server, hserver, rfl⟩ := Option.map_eq_some_iff.1 hs
    obtain ⟨_, _, _, ⟨_, _, rfl⟩ | ⟨_, _, rfl⟩⟩ := pushResult_cases hserver <;>
      exact ⟨h.registered, h.latest⟩

theorem inForce_reachable (h : (keySystem P n).Reachable Honourable s) : InForce s := by
  have hboth : FirstKeys P s ∧ InForce s := by
    refine h.invariant (I := fun s => FirstKeys P s ∧ InForce s) ?_ fun s l s' hinv hok hs =>
      ⟨hinv.1.step hs, inForce_step hinv.2 hinv.1 hok hs⟩
    rintro s ⟨now, rfl⟩
    exact ⟨firstKeys_start now, by simp, by simp⟩
  exact hboth.2

/-- In a run that registers no other keys under an id that is there, every query is parsed, computed and
answered under the keys its client registered last, and every registration is in force. In every run a
registration is in force exactly if it is of that kind, and the keys used for a query are the first that
anybody registered under its key id. -/
theorem keys_respected (P : KeyConfig E Params PublicKey RelinKeys Raw Ct) (threadNum : ℕ) :
    (∀ s, (keySystem P threadNum).Reachable Honourable s → Respected s) ∧
    ∀ s, (keySystem P threadNum).Reachable System.anyStep s →
      (∀ client keyId keys, (s.registerEnckeys client keyId keys).container.find? keyId = some keys ↔
        s.container.find? keyId = none ∨ s.container.find? keyId = some keys) ∧
      ∀ use ∈ s.uses, ∃ a keys, s.server.accepted[use.1]? = some a ∧
        firstRegistered s.registrations a.2.keyId = some keys ∧ use.2.Under keys := by
  refine ⟨fun s h => ⟨fun use huse keys hlatest => ?_, (inForce_reachable h).registered⟩,
    fun s h => ⟨registerEnckeys_honoured s, fun use huse => ?_⟩⟩
  · obtain ⟨a, keys', hrec, hfind, hunder⟩ := (firstKeys_reachable h).uses use huse
    have hkeys := (inForce_reachable h).latest use.1 a keys hrec hlatest
    cases hfind.symm.trans hkeys
    exact hunder
  · obtain ⟨a, keys, hrec, hfind, hunder⟩ := (firstKeys_reachable h).uses use huse
    exact ⟨a, keys, hrec, ((firstKeys_reachable h).first _).symm.trans hfind, hunder⟩

section Sample

/-- Computations return the ciphertexts they are given. -/
def echoKeys : KeyConfig Unit ℕ ℕ ℕ (List ℕ) ℕ where
  rand seed := seed
  fileExist _ _ := true
  predict _ _ _ ctxts _ _ := .ok ctxts
  maxSize := 2 ^ 56
  plaintextExperimentPath := "../../../plaintext_experiment/"
  maxConcurrentQueries := 128
  maxResults := 128
  resultLifetimeSec := 50000
  load _ encInputs := .ok encInputs

def mnistParams : ComputationParams := ⟨28, 28, 1, 10, "mnist", "HCNN", 0, 0⟩

/-- A query of a client, from its arrival to its result. -/
def served (client : ℕ) : List (KeyAction Unit ℕ ℕ ℕ (List ℕ)) :=
  [.sendQuery client 5 mnistParams [7], .popQuery 0, .execQuery 0 (), .pushResult 0, .resultRequest 0]

theorem keys_respected_sample : ∃ s : KeyServer ℕ ℕ ℕ ℕ,
    s.uses = [(0, .serialise 1), (0, .compute ⟨1, 2, 3⟩), (0, .parse 1)] ∧ Respected s := by
  have hrun : ((keySystem echoKeys 1).run Honourable ⟨OrdMap.empty, State.start 0 1, [], [], []⟩
      (.registerEnckeys 0 5 ⟨1, 2, 3⟩ :: served 0)).map KeyServer.uses =
      some [(0, .serialise 1), (0, .compute ⟨1, 2, 3⟩), (0, .parse 1)] := by
    decide +kernel
  obtain ⟨s, hs, huses⟩ := Option.map_eq_some_iff.1 hrun
  have hinit : (keySystem echoKeys 1).Reachable Honourable ⟨OrdMap.empty, State.start 0 1, [], [], []⟩ :=
    .init ⟨0, rfl⟩
  exact ⟨s, huses, (keys_respected echoKeys 1).1 s (hinit.run hs)⟩

/-- Two clients register under one id: the query of the second is computed under the keys of the
first. -/
theorem keys_respected_differs : ∃ s : KeyServer ℕ ℕ ℕ ℕ,
    (keySystem echoKeys 1).run System.anyStep ⟨OrdMap.empty, State.start 0 1, [], [], []⟩
      (.registerEnckeys 0 5 ⟨1, 2, 3⟩ :: .registerEnckeys 1 5 ⟨4, 5, 6⟩ :: served 1) = some s ∧
    s.uses = [(0, .serialise 1), (0, .compute ⟨1, 2, 3⟩), (0, .parse 1)] ∧
    s.latest = [some ⟨4, 5, 6⟩] ∧ ¬ Respected s := by
  have hrun : ((keySystem echoKeys 1).run System.anyStep ⟨OrdMap.empty, State.start 0 1, [], [], []⟩
      (.registerEnckeys 0 5 ⟨1, 2, 3⟩ :: .registerEnckeys 1 5 ⟨4, 5, 6⟩ :: served 1)).map
      (fun s => (s.uses, s.latest)) =
      some ([(0, .serialise 1), (0, .compute ⟨1, 2, 3⟩), (0, .parse 1)], [some ⟨4, 5, 6⟩]) := by
    decide +kernel
  obtain ⟨s, hs, hval⟩ := Option.map_eq_some_iff.1 hrun
  simp only [Prod.mk.injEq] at hval
  obtain ⟨huses, hlatest⟩ := hval
  refine ⟨s, hs, huses, hlatest, fun h => ?_⟩
  have hunder := h.uses (0, .parse 1) (by simp [huses]) ⟨4, 5, 6⟩ (by rw [hlatest]; rfl)
  exact absurd hunder (by simp [Use.Under])

end Sample

end Server
