import Mathlib
import PPCNN.Lib.OrdMap
import PPCNN.Lib.System
import PPCNN.Share.BasicData

/-!
# The keys of the client (`ppcnn_client_keycontainer.cpp`)

`new_keys` takes an id from the clock, remembers the file names of this id and writes the keys and the
parameters to these files. `keysKept_reachable`: as long as the ids of the calls that return differ,
`get` and `get_param` read what the call with that id has generated.

A file is a map entry from its name to its bytes. What the program prints and logs is left out.
-/

set_option autoImplicit false

namespace Client

open Lib Share

variable {Params PublicKey SecretKey RelinKeys T : Type}

/-! ## The file names -/

/-- `KeyKind_t` -/
inductive KeyKind where
  | unknown | pubKey | secKey | galoisKey | relinKey | param | numOfKind
  deriving DecidableEq

/-- The value of the enumerator. -/
def KeyKind.value : KeyKind → ℤ
  | .unknown => -1
  | .pubKey => 0
  | .secKey => 1
  | .galoisKey => 2
  | .relinKey => 3
  | .param => 4
  | .numOfKind => 5

inductive KeyError where
  /-- `std::out_of_range` of `at` -/
  | outOfRange
  /-- `STDSC_THROW_INVPARAM` with its text -/
  | invalidParam (what : String)
  /-- `STDSC_THROW_FILE` with its text -/
  | file (what : String)
  /-- an exception of SEAL -/
  | seal (what : String)
  deriving DecidableEq

/-- `KeyFilenames`: the map `filenames_`. -/
structure KeyFilenames where
  filenames : KeyKind → Option String

namespace KeyFilenames

/-- `KeyFilenames::KeyFilenames` -/
def new (id : ℤ) : KeyFilenames where
  filenames
    | .pubKey => some ("pubkey_" ++ id.repr)
    | .secKey => some ("seckey_" ++ id.repr)
    | .relinKey => some ("relinkey_" ++ id.repr)
    | .param => some ("param_" ++ id.repr)
    | _ => none

/-- `KeyFilenames::filename`, with `CHECK_KIND`. -/
def filename (names : KeyFilenames) (kind : KeyKind) : Except KeyError String :=
  if kind.value < KeyKind.numOfKind.value then
    match names.filenames kind with
    | some name => .ok name
    | none => .error .outOfRange
  else .error (.invalidParam ("Err: Invalid securekey kind. (kind: " ++ kind.value.repr ++ ")"))

variable {id id' : ℤ} {kind kind' : KeyKind} {name : String}

/-- Files of two ids, or of two kinds, have two names. -/
theorem new_inj (h : (new id).filenames kind = some name) (h' : (new id').filenames kind' = some name) :
    id = id' ∧ kind = kind' := by
  have hname := congrArg (Option.map String.toList) (h.trans h'.symm)
  have hrepr := h.trans h'.symm
  cases kind <;> cases kind' <;> simp [new] at h h' hname hrepr
  all_goals exact ⟨Int.repr_injective (by simpa using hrepr), rfl⟩

theorem filename_new (h : (new id).filenames kind = some name) : (new id).filename kind = .ok name := by
  have hkind : kind.value < KeyKind.numOfKind.value := by
    cases kind <;> first | decide | cases h
  rw [filename, if_pos hkind, h]

end KeyFilenames

/-! ## The container -/

/-- What `generate_keyfiles` generates. -/
structure KeySet (Params PublicKey SecretKey RelinKeys : Type) where
  params : Params
  publicKey : PublicKey
  secretKey : SecretKey
  relinKeys : RelinKeys

/-- The files that there are. -/
abbrev Files := String → Option (List UInt8)

/-- `map_`, and the files. -/
structure KeyStore where
  map : OrdMap ℤ KeyFilenames
  files : Files

/-- What is fixed while the program runs. `generate` is what the calls of SEAL give the `n`-th time, or the
exception by which they refuse `power` and `level`. -/
structure KeyConfig (Params PublicKey SecretKey RelinKeys : Type) where
  /-- the first value of `rand` after `srand` -/
  rand : ℕ → ℕ
  encParams : Codec Unit Params
  pubkey : Codec Params PublicKey
  seckey : Codec Params SecretKey
  relinkey : Codec Params RelinKeys
  generate : ℕ → ℕ → ℕ → Except String (KeySet Params PublicKey SecretKey RelinKeys)
  params_roundTrips : ∀ {n power level keys}, generate n power level = .ok keys →
    encParams.RoundTrips () keys.params
  publicKey_roundTrips : ∀ {n power level keys}, generate n power level = .ok keys →
    pubkey.RoundTrips keys.params keys.publicKey
  secretKey_roundTrips : ∀ {n power level keys}, generate n power level = .ok keys →
    seckey.RoundTrips keys.params keys.secretKey
  relinKeys_roundTrips : ∀ {n power level keys}, generate n power level = .ok keys →
    relinkey.RoundTrips keys.params keys.relinKeys

/-- Writes one file after the other. -/
def saveFiles (names : KeyFilenames) : List (KeyKind × List UInt8) → Files → Except KeyError Unit × Files
  | [], files => (.ok (), files)
  | (kind, bytes) :: entries, files =>
    match names.filename kind with
    | .ok name => saveFiles names entries (Function.update files name (some bytes))
    | .error e => (.error e, files)

namespace KeyStore

/-- The file under the name of a key. -/
def open? (s : KeyStore) (keyId : ℤ) (kind : KeyKind) : Except KeyError (List UInt8) :=
  match s.map.find? keyId with
  | none => .error .outOfRange
  | some names => do
    let filename ← names.filename kind
    match s.files filename with
    | some content => .ok content
    | none => .error (.file ("File is not found. (" ++ filename ++ ")"))

/-- `load` of an object of SEAL from a file. -/
def loadFile {Ctx : Type} (C : Codec Ctx T) (ctx : Ctx) (content : List UInt8) : Except KeyError T :=
  match C.load ctx content with
  | .ok l => .ok l.object
  | .error e => .error (.seal e)

end KeyStore

namespace KeyConfig

variable (P : KeyConfig Params PublicKey SecretKey RelinKeys)

/-- `gen_uuid`, at the time `now` in seconds: `srand` takes an `unsigned int`. -/
def genUuid (now : ℕ) : ℤ := P.rand (now % 2 ^ 32)

/-- The files of `generate_keyfiles`, in the order in which they are written. -/
def keyfiles (keys : KeySet Params PublicKey SecretKey RelinKeys) : List (KeyKind × List UInt8) :=
  [(.pubKey, (P.pubkey.save keys.publicKey).1), (.secKey, (P.seckey.save keys.secretKey).1),
    (.param, (P.encParams.save keys.params).1), (.relinKey, (P.relinkey.save keys.relinKeys).1)]

/-- `KeyContainer::Impl::new_keys` at the time `now`; `generated` is what SEAL gives. An exception leaves
what has been done before. -/
def newKeys (s : KeyStore) (now : ℕ)
    (generated : Except String (KeySet Params PublicKey SecretKey RelinKeys)) :
    Except KeyError ℤ × KeyStore :=
  let keyId := P.genUuid now
  let map := s.map.emplace keyId (.new keyId)
  match map.find? keyId with
  | none => (.error .outOfRange, { s with map })
  | some names =>
    match generated with
    | .error e => (.error (.seal e), { s with map })
    | .ok keys =>
      let (saved, files) := saveFiles names (P.keyfiles keys) s.files
      (saved.map fun _ => keyId, ⟨map, files⟩)

/-- `KeyContainer::Impl::get_param` -/
def getParam (s : KeyStore) (keyId : ℤ) : Except KeyError Params := do
  KeyStore.loadFile P.encParams () (← s.open? keyId .param)

/-- `KeyContainer::Impl::get` of a type with the given `load`. -/
def get (C : Codec Params T) (s : KeyStore) (keyId : ℤ) (kind : KeyKind) : Except KeyError T := do
  let content ← s.open? keyId kind
  let params ← P.getParam s keyId
  KeyStore.loadFile C params content

end KeyConfig

/-! ## Runs -/

/-- `generated` counts the calls of SEAL, and `returned` is a record of what has been generated by the calls
of `new_keys` that have returned. -/
structure KeyState (Params PublicKey SecretKey RelinKeys : Type) where
  now : ℕ
  generated : ℕ
  store : KeyStore
  returned : List (ℤ × KeySet Params PublicKey SecretKey RelinKeys)

inductive KeyAction where
  /-- the clock goes on by some seconds -/
  | tick (seconds : ℕ)
  | newKeys (power level : ℕ)

namespace KeyConfig

variable (P : KeyConfig Params PublicKey SecretKey RelinKeys)

/-- `get` and `get_param` change nothing. -/
def step (s : KeyState Params PublicKey SecretKey RelinKeys) :
    KeyAction → Option (KeyState Params PublicKey SecretKey RelinKeys)
  | .tick seconds => some { s with now := s.now + seconds }
  | .newKeys power level =>
    let keys := P.generate s.generated power level
    let (keyId, store) := P.newKeys s.store s.now keys
    let returned := match keyId, keys with
      | .ok keyId, .ok keys => s.returned ++ [(keyId, keys)]
      | _, _ => s.returned
    some { s with generated := s.generated + 1, store, returned }

def system : System (KeyState Params PublicKey SecretKey RelinKeys) KeyAction where
  init s := ∃ now files, s = ⟨now, 0, ⟨.empty, files⟩, []⟩
  step := P.step

/-- The ids differ, and what is read under an id is what was generated when it was returned. -/
structure KeysKept (s : KeyState Params PublicKey SecretKey RelinKeys) : Prop where
  ids_nodup : (s.returned.map Prod.fst).Nodup
  getParam_eq : ∀ e ∈ s.returned, P.getParam s.store e.1 = .ok e.2.params
  get_pubKey : ∀ e ∈ s.returned, P.get P.pubkey s.store e.1 .pubKey = .ok e.2.publicKey
  get_secKey : ∀ e ∈ s.returned, P.get P.seckey s.store e.1 .secKey = .ok e.2.secretKey
  get_relinKey : ∀ e ∈ s.returned, P.get P.relinkey s.store e.1 .relinKey = .ok e.2.relinKeys

/-- A call for which SEAL generates keys gets an id that no call has returned before. -/
def FreshId (s : KeyState Params PublicKey SecretKey RelinKeys) : KeyAction → Prop
  | .tick _ => True
  | .newKeys power level =>
    (P.generate s.generated power level).isOk → P.genUuid s.now ∉ s.returned.map Prod.fst

instance (s : KeyState Params PublicKey SecretKey RelinKeys) (action : KeyAction) :
    Decidable (P.FreshId s action) :=
  match action with
  | .tick _ => inferInstanceAs (Decidable True)
  | .newKeys power level => inferInstanceAs (Decidable
      ((P.generate s.generated power level).isOk → P.genUuid s.now ∉ s.returned.map Prod.fst))

variable {P} {s s' : KeyState Params PublicKey SecretKey RelinKeys} {id : ℤ}
  {keys : KeySet Params PublicKey SecretKey RelinKeys}

/-! ### The entries of the map -/

/-- The entry of each id has the file names of this id. -/
def NamesMatch (m : OrdMap ℤ KeyFilenames) : Prop := ∀ id names, m.find? id = some names → names = .new id

theorem NamesMatch.find?_self {m : OrdMap ℤ KeyFilenames} (hm : NamesMatch m) (id : ℤ) :
    (m.emplace id (.new id)).find? id = some (.new id) := by
  rw [OrdMap.find?_emplace_self]
  cases hfound : m.find? id with
  | none => rfl
  | some names => rw [hm id names hfound]; rfl

theorem NamesMatch.emplace {m : OrdMap ℤ KeyFilenames} (hm : NamesMatch m) (keyId : ℤ) :
    NamesMatch (m.emplace keyId (.new keyId)) := by
  intro id names h
  by_cases hid : id = keyId
  · subst hid
    rw [hm.find?_self] at h
    exact (Option.some.inj h).symm
  · rw [OrdMap.find?_emplace_ne _ hid] at h
    exact hm id names h

/-- An entry stays. -/
theorem find?_emplace_of_some {m : OrdMap ℤ KeyFilenames} {names : KeyFilenames} (h : m.find? id = some names)
    (keyId : ℤ) : (m.emplace keyId (.new keyId)).find? id = some names := by
  by_cases hid : id = keyId
  · subst hid
    rw [OrdMap.find?_emplace_self, h]
    rfl
  · rw [OrdMap.find?_emplace_ne _ hid, h]

/-! ### The files of an id -/

/-- The files of the id hold the entries. -/
def Holds (files : Files) (id : ℤ) (entries : List (KeyKind × List UInt8)) : Prop :=
  ∀ e ∈ entries, ∃ name, (KeyFilenames.new id).filenames e.1 = some name ∧ files name = some e.2

/-- The files of the id are written, and no others. -/
theorem saveFiles_new {entries : List (KeyKind × List UInt8)}
    (hnames : ∀ e ∈ entries, ∃ name, (KeyFilenames.new id).filenames e.1 = some name)
    (hkinds : (entries.map Prod.fst).Nodup) (files : Files) :
    ∃ files', saveFiles (.new id) entries files = (.ok (), files') ∧ Holds files' id entries ∧
      ∀ name, (∀ e ∈ entries, (KeyFilenames.new id).filenames e.1 ≠ some name) →
        files' name = files name := by
  induction entries generalizing files with
  | nil => exact ⟨files, rfl, fun e he => absurd he List.not_mem_nil, fun _ _ => rfl⟩
  | cons entry entries ih =>
    obtain ⟨kind, bytes⟩ := entry
    obtain ⟨name, hname⟩ := hnames _ List.mem_cons_self
    obtain ⟨hkind, hkinds⟩ := List.nodup_cons.1 hkinds
    obtain ⟨files', hsave, hholds, hother⟩ := ih (fun e he => hnames e (List.mem_cons_of_mem _ he)) hkinds
      (Function.update files name (some bytes))
    refine ⟨files', ?_, ?_, ?_⟩
    · rw [saveFiles, KeyFilenames.filename_new hname]
      exact hsave
    · rintro e he
      rcases List.mem_cons.1 he with rfl | he
      · -- the later files are of other kinds
        refine ⟨name, hname, ?_⟩
        rw [hother name fun e he hsame => ?_, Function.update_self]
        exact hkind ((KeyFilenames.new_inj hname hsame).2 ▸ List.mem_map_of_mem he)
      · exact hholds e he
    · intro other hne
      rw [hother other fun e he => hne e (List.mem_cons_of_mem _ he), Function.update_of_ne]
      rintro rfl
      exact hne _ List.mem_cons_self hname

theorem keyfiles_names (id : ℤ) {e : KeyKind × List UInt8} (he : e ∈ P.keyfiles keys) :
    ∃ name, (KeyFilenames.new id).filenames e.1 = some name := by
  simp only [keyfiles, List.mem_cons, List.not_mem_nil, or_false] at he
  rcases he with rfl | rfl | rfl | rfl <;> exact ⟨_, rfl⟩

theorem keyfiles_kinds : ((P.keyfiles keys).map Prod.fst).Nodup := by
  simp [keyfiles]

/-- What a call of `new_keys` does when the entry of its id has the file names of the id. -/
theorem newKeys_eq {store : KeyStore} (hmap : NamesMatch store.map) (now : ℕ)
    (generated : Except String (KeySet Params PublicKey SecretKey RelinKeys)) :
    (∃ e, generated = .error e ∧ P.newKeys store now generated = (.error (.seal e),
        ⟨store.map.emplace (P.genUuid now) (.new (P.genUuid now)), store.files⟩)) ∨
    ∃ keys files', generated = .ok keys ∧ P.newKeys store now generated = (.ok (P.genUuid now),
        ⟨store.map.emplace (P.genUuid now) (.new (P.genUuid now)), files'⟩) ∧
      Holds files' (P.genUuid now) (P.keyfiles keys) ∧
      ∀ name, (∀ kind, (KeyFilenames.new (P.genUuid now)).filenames kind ≠ some name) →
        files' name = store.files name := by
  have hfind := hmap.find?_self (P.genUuid now)
  cases generated with
  | error e => exact .inl ⟨e, rfl, by simp only [newKeys, hfind]⟩
  | ok keys =>
    obtain ⟨files', hsave, hholds, hother⟩ := saveFiles_new
      (fun e (he : e ∈ P.keyfiles keys) => keyfiles_names (P.genUuid now) he) keyfiles_kinds store.files
    refine .inr ⟨keys, files', rfl, ?_, hholds, fun name hne => hother name fun e _ => hne e.1⟩
    simp only [newKeys, hfind, hsave]
    rfl

/-! ### What is kept -/

/-- The entries of the map are those of their ids, and each returned id has its entry and its files. -/
structure KeyInv (P : KeyConfig Params PublicKey SecretKey RelinKeys)
    (s : KeyState Params PublicKey SecretKey RelinKeys) : Prop where
  names_match : NamesMatch s.store.map
  ids_nodup : (s.returned.map Prod.fst).Nodup
  mem_map : ∀ e ∈ s.returned, s.store.map.find? e.1 = some (.new e.1)
  holds : ∀ e ∈ s.returned, Holds s.store.files e.1 (P.keyfiles e.2)
  generated : ∀ e ∈ s.returned, ∃ n power level, P.generate n power level = .ok e.2

theorem Holds.mono {files files' : Files} {entries : List (KeyKind × List UInt8)}
    (h : Holds files id entries) (hother : ∀ kind name, (KeyFilenames.new id).filenames kind = some name →
      files' name = files name) : Holds files' id entries := by
  intro e he
  obtain ⟨name, hname, hfile⟩ := h e he
  exact ⟨name, hname, (hother e.1 name hname).trans hfile⟩

theorem KeyInv.newKeys (h : KeyInv P s) {power level : ℕ} (hfresh : P.FreshId s (.newKeys power level))
    (hstep : P.step s (.newKeys power level) = some s') : KeyInv P s' := by
  have hmem : ∀ e ∈ s.returned,
      (s.store.map.emplace (P.genUuid s.now) (.new (P.genUuid s.now))).find? e.1 = some (.new e.1) :=
    fun e he => find?_emplace_of_some (h.mem_map e he) _
  obtain ⟨e, herror, hnew⟩ | ⟨keys, files', hok, hnew, hholds, hother⟩ :=
    newKeys_eq (P := P) h.names_match s.now (P.generate s.generated power level)
  · simp only [KeyConfig.step, hnew, Option.some.injEq] at hstep
    subst hstep
    exact ⟨h.names_match.emplace _, h.ids_nodup, hmem, h.holds, h.generated⟩
  · simp only [KeyConfig.step, hnew, Option.some.injEq] at hstep
    rw [hok] at hstep
    subst hstep
    have hid : P.genUuid s.now ∉ s.returned.map Prod.fst := hfresh (by rw [hok]; rfl)
    refine ⟨h.names_match.emplace _, ?_, ?_, ?_, ?_⟩
    · rw [List.map_append, List.nodup_append]
      refine ⟨h.ids_nodup, List.nodup_singleton _, ?_⟩
      intro a ha b hb hab
      rw [hab, List.mem_singleton.1 hb] at ha
      exact hid ha
    · exact List.forall_mem_append.2 ⟨hmem, List.forall_mem_singleton.2 (h.names_match.find?_self _)⟩
    · refine List.forall_mem_append.2 ⟨fun e he => (h.holds e he).mono ?_,
        List.forall_mem_singleton.2 hholds⟩
      intro kind name hname
      refine hother name fun kind' hname' => hid ?_
      rw [← (KeyFilenames.new_inj hname hname').1]
      exact List.mem_map_of_mem he
    · exact List.forall_mem_append.2 ⟨h.generated, List.forall_mem_singleton.2 ⟨_, _, _, hok⟩⟩

theorem keyInv_reachable (h : P.system.Reachable P.FreshId s) : KeyInv P s := by
  refine h.invariant (fun s hs => ?_) (fun s action s' hs hok hstep => ?_)
  · obtain ⟨now, files, rfl⟩ := hs
    refine ⟨fun id names h => ?_, List.nodup_nil, ?_, ?_, ?_⟩
    · simp [OrdMap.find?] at h
    · exact fun e he => absurd he List.not_mem_nil
    · exact fun e he => absurd he List.not_mem_nil
    · exact fun e he => absurd he List.not_mem_nil
  · cases action with
    | tick seconds =>
      cases hstep
      exact ⟨hs.names_match, hs.ids_nodup, hs.mem_map, hs.holds, hs.generated⟩
    | newKeys power level => exact hs.newKeys hok hstep

/-! ### What is read -/

theorem open?_eq {store : KeyStore} {kind : KeyKind} {bytes : List UInt8}
    (hmap : store.map.find? id = some (.new id)) (hholds : Holds store.files id (P.keyfiles keys))
    (he : (kind, bytes) ∈ P.keyfiles keys) : store.open? id kind = .ok bytes := by
  obtain ⟨name, hname, hfile⟩ := hholds _ he
  rw [KeyStore.open?, hmap]
  simp only [KeyFilenames.filename_new hname, ok_bind, hfile]

theorem loadFile_eq {Ctx : Type} {C : Codec Ctx T} {ctx : Ctx} {x : T} (h : C.RoundTrips ctx x) :
    KeyStore.loadFile C ctx (C.save x).1 = .ok x := by
  have hload := h.load_eq []
  rw [List.append_nil] at hload
  rw [KeyStore.loadFile, hload]

/-- In a run in which the calls of `new_keys` that return get different ids, the keys of each are kept. -/
theorem keysKept_reachable (P : KeyConfig Params PublicKey SecretKey RelinKeys)
    {s : KeyState Params PublicKey SecretKey RelinKeys} (h : P.system.Reachable P.FreshId s) :
    P.KeysKept s := by
  have hinv := keyInv_reachable h
  have hparam : ∀ e ∈ s.returned, P.getParam s.store e.1 = .ok e.2.params := by
    intro e he
    obtain ⟨n, power, level, hgen⟩ := hinv.generated e he
    have hmem : (KeyKind.param, (P.encParams.save e.2.params).1) ∈ P.keyfiles e.2 := by simp [keyfiles]
    rw [getParam, open?_eq (hinv.mem_map e he) (hinv.holds e he) hmem, ok_bind,
      loadFile_eq (P.params_roundTrips hgen)]
  have hget : ∀ {T : Type} (C : Codec Params T) (x : T) (kind : KeyKind), ∀ e ∈ s.returned,
      (kind, (C.save x).1) ∈ P.keyfiles e.2 → C.RoundTrips e.2.params x →
      P.get C s.store e.1 kind = .ok x := by
    intro T C x kind e he hmem hC
    rw [get, open?_eq (hinv.mem_map e he) (hinv.holds e he) hmem, ok_bind, hparam e he, ok_bind,
      loadFile_eq hC]
  refine ⟨hinv.ids_nodup, hparam, fun e he => ?_, fun e he => ?_, fun e he => ?_⟩ <;>
    obtain ⟨n, power, level, hgen⟩ := hinv.generated e he
  · exact hget _ _ _ e he (by simp [keyfiles]) (P.publicKey_roundTrips hgen)
  · exact hget _ _ _ e he (by simp [keyfiles]) (P.secretKey_roundTrips hgen)
  · exact hget _ _ _ e he (by simp [keyfiles]) (P.relinKeys_roundTrips hgen)

/-- One byte. -/
def byteCodec (Ctx : Type) : Codec Ctx UInt8 where
  save x := ([x], 1)
  load _ bs :=
    match bs with
    | [] => .error "Unexpected end of stream"
    | x :: _ => .ok ⟨x, 1, 1⟩

theorem byteCodec_roundTrips {Ctx : Type} (ctx : Ctx) (x : UInt8) : (byteCodec Ctx).RoundTrips ctx x where
  saved_eq := rfl
  load_eq _ := rfl

/-- A generator that gives back its seed, and keys that are the number of the call. -/
def sampleKeys : KeyConfig UInt8 UInt8 UInt8 UInt8 where
  rand seed := seed
  encParams := byteCodec Unit
  pubkey := byteCodec UInt8
  seckey := byteCodec UInt8
  relinkey := byteCodec UInt8
  generate n _ _ := .ok ⟨.ofNat n, .ofNat n, .ofNat n, .ofNat n⟩
  params_roundTrips _ := byteCodec_roundTrips _ _
  publicKey_roundTrips _ := byteCodec_roundTrips _ _
  secretKey_roundTrips _ := byteCodec_roundTrips _ _
  relinKeys_roundTrips _ := byteCodec_roundTrips _ _

def sampleStart : KeyState UInt8 UInt8 UInt8 UInt8 := ⟨100, 0, ⟨.empty, fun _ => none⟩, []⟩

/-- Two calls in one second get one id, and the files of the first are gone. -/
theorem keysKept_reachable_differs :
    ¬∀ s, sampleKeys.system.Reachable System.anyStep s → sampleKeys.KeysKept s := by
  intro h
  have hrun : ((sampleKeys.system.run System.anyStep sampleStart [.newKeys 14 5, .newKeys 14 5]).map
      fun s => s.returned.map Prod.fst) = some [100, 100] := by decide
  obtain ⟨s, hs, hids⟩ := Option.map_eq_some_iff.1 hrun
  have hnodup := (h s (System.Reachable.run (.init ⟨100, _, rfl⟩) hs)).ids_nodup
  rw [hids] at hnodup
  exact absurd hnodup (by decide)

theorem keysKept_reachable_sample :
    ∃ s, sampleKeys.system.Reachable sampleKeys.FreshId s ∧ s.returned.map Prod.fst = [100, 101] ∧
      sampleKeys.KeysKept s := by
  have hrun : ((sampleKeys.system.run sampleKeys.FreshId sampleStart
      [.newKeys 14 5, .tick 1, .newKeys 13 3]).map fun s => s.returned.map Prod.fst) =
      some [100, 101] := by decide
  obtain ⟨s, hs, hids⟩ := Option.map_eq_some_iff.1 hrun
  have hreach : sampleKeys.system.Reachable sampleKeys.FreshId s :=
    System.Reachable.run (.init ⟨100, _, rfl⟩) hs
  exact ⟨s, hreach, hids, keysKept_reachable sampleKeys hreach⟩

end KeyConfig

end Client
