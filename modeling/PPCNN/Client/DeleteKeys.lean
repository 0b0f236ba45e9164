import PPCNN.Client.KeyContainer

/-!
# Deleting keys (`ppcnn_client_keycontainer.cpp`)

`delete_keys` removes the files of an id one after the other and then its entry. The loop goes over all
kinds from the public key to the parameters, and one of them, the Galois key, has no file. So no call
succeeds, and a call has no effect only if it stops at the first file (`deleteKeys_iff`).
-/

set_option autoImplicit false

namespace Client

open Lib

variable {Params PublicKey SecretKey RelinKeys : Type}

/-! ## The call -/

/-- `remove_file` -/
def removeFile (files : Files) (filename : String) : Bool × Files :=
  match files filename with
  | some _ => (true, Function.update files filename none)
  | none => (false, files)

/-- The kinds of the loop in `remove_keyfiles`: `i` goes from `kKindPubKey` to `kKindParam`. -/
def KeyKind.removed : List KeyKind := [.pubKey, .secKey, .galoisKey, .relinKey, .param]

example : KeyKind.removed.map KeyKind.value = [0, 1, 2, 3, 4] := rfl

/-- The loop of `KeyContainer::Impl::remove_keyfiles`. An exception leaves what has been removed before. -/
def removeKeyfiles (names : KeyFilenames) : List KeyKind → Files → Except KeyError Unit × Files
  | [], files => (.ok (), files)
  | key :: keys, files =>
    match names.filename key with
    | .error e => (.error e, files)
    | .ok filename =>
      match removeFile files filename with
      | (true, files) => removeKeyfiles names keys files
      | (false, files) => (.error (.file ("Failed to remove file. (" ++ filename ++ ")")), files)

/-- `KeyContainer::Impl::delete_keys` -/
def KeyStore.deleteKeys (s : KeyStore) (keyId : ℤ) : Except KeyError Unit × KeyStore :=
  match s.map.find? keyId with
  | none => (.error .outOfRange, s)
  | some names =>
    match removeKeyfiles names KeyKind.removed s.files with
    | (.ok (), files) => (.ok (), ⟨s.map.erase keyId, files⟩)
    | (.error e, files) => (.error e, { s with files })

variable {s : KeyStore} {id : ℤ}

theorem deleteKeys_unknown (h : s.map.find? id = none) : s.deleteKeys id = (.error .outOfRange, s) := by
  rw [KeyStore.deleteKeys, h]

/-- The public key file is the first to be removed. -/
theorem deleteKeys_no_pubKey (hmap : s.map.find? id = some (.new id))
    (hpub : s.files ("pubkey_" ++ id.repr) = none) :
    s.deleteKeys id = (.error (.file ("Failed to remove file. (" ++ ("pubkey_" ++ id.repr) ++ ")")), s) := by
  have hname : (KeyFilenames.new id).filename .pubKey = .ok ("pubkey_" ++ id.repr) :=
    KeyFilenames.filename_new rfl
  rw [KeyStore.deleteKeys, hmap]
  simp only [KeyKind.removed, removeKeyfiles, hname, removeFile, hpub]

/-- Once it is removed, the call raises an error. -/
theorem deleteKeys_pubKey (hmap : s.map.find? id = some (.new id)) {content : List UInt8}
    (hpub : s.files ("pubkey_" ++ id.repr) = some content) :
    ∃ e files, s.deleteKeys id = (.error e, { s with files }) ∧ files ("pubkey_" ++ id.repr) = none := by
  have hname : (KeyFilenames.new id).filename .pubKey = .ok ("pubkey_" ++ id.repr) :=
    KeyFilenames.filename_new rfl
  have hname' : (KeyFilenames.new id).filename .secKey = .ok ("seckey_" ++ id.repr) :=
    KeyFilenames.filename_new rfl
  have hgalois : (KeyFilenames.new id).filename .galoisKey = .error .outOfRange := rfl
  rw [KeyStore.deleteKeys, hmap]
  simp only [KeyKind.removed, removeKeyfiles, hname, hname', hgalois, removeFile, hpub]
  cases hsec : Function.update s.files ("pubkey_" ++ id.repr) none ("seckey_" ++ id.repr) with
  | none => exact ⟨_, _, rfl, Function.update_self _ _ _⟩
  | some content' =>
    refine ⟨_, _, rfl, ?_⟩
    rw [Function.update_apply]
    split
    · rfl
    · exact Function.update_self _ _ _

/-! ## Runs -/

inductive DeleteAction where
  | key (action : KeyAction)
  | deleteKeys (keyId : ℤ)
  /-- another program writes or removes a file -/
  | setFile (filename : String) (content : Option (List UInt8))

/-- The call does all it should, or nothing. -/
structure DeletesWhole (s : KeyStore) (id : ℤ) : Prop where
  /-- with all files present it removes the files of the id and its entry, and no others -/
  complete : ∀ names, s.map.find? id = some names →
    (∀ kind filename, names.filenames kind = some filename → (s.files filename).isSome) →
    ∃ s', s.deleteKeys id = (.ok (), s') ∧ s'.map.find? id = none ∧
      (∀ id' ≠ id, s'.map.find? id' = s.map.find? id') ∧
      (∀ kind filename, names.filenames kind = some filename → s'.files filename = none) ∧
      ∀ filename, (∀ kind, names.filenames kind ≠ some filename) → s'.files filename = s.files filename
  unchanged : ∀ e s', s.deleteKeys id = (.error e, s') → s' = s

/-- A call that fails at once has no effect, and is no fault if a file is missing. -/
theorem deletesWhole_of_error {e : KeyError} (hdelete : s.deleteKeys id = (.error e, s))
    (hmissing : ∀ names, s.map.find? id = some names →
      ∃ kind filename, names.filenames kind = some filename ∧ s.files filename = none) :
    DeletesWhole s id := by
  constructor
  · intro names hnames hfiles
    obtain ⟨kind, filename, hname, hnone⟩ := hmissing names hnames
    have hpresent := hfiles kind filename hname
    rw [hnone] at hpresent
    cases hpresent
  · intro e' s' he
    exact (congrArg Prod.snd (hdelete.symm.trans he)).symm

namespace KeyConfig

variable (P : KeyConfig Params PublicKey SecretKey RelinKeys)

def deleteStep (s : KeyState Params PublicKey SecretKey RelinKeys) :
    DeleteAction → Option (KeyState Params PublicKey SecretKey RelinKeys)
  | .key action => P.step s action
  | .deleteKeys keyId => some { s with store := (s.store.deleteKeys keyId).2 }
  | .setFile filename content =>
    some { s with store := { s.store with files := Function.update s.store.files filename content } }

/-- The container with `delete_keys`, on a disk that others write to. -/
def deleteSystem : System (KeyState Params PublicKey SecretKey RelinKeys) DeleteAction where
  init := P.system.init
  step := P.deleteStep

variable {P}

theorem namesMatch_newKeys {store : KeyStore} (h : NamesMatch store.map) (now : ℕ)
    (generated : Except String (KeySet Params PublicKey SecretKey RelinKeys)) :
    NamesMatch (P.newKeys store now generated).2.map := by
  obtain ⟨e, -, hnew⟩ | ⟨keys, files', -, hnew, -⟩ := newKeys_eq (P := P) h now generated
  · rw [hnew]
    exact h.emplace _
  · rw [hnew]
    exact h.emplace _

/-- No call of `delete_keys` removes an entry. -/
theorem map_deleteKeys {store : KeyStore} (h : NamesMatch store.map) (id : ℤ) :
    (store.deleteKeys id).2.map = store.map := by
  cases hmap : store.map.find? id with
  | none => rw [deleteKeys_unknown hmap]
  | some names =>
    rw [h id names hmap] at hmap
    cases hpub : store.files ("pubkey_" ++ id.repr) with
    | none => rw [deleteKeys_no_pubKey hmap hpub]
    | some content =>
      obtain ⟨e, files, hdelete, -⟩ := deleteKeys_pubKey hmap hpub
      rw [hdelete]

theorem namesMatch_reachable {s : KeyState Params PublicKey SecretKey RelinKeys}
    (h : P.deleteSystem.Reachable System.anyStep s) : NamesMatch s.store.map := by
  refine h.invariant (I := fun s => NamesMatch s.store.map) (fun s hs => ?_)
    (fun s action s' hs _ hstep => ?_)
  · obtain ⟨now, files, rfl⟩ := hs
    intro id names h
    simp [OrdMap.find?] at h
  · cases action with
    | key action =>
      cases action with
      | tick seconds =>
        cases hstep
        exact hs
      | newKeys power level =>
        cases hstep
        exact namesMatch_newKeys hs _ _
    | deleteKeys keyId =>
      cases hstep
      show NamesMatch (s.store.deleteKeys keyId).2.map
      rw [map_deleteKeys hs]
      exact hs
    | setFile filename content =>
      cases hstep
      exact hs

/-- In every reachable state, a call of `delete_keys` deletes all of the keys or changes nothing exactly if
it raises its error before it has removed a file: the id is unknown, or has no public key file. -/
theorem deleteKeys_iff (P : KeyConfig Params PublicKey SecretKey RelinKeys)
    {s : KeyState Params PublicKey SecretKey RelinKeys} (h : P.deleteSystem.Reachable System.anyStep s)
    (id : ℤ) : DeletesWhole s.store id ↔
      s.store.map.find? id = none ∨ s.store.files ("pubkey_" ++ id.repr) = none := by
  have hnames := namesMatch_reachable h
  constructor
  · intro hwhole
    by_contra hne
    push Not at hne
    obtain ⟨names, hmap⟩ := Option.ne_none_iff_exists'.1 hne.1
    obtain ⟨content, hpub⟩ := Option.ne_none_iff_exists'.1 hne.2
    rw [hnames id names hmap] at hmap
    obtain ⟨e, files, hdelete, hgone⟩ := deleteKeys_pubKey hmap hpub
    have hsame := congrArg KeyStore.files (hwhole.unchanged e _ hdelete)
    dsimp only at hsame
    rw [hsame, hpub] at hgone
    cases hgone
  · intro hcond
    cases hmap : s.store.map.find? id with
    | none =>
      refine deletesWhole_of_error (deleteKeys_unknown hmap) fun names hnames' => ?_
      cases hmap.symm.trans hnames'
    | some names =>
      obtain rfl := hnames id names hmap
      have hpub := hcond.resolve_left (by rw [hmap]; exact Option.some_ne_none _)
      refine deletesWhole_of_error (deleteKeys_no_pubKey hmap hpub) fun names' hnames' => ?_
      obtain rfl := Option.some.inj (hmap.symm.trans hnames')
      exact ⟨.pubKey, _, rfl, hpub⟩

/-- With all its files present, the keys of an id are deleted in part. -/
theorem deleteKeys_iff_differs : ∃ s, sampleKeys.deleteSystem.Reachable System.anyStep s ∧
    (∀ kind filename, (KeyFilenames.new 100).filenames kind = some filename →
      (s.store.files filename).isSome) ∧
    (s.store.deleteKeys 100).1 = .error .outOfRange ∧
    (s.store.deleteKeys 100).2.files "pubkey_100" = none ∧
    (s.store.deleteKeys 100).2.files "seckey_100" = none ∧ ¬DeletesWhole s.store 100 := by
  have hrun : ((sampleKeys.deleteSystem.run System.anyStep sampleStart [.key (.newKeys 14 5)]).map fun s =>
      ((["pubkey_100", "seckey_100", "relinkey_100", "param_100"].all fun name =>
        (s.store.files name).isSome), (s.store.deleteKeys 100).1,
        (s.store.deleteKeys 100).2.files "pubkey_100", (s.store.deleteKeys 100).2.files "seckey_100",
        s.store.files "pubkey_100")) =
      some (true, .error .outOfRange, none, none, some [0]) := rfl
  obtain ⟨s, hs, hvalues⟩ := Option.map_eq_some_iff.1 hrun
  simp only [Prod.mk.injEq, List.all_cons, List.all_nil, Bool.and_true, Bool.and_eq_true] at hvalues
  obtain ⟨⟨hpub, hsec, hrelin, hparam⟩, herror, hgone, hgone', hbefore⟩ := hvalues
  refine ⟨s, System.Reachable.run (.init ⟨100, _, rfl⟩) hs, ?_, herror, hgone, hgone', fun hwhole => ?_⟩
  · intro kind filename hname
    cases kind <;> cases hname <;> assumption
  · have hsame := hwhole.unchanged .outOfRange _ (Prod.ext herror rfl)
    have hfile := congrArg (fun s' => s'.files "pubkey_100") hsame
    cases hbefore.symm.trans (hfile.symm.trans hgone)

theorem deleteKeys_iff_sample : ∃ s, sampleKeys.deleteSystem.Reachable System.anyStep s ∧
    s.store.map.keys = [100] ∧ DeletesWhole s.store 100 := by
  have hrun : ((sampleKeys.deleteSystem.run System.anyStep sampleStart
      [.key (.newKeys 14 5), .setFile "pubkey_100" none]).map fun s =>
        (s.store.map.keys, s.store.files "pubkey_100")) = some ([100], none) := by decide
  obtain ⟨s, hs, hvalues⟩ := Option.map_eq_some_iff.1 hrun
  obtain ⟨hkeys, hpub⟩ := Prod.mk.inj hvalues
  have hreach : sampleKeys.deleteSystem.Reachable System.anyStep s :=
    System.Reachable.run (.init ⟨100, _, rfl⟩) hs
  exact ⟨s, hreach, hkeys, (deleteKeys_iff sampleKeys hreach 100).2 (.inr hpub)⟩

end KeyConfig

end Client
