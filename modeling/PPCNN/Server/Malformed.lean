import PPCNN.Server.Messages

/-!
# Bytes from the network (`ppcnn_server_callback_function.cpp`)

The two handlers on arbitrary bytes. They trust every number they read: the count of a `PlainData`
drives its loop, the sizes in the header are lengths of strings that are made from the pointer to the
buffer, and no state of the stream is looked at. `malformed_contained`: a handler stays inside its buffer
exactly if the numbers in it are true, or too large for a string to be made before one of them is found
to be false; for each handler as a condition on the bytes.
-/

set_option autoImplicit false

namespace Server

open Lib Share

variable {Params PublicKey RelinKeys Ct Ctx Obj T Q α : Type}

/-! ## Outcomes -/

/-- The computation ends with a result or an exception of the program. -/
def Quiet (x : Except Fault α) : Prop := Avoids .outOfBuffer x ∧ Avoids .unread x

theorem quiet_ok (a : α) : Quiet (.ok a) := ⟨avoids_ok _ _, avoids_ok _ _⟩

theorem quiet_thrown (what : String) : Quiet (.error (.thrown what) : Except Fault α) :=
  ⟨avoids_error nofun, avoids_error nofun⟩

/-- What the handlers of keys and queries change: the key container, and the query queue through
`push_query`. -/
structure Receiver (Params PublicKey RelinKeys Q : Type) where
  container : KeyContainer (EncryptionKeys Params PublicKey RelinKeys)
  queue : Q

namespace Receiver

variable (S : SealCodecs Params PublicKey RelinKeys Ct)
  (push : DecodedQuery Params PublicKey RelinKeys Ct → Q → Q) (r : Receiver Params PublicKey RelinKeys Q)

/-- `CallbackFunctionEncryptionKeys` on the receiver. -/
def receiveEnckeys (buffer : List UInt8) : Except Fault Unit × Receiver Params PublicKey RelinKeys Q :=
  match callbackFunctionEncryptionKeys S r.container buffer with
  | .ok container => (.ok (), { r with container })
  | .error e => (.error e, r)

/-- `CallbackFunctionQuery` on the receiver. -/
def receiveQuery (buffer : List UInt8) : Except Fault Unit × Receiver Params PublicKey RelinKeys Q :=
  match callbackFunctionQuery S r.container buffer with
  | .ok query => (.ok (), { r with queue := push query r.queue })
  | .error e => (.error e, r)

end Receiver

/-- What a handler owes on the bytes it receives. -/
structure Contained (L : Layout T) (buffer : List UInt8) (r : Receiver Params PublicKey RelinKeys Q)
    (outcome : Except Fault Unit × Receiver Params PublicKey RelinKeys Q) : Prop where
  inBuffer : Avoids .outOfBuffer outcome.1
  read : Avoids .unread outcome.1
  /-- `PlainData::load` appends no object that the buffer has no bytes for -/
  appended : ∀ vec is, PlainData.load L (.ofBytes buffer) = .ok (vec, is) →
    8 + vec.length * L.width ≤ buffer.length
  unchanged : ∀ e, outcome.1 = .error e → outcome.2 = r

/-! ## The condition -/

/-- The count at the start of a message. -/
def elementCount (buffer : List UInt8) : ℕ := (Fixed.sizeT.decode (buffer.take 8)).toNat

/-- The bytes of the count are there, and those of the objects it counts. -/
def HasElements (L : Layout T) (buffer : List UInt8) : Prop :=
  8 ≤ buffer.length ∧ 8 + elementCount buffer * L.width ≤ buffer.length

/-- There is no room for a string of `sz` bytes: its constructor throws. -/
def Refused (newString : ℕ → Except String Unit) (sz : UInt64) : Prop :=
  ∃ what, newString sz.toNat = .error what

/-- The `sz` bytes of an object are there, and `next` holds of the object and of the bytes behind what
its `load` takes. Of bytes that are not there no string can be made. -/
def HasObject (newString : ℕ → Except String Unit) (C : Codec Ctx Obj) (ctx : Ctx) (sz : UInt64)
    (bytes : List UInt8) (next : Obj → List UInt8 → Prop) : Prop :=
  if sz.toNat ≤ bytes.length then
    ∀ l, C.load ctx (bytes.take sz.toNat) = .ok l → next l.object (bytes.drop l.taken)
  else Refused newString sz

/-- Behind the header, every object has the bytes that the header says. -/
def HasKeys (S : SealCodecs Params PublicKey RelinKeys Ct) (param rest : List UInt8) : Prop :=
  HasObject S.newString S.encParams () (C2SEnckeyParam.encParamsStreamSzField.value param) rest
    fun encParams rest =>
      HasObject S.newString S.pubkey encParams (C2SEnckeyParam.pubkeyStreamSzField.value param) rest
        fun _ rest =>
          HasObject S.newString S.relinkey encParams
            (C2SEnckeyParam.relinkeyStreamSzField.value param) rest fun _ _ => True

/-- If the key id is registered, the inputs have the bytes that the header says, their count among
them; or no string can be made of so many. -/
def HasInputs (newString : ℕ → Except String Unit)
    (container : KeyContainer (EncryptionKeys Params PublicKey RelinKeys)) (param rest : List UInt8) :
    Prop :=
  ∀ encKeys, container.getKeys (C2SQueryParam.keyIdField.value param).toInt = .ok encKeys →
    if (C2SQueryParam.encInputsStreamSzField.value param).toNat ≤ rest.length then
      8 ≤ (C2SQueryParam.encInputsStreamSzField.value param).toNat
    else Refused newString (C2SQueryParam.encInputsStreamSzField.value param)

/-- The condition on a message: where there is a first object, `next` holds of it and of what is behind
the counted objects. -/
def Truthful (L : Layout T) (buffer : List UInt8) (next : List UInt8 → List UInt8 → Prop) : Prop :=
  HasElements L buffer ∧ (elementCount buffer ≠ 0 →
    next ((buffer.drop 8).take L.width) (buffer.drop (8 + elementCount buffer * L.width)))

/-! ## Reading the header -/

/-- `PlainData::load` on arbitrary bytes, and what is done with the first object, if there is one. -/
theorem quiet_load {L : Layout T} {buffer : List UInt8}
    {f : List Memory × ByteStream → Except Fault α} {next : List UInt8 → List UInt8 → Prop}
    (hempty : ∀ stream, Quiet (f ([], stream)))
    (hf : ∀ param vec stream done rest, stream.Unread done rest →
      (Quiet (f (param.map some :: vec, stream)) ↔ next param rest)) :
    (Quiet (PlainData.load L (.ofBytes buffer) >>= f) ∧
      ∀ vec is, PlainData.load L (.ofBytes buffer) = .ok (vec, is) →
        8 + vec.length * L.width ≤ buffer.length) ↔ Truthful L buffer next := by
  have hs := ByteStream.unread_ofBytes buffer
  by_cases hlen : 8 ≤ buffer.length
  · obtain ⟨is, hsize, his⟩ := readSize_take hs hlen
    have hload : PlainData.load L (.ofBytes buffer) =
        .ok (PlainData.loadElements L (elementCount buffer) is) := by
      rw [PlainData.load, hsize]
      rfl
    by_cases hfit : 8 + elementCount buffer * L.width ≤ buffer.length
    · obtain ⟨vec, is', helements, hhead, hend⟩ := PlainData.loadElements_take (L := L) his
        (by rw [List.length_drop]; omega : elementCount buffer * L.width ≤ _)
      have hcount : vec.length = elementCount buffer := by
        rw [← PlainData.length_loadElements (L := L) (elementCount buffer) is, helements]
      rw [helements] at hload
      rw [List.drop_drop] at hend
      have happend : ∀ vec' is'', PlainData.load L (.ofBytes buffer) = .ok (vec', is'') →
          8 + vec'.length * L.width ≤ buffer.length := by
        intro vec' is'' h
        cases hload.symm.trans h
        rw [hcount]
        exact hfit
      rw [and_iff_left happend, hload, ok_bind, Truthful, and_iff_right ⟨hlen, hfit⟩]
      cases vec with
      | nil =>
        rw [← hcount]
        exact iff_of_true (hempty _) fun h => absurd rfl h
      | cons m vec =>
        obtain rfl := hhead m vec rfl
        have hne : elementCount buffer ≠ 0 := by
          rw [← hcount]
          exact Nat.succ_ne_zero _
        simp only [hne, ne_eq, not_false_eq_true, true_implies]
        exact hf _ _ _ _ _ hend
    · refine iff_of_false (fun h => hfit ?_) fun h => hfit h.1.2
      have happend := h.2 _ _ hload
      rwa [PlainData.length_loadElements] at happend
  · refine iff_of_false (fun h => h.1.2 ?_) fun h => hlen h.1.1
    rw [PlainData.load, readSize_short hs (by omega)]
    rfl

/-! ## Reading the objects -/

section

variable {newString : ℕ → Except String Unit}

/-- Bytes that are not there are read, unless the string refuses so many. -/
theorem quiet_range_short {stream : ByteStream} {done bytes : List UInt8}
    (h : stream.Unread done bytes) {sz : UInt64} (hlen : bytes.length < sz.toNat)
    (k : List UInt8 → Except Fault α) :
    Quiet (stream.range newString stream.tellg sz.toNat >>= k) ↔ Refused newString sz := by
  rw [h.range_short newString hlen, Refused]
  cases hnew : newString sz.toNat with
  | ok u => exact iff_of_false (fun hq => hq.1 rfl) (fun ⟨what, hwhat⟩ => nomatch hwhat)
  | error what => exact iff_of_true (quiet_thrown what) ⟨what, rfl⟩

/-- `read_from_binary_stream` of an object of SEAL, and what comes after it. -/
theorem quiet_readFromBinaryStream {C : Codec Ctx Obj} (hC : C.Bounded) {ctx : Ctx}
    {stream : ByteStream} {done bytes : List UInt8} (h : stream.Unread done bytes) (sz : UInt64)
    {k : Obj × ByteStream → Except Fault α} {next : Obj → List UInt8 → Prop}
    (hk : ∀ obj stream' done' rest, stream'.Unread done' rest →
      (Quiet (k (obj, stream')) ↔ next obj rest)) :
    Quiet (SealUtility.readFromBinaryStream newString C stream sz ctx true >>= k) ↔
      HasObject newString C ctx sz bytes next := by
  by_cases hlen : sz.toNat ≤ bytes.length
  · rw [SealUtility.readFromBinaryStream, bind_of_ok (h.range_take newString hlen), HasObject,
      if_pos hlen]
    cases hload : C.load ctx (bytes.take sz.toNat) with
    | error e =>
      rw [Codec.loadFrom_unread_error (ByteStream.unread_ofBytes _) hload]
      refine iff_of_true (quiet_thrown e) ?_
      rintro l hl
      cases hl
    | ok l =>
      rw [Codec.loadFrom_unread (ByteStream.unread_ofBytes _) hload]
      have hle := hC.taken_le hload
      rw [List.length_take_of_le hlen] at hle
      have hseek := h.seekg_take (hle.trans hlen)
      have hnext := hk l.object _ _ _ hseek
      simp only [ok_bind, if_true, pure_eq_ok, hC.returned_eq hload]
      rw [hnext]
      constructor
      · rintro hn l' hl'
        cases hl'
        exact hn
      · exact fun hn => hn l rfl
  · rw [SealUtility.readFromBinaryStream, bind_assoc, HasObject, if_neg hlen]
    exact quiet_range_short h (Nat.lt_of_not_le hlen) _

/-- `read_from_binary_stream` of an `EncData`: its count must be there. -/
theorem quiet_readEncData {C : Codec Params Ct} {params : Params} {stream : ByteStream}
    {done bytes : List UInt8} (h : stream.Unread done bytes) (sz : UInt64)
    {k : List Ct × ByteStream → Except Fault α} (hk : ∀ x, Quiet (k x)) :
    Quiet (SealUtility.readEncData newString C stream sz params true >>= k) ↔
      if sz.toNat ≤ bytes.length then 8 ≤ sz.toNat else Refused newString sz := by
  by_cases hlen : sz.toNat ≤ bytes.length
  · obtain ⟨hout, hunread⟩ := EncData.load_avoids C params (bytes.take sz.toNat)
    rw [List.length_take_of_le hlen] at hunread
    rw [SealUtility.readEncData, bind_of_ok (h.range_take newString hlen), if_pos hlen, ← hunread]
    cases hload : EncData.load C params (.ofBytes (bytes.take sz.toNat)) with
    | error e =>
      rw [hload, avoids_error_iff] at hout
      rw [error_bind, error_bind, Quiet, avoids_error_iff, avoids_error_iff, avoids_error_iff,
        and_iff_right hout]
    | ok x => exact iff_of_true (hk _) (avoids_ok _ _)
  · rw [SealUtility.readEncData, bind_assoc, if_neg hlen]
    exact quiet_range_short h (Nat.lt_of_not_le hlen) _

end

/-! ## The handlers -/

section

variable {S : SealCodecs Params PublicKey RelinKeys Ct}

/-- A handler that changes the receiver by its result only is contained when it is quiet and its header
load appends no more than there is. -/
theorem contained_iff {L : Layout T} {buffer : List UInt8} {r : Receiver Params PublicKey RelinKeys Q}
    {x : Except Fault α} {outcome : Except Fault Unit × Receiver Params PublicKey RelinKeys Q}
    (hok : ∀ a, x = .ok a → outcome.1 = .ok ()) (herror : ∀ e, x = .error e → outcome = (.error e, r)) :
    Contained L buffer r outcome ↔ Quiet x ∧
      ∀ vec is, PlainData.load L (.ofBytes buffer) = .ok (vec, is) →
        8 + vec.length * L.width ≤ buffer.length := by
  cases x with
  | ok a =>
    have h := hok a rfl
    refine ⟨fun hc => ⟨quiet_ok a, hc.appended⟩, fun hq => ⟨?_, ?_, hq.2, ?_⟩⟩
    · rw [h]
      exact avoids_ok _ _
    · rw [h]
      exact avoids_ok _ _
    · rw [h]
      exact nofun
  | error e =>
    rw [herror e rfl]
    refine ⟨fun hc => ⟨⟨avoids_error ?_, avoids_error ?_⟩, hc.appended⟩, fun hq =>
      ⟨avoids_error ?_, avoids_error ?_, hq.2, fun _ _ => rfl⟩⟩
    · exact avoids_error_iff.1 hc.inBuffer
    · exact avoids_error_iff.1 hc.read
    · exact avoids_error_iff.1 hq.1.1
    · exact avoids_error_iff.1 hq.1.2

theorem receiveEnckeys_contained (hparams : S.encParams.Bounded) (hpubkey : S.pubkey.Bounded)
    (hrelinkey : S.relinkey.Bounded) (r : Receiver Params PublicKey RelinKeys Q)
    (buffer : List UInt8) :
    Contained C2SEnckeyParam.layout buffer r (r.receiveEnckeys S buffer) ↔
      Truthful C2SEnckeyParam.layout buffer (HasKeys S) := by
  rw [contained_iff (x := callbackFunctionEncryptionKeys S r.container buffer)]
  · unfold callbackFunctionEncryptionKeys
    refine quiet_load (fun stream => quiet_thrown _) fun param vec stream done rest h => ?_
    simp only [BasicData.data, pure_eq_ok, ok_bind, Field.use_map_some]
    refine quiet_readFromBinaryStream hparams h _ fun encParams stream done rest h => ?_
    refine quiet_readFromBinaryStream hpubkey h _ fun pubkey stream done rest h => ?_
    exact quiet_readFromBinaryStream hrelinkey h _ fun relinkey stream done rest h =>
      iff_of_true (quiet_ok _) trivial
  · intro container h
    rw [Receiver.receiveEnckeys, h]
  · intro e h
    rw [Receiver.receiveEnckeys, h]

theorem receiveQuery_contained (push : DecodedQuery Params PublicKey RelinKeys Ct → Q → Q)
    (r : Receiver Params PublicKey RelinKeys Q) (buffer : List UInt8) :
    Contained C2SQueryParam.layout buffer r (r.receiveQuery S push buffer) ↔
      Truthful C2SQueryParam.layout buffer (HasInputs S.newString r.container) := by
  rw [contained_iff (x := callbackFunctionQuery S r.container buffer)]
  · unfold callbackFunctionQuery
    refine quiet_load (fun stream => quiet_thrown _) fun param vec stream done rest h => ?_
    simp only [BasicData.data, pure_eq_ok, ok_bind, Field.use_map_some]
    cases hkeys : r.container.getKeys (C2SQueryParam.keyIdField.value param).toInt with
    | error e =>
      refine iff_of_true (quiet_thrown e) fun encKeys hfound => ?_
      cases hkeys.symm.trans hfound
    | ok encKeys =>
      refine (quiet_readEncData h _ fun x => ?_).trans ?_
      · obtain ⟨encInputs, stream⟩ := x
        show Quiet (BasicData.vdata encInputs >>= _)
        unfold BasicData.vdata
        split
        · exact quiet_ok _
        · exact quiet_thrown _
      · exact ⟨fun hin encKeys' hfound => hin, fun hin => hin encKeys hkeys⟩
  · intro query h
    rw [Receiver.receiveQuery, h]
  · intro e h
    rw [Receiver.receiveQuery, h]

end

/-- On all bytes: a handler reads inside its buffer, uses what it has read, appends what there is, and
changes the receiver by a decoded message only, exactly if the numbers in the message are true up to one
that no string can be made of; and the loop of `EncData::load` never appends more than there are bytes for. -/
theorem malformed_contained (S : SealCodecs Params PublicKey RelinKeys Ct)
    (hparams : S.encParams.Bounded) (hpubkey : S.pubkey.Bounded) (hrelinkey : S.relinkey.Bounded)
    (hctxt : S.ctxt.Bounded) (push : DecodedQuery Params PublicKey RelinKeys Ct → Q → Q)
    (r : Receiver Params PublicKey RelinKeys Q) (buffer : List UInt8) :
    (Contained C2SEnckeyParam.layout buffer r (r.receiveEnckeys S buffer) ↔
      Truthful C2SEnckeyParam.layout buffer (HasKeys S)) ∧
    (Contained C2SQueryParam.layout buffer r (r.receiveQuery S push buffer) ↔
      Truthful C2SQueryParam.layout buffer (HasInputs S.newString r.container)) ∧
    ∀ params s, (EncData.appended S.ctxt params (.ofBytes s)).length ≤ s.length - 8 :=
  ⟨receiveEnckeys_contained hparams hpubkey hrelinkey r buffer, receiveQuery_contained push r buffer,
    EncData.length_appended_le hctxt⟩

section Sample

theorem sampleCodec_bounded (Ctx : Type) : (sampleCodec Ctx).Bounded where
  taken_pos {ctx bs l} h := by
    obtain ⟨n, bs, rfl, -, rfl⟩ := sampleCodec_load h
    exact Nat.succ_pos _
  taken_le {ctx bs l} h := by
    obtain ⟨n, bs, rfl, hle, rfl⟩ := sampleCodec_load h
    exact Nat.succ_le_succ hle
  returned_eq {ctx bs l} h := by
    obtain ⟨n, bs, rfl, -, rfl⟩ := sampleCodec_load h
    rfl

/-- A receiver with keys under one id. -/
def sampleReceiver : Receiver (List UInt8) (List UInt8) (List UInt8) ℕ where
  container := KeyContainer.registerKeys .empty 5 ⟨[7], [1, 2, 3], [4]⟩
  queue := 0

/-- A header whose first size is larger than what comes after it. -/
def overlongMessage : List UInt8 :=
  header C2SEnckeyParam.layout
    { keyId := 6, padding := .replicate 4 0, encParamsStreamSz := 1000, pubkeyStreamSz := 0
      relinkeyStreamSz := 0 } ++ [1, 7]

theorem malformed_contained_sample :
    (Contained C2SEnckeyParam.layout overlongMessage sampleReceiver
        (sampleReceiver.receiveEnckeys sampleSeal overlongMessage) ↔
      Truthful C2SEnckeyParam.layout overlongMessage (HasKeys sampleSeal)) ∧
    (Contained C2SQueryParam.layout overlongMessage sampleReceiver
        (sampleReceiver.receiveQuery sampleSeal (fun _ => Nat.succ) overlongMessage) ↔
      Truthful C2SQueryParam.layout overlongMessage (HasInputs sampleSeal.newString sampleReceiver.container)) ∧
    ∀ params s, (EncData.appended sampleSeal.ctxt params (.ofBytes s)).length ≤ s.length - 8 :=
  malformed_contained sampleSeal (sampleCodec_bounded _) (sampleCodec_bounded _)
    (sampleCodec_bounded _) (sampleCodec_bounded _) (fun _ => Nat.succ) sampleReceiver overlongMessage

/-- Of an empty message the count is used, of the other one bytes behind its end. -/
theorem malformed_contained_differs :
    (sampleReceiver.receiveEnckeys sampleSeal []).1 = .error .unread ∧
    (sampleReceiver.receiveEnckeys sampleSeal overlongMessage).1 = .error .outOfBuffer ∧
    (sampleReceiver.receiveQuery sampleSeal (fun _ => Nat.succ) []).1 = .error .unread :=
  ⟨rfl, rfl, rfl⟩

end Sample

end Server
