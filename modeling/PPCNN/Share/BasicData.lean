import PPCNN.Lib.ByteStream

/-!
# Data on a stream (`ppcnn_basicdata.hpp`, `ppcnn_plaindata.hpp`, `ppcnn_encdata.cpp`, `ppcnn_seal_utility.cpp`)

`PlainData` and `EncData` hold a vector, and write it after its length. An object of SEAL is written by
its `save` and read by its `load`: `Codec` stands for the two, and `Codec.RoundTrips` is what is
assumed of them for an object.
-/

set_option autoImplicit false

namespace Share

open Lib

variable {T V Ctx Obj Params Ct : Type}

/-! ## BasicData -/

namespace BasicData

/-- `BasicData::data`. -/
def data : List V → Except Fault V
  | [] => throw (.thrown "Data is empty.")
  | v :: _ => return v

/-- `BasicData::vdata`. -/
def vdata (vec : List V) : Except Fault (List V) :=
  if 0 < vec.length then return vec
  else throw (.thrown "Data is empty.")

theorem vdata_nil : vdata ([] : List V) = .error (.thrown "Data is empty.") := rfl

theorem vdata_of_ne_nil {vec : List V} (hne : vec ≠ []) : vdata vec = .ok vec :=
  if_pos (List.length_pos_iff.2 hne)

end BasicData

/-- `is.read` into a `size_t`, which has no value before. -/
def readSize (is : ByteStream) : Except Fault (UInt64 × ByteStream) :=
  let (bs, is) := is.read Fixed.sizeT.width
  match Memory.bytes? (Memory.store (List.replicate Fixed.sizeT.width none) bs) with
  | some bs => .ok (Fixed.sizeT.decode bs, is)
  | none => .error .unread

theorem readSize_unread {is : ByteStream} {done todo : List UInt8} {sz : UInt64}
    (h : is.Unread done (Fixed.sizeT.encode sz ++ todo)) :
    ∃ is', readSize is = .ok (sz, is') ∧ is'.Unread (done ++ Fixed.sizeT.encode sz) todo := by
  obtain ⟨hbs, hrest⟩ := h.read (Fixed.sizeT.length_encode sz)
  refine ⟨_, ?_, hrest⟩
  have hstore : Memory.store (List.replicate Fixed.sizeT.width none) (Fixed.sizeT.encode sz) =
      (Fixed.sizeT.encode sz).map some :=
    Memory.store_of_length (by rw [Fixed.length_encode, List.length_replicate])
  rw [readSize]
  simp only [hbs, hstore, Memory.bytes?_map_some, Fixed.decode_encode]

theorem readSize_take {is : ByteStream} {done todo : List UInt8} (h : is.Unread done todo)
    (hlen : 8 ≤ todo.length) :
    ∃ is', readSize is = .ok (Fixed.sizeT.decode (todo.take 8), is') ∧
      is'.Unread (done ++ todo.take 8) (todo.drop 8) := by
  obtain ⟨hbs, hrest⟩ := h.read_take hlen
  refine ⟨_, ?_, hrest⟩
  have hstore : Memory.store (List.replicate Fixed.sizeT.width none) (todo.take 8) =
      (todo.take 8).map some :=
    Memory.store_of_length (by rw [List.length_take_of_le hlen, List.length_replicate]; rfl)
  have hwidth : Fixed.sizeT.width = 8 := rfl
  rw [readSize]
  simp only [hwidth] at hstore ⊢
  simp only [hbs, hstore, Memory.bytes?_map_some]

/-- A count that is cut off is used without its last bytes. -/
theorem readSize_short {is : ByteStream} {done todo : List UInt8} (h : is.Unread done todo)
    (hlen : todo.length < 8) : readSize is = .error .unread := by
  have hbs := h.read_short hlen.le
  have hwidth : Fixed.sizeT.width = 8 := rfl
  have hnone : none ∈ Memory.store (List.replicate 8 none) todo := by
    rw [Memory.store, List.drop_replicate]
    exact List.mem_append_right _ (List.mem_replicate.2 ⟨by omega, rfl⟩)
  rw [readSize]
  simp only [hwidth]
  simp only [hbs, Memory.bytes?_of_none hnone]

/-! ## PlainData -/

namespace PlainData

variable (L : Layout T)

/-- What `save` writes: the number of elements and the bytes of each. -/
def chunks (vec : List T) : List (List UInt8) :=
  Fixed.sizeT.encode (.ofNat vec.length) :: vec.map L.encode

/-- `PlainData::save`. -/
def save {σ : Type} [OStream σ] (vec : List T) (os : σ) : σ × UInt64 :=
  if vec.length = 0 then (os, -1)
  else (writeAll os (chunks L vec), 0)

/-- `BasicData::stream_size`. -/
def streamSize (vec : List T) : UInt64 := .ofNat (save L vec ([] : List UInt8)).1.length

/-- The loop of `load`: `n` objects, each with what a read into it has left. -/
def loadElements : ℕ → ByteStream → List Memory × ByteStream
  | 0, is => ([], is)
  | n + 1, is =>
    let (bs, is) := is.read L.width
    let (vec, is) := loadElements n is
    (L.init.store bs :: vec, is)

/-- `PlainData::load`. -/
def load (is : ByteStream) : Except Fault (List Memory × ByteStream) := do
  let (sz, is) ← readSize is
  return loadElements L sz.toNat is

variable {L}

theorem save_eq {σ : Type} [OStream σ] {vec : List T} (hne : vec ≠ []) (os : σ) :
    save L vec os = (writeAll os (chunks L vec), 0) := by
  rw [save, if_neg]
  rw [List.length_eq_zero_iff]
  exact hne

theorem streamSize_eq {vec : List T} (hne : vec ≠ []) :
    streamSize L vec = .ofNat (chunks L vec).flatten.length := by
  rw [streamSize, save_eq hne, writeAll_list, List.nil_append]

theorem length_chunks_flatten (vec : List T) :
    (chunks L vec).flatten.length = 8 + vec.length * L.width := by
  rw [chunks, List.flatten_cons, List.length_append, Fixed.length_encode, ← List.flatMap_def]
  have hrest : (vec.flatMap L.encode).length = vec.length * L.width := by
    induction vec with
    | nil => simp
    | cons v vec ih =>
      rw [List.flatMap_cons, List.length_append, L.length_encode, ih, List.length_cons]
      ring
  rw [hrest]
  rfl

theorem loadElements_unread {vec : List T} {is : ByteStream} {done todo : List UInt8}
    (h : is.Unread done (vec.flatMap L.encode ++ todo)) :
    ∃ is', loadElements L vec.length is = (vec.map fun v => (L.encode v).map some, is') ∧
      is'.Unread (done ++ vec.flatMap L.encode) todo := by
  induction vec generalizing is done with
  | nil => exact ⟨is, rfl, by simpa using h⟩
  | cons v vec ih =>
    rw [List.flatMap_cons, List.append_assoc] at h
    obtain ⟨hbs, hrest⟩ := h.read (L.length_encode v)
    obtain ⟨is', hload, hend⟩ := ih hrest
    have hv : L.init.store (L.encode v) = (L.encode v).map some :=
      Memory.store_of_length (by rw [L.length_encode, L.length_init])
    refine ⟨is', ?_, by rw [List.flatMap_cons, ← List.append_assoc]; exact hend⟩
    simp only [List.length_cons, loadElements, hbs, hload, hv, List.map_cons]

/-- `load` appends as many objects as the count says, read or not. -/
theorem length_loadElements (n : ℕ) (is : ByteStream) : (loadElements L n is).1.length = n := by
  induction n generalizing is with
  | zero => rfl
  | succ n ih => rw [loadElements, List.length_cons, ih]

theorem loadElements_take {n : ℕ} {is : ByteStream} {done todo : List UInt8} (h : is.Unread done todo)
    (hlen : n * L.width ≤ todo.length) :
    ∃ vec is', loadElements L n is = (vec, is') ∧
      (∀ m rest, vec = m :: rest → m = (todo.take L.width).map some) ∧
      is'.Unread (done ++ todo.take (n * L.width)) (todo.drop (n * L.width)) := by
  induction n generalizing is done todo with
  | zero => exact ⟨[], is, rfl, nofun, by simpa using h⟩
  | succ n ih =>
    rw [Nat.succ_mul] at hlen
    obtain ⟨hbs, hrest⟩ := h.read_take (n := L.width) (by omega)
    obtain ⟨vec, is', hload, -, hend⟩ := ih hrest (by rw [List.length_drop]; omega)
    have hstore : L.init.store (todo.take L.width) = (todo.take L.width).map some :=
      Memory.store_of_length (by rw [List.length_take_of_le (by omega), L.length_init])
    refine ⟨(todo.take L.width).map some :: vec, is', ?_, ?_, ?_⟩
    · rw [loadElements]
      simp only [hbs, hload, hstore]
    · rintro m rest heq
      exact (List.cons.inj heq).1.symm
    · rw [Nat.succ_mul, Nat.add_comm, List.take_add, ← List.append_assoc, ← List.drop_drop]
      exact hend

theorem load_unread {vec : List T} {is : ByteStream} {done todo : List UInt8}
    (hlen : vec.length < 2 ^ 64) (h : is.Unread done ((chunks L vec).flatten ++ todo)) :
    ∃ is', load L is = .ok (vec.map fun v => (L.encode v).map some, is') ∧
      is'.Unread (done ++ (chunks L vec).flatten) todo := by
  rw [chunks, List.flatten_cons, List.append_assoc, ← List.flatMap_def] at h
  obtain ⟨is1, hsize, h1⟩ := readSize_unread h
  obtain ⟨is2, helements, h2⟩ := loadElements_unread h1
  refine ⟨is2, ?_, ?_⟩
  · rw [load, bind_of_ok hsize]
    simp only [pure_eq_ok, UInt64.toNat_ofNat_of_lt' hlen, helements]
  · rw [chunks, List.flatten_cons, ← List.flatMap_def, ← List.append_assoc]
    exact h2

end PlainData

/-! ## Objects of SEAL -/

/-- What a `load` gives: the object, the number of bytes it has taken and the number it returns. -/
structure Loaded (Obj : Type) where
  object : Obj
  taken : ℕ
  returned : ℕ

/-- `save`, the bytes it writes and the number it returns, and `load`, on the bytes to come. -/
structure Codec (Ctx Obj : Type) where
  save : Obj → List UInt8 × ℕ
  load : Ctx → List UInt8 → Except String (Loaded Obj)

namespace Codec

variable (C : Codec Ctx Obj)

/-- `save` writes the number of bytes it returns, and `load` takes these and returns the object. -/
structure RoundTrips (ctx : Ctx) (x : Obj) : Prop where
  saved_eq : (C.save x).2 = (C.save x).1.length
  load_eq : ∀ rest, C.load ctx ((C.save x).1 ++ rest) =
    .ok ⟨x, (C.save x).1.length, (C.save x).1.length⟩

/-- `save` to a string stream. -/
def saveTo (x : Obj) (oss : List UInt8) : List UInt8 × ℕ := (oss ++ (C.save x).1, (C.save x).2)

/-- `load` from a stream, with the number it returns. -/
def loadFrom (ctx : Ctx) (is : ByteStream) : Except Fault (Obj × ℕ × ByteStream) :=
  if is.failed then throw (.thrown "ios_base::failure")
  else
    match C.load ctx (is.bytes.drop is.getPos) with
    | .ok l => return (l.object, l.returned, { is with getPos := is.getPos + l.taken })
    | .error e => throw (.thrown e)

variable {C} {ctx : Ctx} {x : Obj}

section Unread

variable {is : ByteStream} {done todo : List UInt8} (his : is.Unread done todo)

include his

theorem loadFrom_unread {l : Loaded Obj} (h : C.load ctx todo = .ok l) :
    C.loadFrom ctx is = .ok (l.object, l.returned, { is with getPos := is.getPos + l.taken }) := by
  rw [Codec.loadFrom, if_neg (by simp [his.good]), his.drop_getPos, h]
  rfl

theorem loadFrom_unread_error {e : String} (h : C.load ctx todo = .error e) :
    C.loadFrom ctx is = .error (.thrown e) := by
  rw [Codec.loadFrom, if_neg (by simp [his.good]), his.drop_getPos, h]
  rfl

end Unread

theorem RoundTrips.saveTo_nil (h : C.RoundTrips ctx x) :
    C.saveTo x [] = ((C.save x).1, (C.save x).1.length) := by
  rw [saveTo, List.nil_append, h.saved_eq]

theorem RoundTrips.loadFrom (h : C.RoundTrips ctx x) {is : ByteStream} {done todo : List UInt8}
    (his : is.Unread done ((C.save x).1 ++ todo)) :
    ∃ is', C.loadFrom ctx is = .ok (x, (C.save x).1.length, is') ∧
      is'.Unread (done ++ (C.save x).1) todo := by
  refine ⟨{ is with getPos := is.getPos + (C.save x).1.length }, ?_, ?_, ?_, his.good⟩
  · exact Codec.loadFrom_unread his (h.load_eq todo)
  · rw [List.append_assoc]
    exact his.bytes_eq
  · simp [his.getPos_eq]

end Codec

namespace Codec

/-- `load` takes at least one byte and no more than there are, and returns how many. -/
structure Bounded (C : Codec Ctx Obj) : Prop where
  taken_pos : ∀ {ctx bs l}, C.load ctx bs = .ok l → 0 < l.taken
  taken_le : ∀ {ctx bs l}, C.load ctx bs = .ok l → l.taken ≤ bs.length
  returned_eq : ∀ {ctx bs l}, C.load ctx bs = .ok l → l.returned = l.taken

theorem loadFrom_avoids (C : Codec Ctx Obj) (ctx : Ctx) (is : ByteStream) {e : Fault}
    (he : ∀ what, .thrown what ≠ e) : Avoids e (C.loadFrom ctx is) := by
  unfold loadFrom
  split
  · exact avoids_error (he _)
  · split
    · exact avoids_ok _ _
    · exact avoids_error (he _)

end Codec

/-! ## EncData -/

namespace EncData

variable (C : Codec Params Ct)

/-- `EncData::EncData` from a pointer to ciphertexts and their number. -/
def ofArray (ctxts : List Ct) (n : ℕ) : Except Fault (List Ct) :=
  if n ≤ ctxts.length then return ctxts.take n
  else throw .outOfBuffer

/-- The loop of `save`, with the number of bytes saved before. -/
def saveElements : List Ct → List UInt8 → ℕ → List UInt8 × ℕ
  | [], oss, savedBytes => (oss, savedBytes)
  | v :: vec, oss, savedBytes =>
    let (oss, saved) := C.saveTo v oss
    saveElements vec oss (savedBytes + saved)

/-- `EncData::save`. -/
def save (vec : List Ct) (oss : List UInt8) : List UInt8 × ℕ :=
  saveElements C vec (oss ++ Fixed.sizeT.encode (.ofNat vec.length)) Fixed.sizeT.width

/-- `BasicData::stream_size`. -/
def streamSize (vec : List Ct) : UInt64 := .ofNat (save C vec []).1.length

/-- The loop of `load`: the ciphertexts, and the number of bytes they have been loaded from. -/
def loadElements (params : Params) : ℕ → ByteStream → Except Fault (List Ct × ℕ × ByteStream)
  | 0, is => return ([], 0, is)
  | n + 1, is => do
    let (ctxt, loaded, is) ← C.loadFrom params is
    let (vec, loadedBytes, is) ← loadElements params n is
    return (ctxt :: vec, loaded + loadedBytes, is)

/-- `EncData::load`. -/
def load (params : Params) (is : ByteStream) : Except Fault (List Ct × ℕ × ByteStream) := do
  let (sz, is) ← readSize is
  let (vec, loadedBytes, is) ← loadElements C params sz.toNat is
  return (vec, Fixed.sizeT.width + loadedBytes, is)

/-- The bytes that `save` writes. -/
def image (vec : List Ct) : List UInt8 :=
  Fixed.sizeT.encode (.ofNat vec.length) ++ vec.flatMap fun v => (C.save v).1

variable {C} {params : Params} {vec : List Ct}

theorem saveElements_eq (h : ∀ v ∈ vec, C.RoundTrips params v) (oss : List UInt8) (n : ℕ) :
    saveElements C vec oss n =
      (oss ++ vec.flatMap fun v => (C.save v).1, n + (vec.flatMap fun v => (C.save v).1).length) := by
  induction vec generalizing oss n with
  | nil => simp [saveElements]
  | cons v vec ih =>
    have hv := (h v List.mem_cons_self).saved_eq
    simp only [saveElements, Codec.saveTo, hv]
    rw [ih fun v' hv' => h v' (List.mem_cons_of_mem v hv')]
    simp only [List.flatMap_cons, List.length_append, List.append_assoc, Nat.add_assoc]

theorem save_nil (h : ∀ v ∈ vec, C.RoundTrips params v) :
    save C vec [] = (image C vec, (image C vec).length) := by
  rw [save, saveElements_eq h, image, List.nil_append, List.length_append, Fixed.length_encode]

theorem loadElements_unread (h : ∀ v ∈ vec, C.RoundTrips params v) {is : ByteStream}
    {done todo : List UInt8} (his : is.Unread done ((vec.flatMap fun v => (C.save v).1) ++ todo)) :
    ∃ is', loadElements C params vec.length is =
        .ok (vec, (vec.flatMap fun v => (C.save v).1).length, is') ∧
      is'.Unread (done ++ vec.flatMap fun v => (C.save v).1) todo := by
  induction vec generalizing is done with
  | nil => exact ⟨is, rfl, by simpa using his⟩
  | cons v vec ih =>
    rw [List.flatMap_cons, List.append_assoc] at his
    obtain ⟨is1, hload, h1⟩ := (h v List.mem_cons_self).loadFrom his
    obtain ⟨is2, hrest, h2⟩ := ih (fun v' hv' => h v' (List.mem_cons_of_mem v hv')) h1
    refine ⟨is2, ?_, by rw [List.flatMap_cons, ← List.append_assoc]; exact h2⟩
    rw [List.length_cons, loadElements, hload, ok_bind]
    simp only [hrest, ok_bind, pure_eq_ok, List.flatMap_cons, List.length_append]

/-! ### What is appended -/

/-- The ciphertexts that the loop of `load` has appended when it ends, also by an exception. -/
def appendElements (C : Codec Params Ct) (params : Params) : ℕ → ByteStream → List Ct
  | 0, _ => []
  | n + 1, is =>
    match C.loadFrom params is with
    | .ok (ctxt, _, is) => ctxt :: appendElements C params n is
    | .error _ => []

/-- The ciphertexts that `load` has appended when it ends. -/
def appended (C : Codec Params Ct) (params : Params) (is : ByteStream) : List Ct :=
  match readSize is with
  | .ok (sz, is) => appendElements C params sz.toNat is
  | .error _ => []

theorem appendElements_eq {n : ℕ} {is is' : ByteStream} {loadedBytes : ℕ}
    (h : loadElements C params n is = .ok (vec, loadedBytes, is')) :
    appendElements C params n is = vec := by
  induction n generalizing is vec loadedBytes with
  | zero =>
    cases h
    rfl
  | succ n ih =>
    obtain ⟨⟨ctxt, loaded, is1⟩, hload, h⟩ := bind_eq_ok.1 h
    obtain ⟨⟨vec1, loadedBytes1, is2⟩, hrest, h⟩ := bind_eq_ok.1 h
    cases h
    rw [appendElements, hload]
    exact congrArg (List.cons ctxt) (ih hrest)

/-- What `load` returns is what it has appended. -/
theorem appended_eq {is is' : ByteStream} {loadedBytes : ℕ}
    (h : load C params is = .ok (vec, loadedBytes, is')) : appended C params is = vec := by
  obtain ⟨⟨sz, is1⟩, hsize, h⟩ := bind_eq_ok.1 h
  obtain ⟨⟨vec1, loadedBytes1, is2⟩, helements, h⟩ := bind_eq_ok.1 h
  cases h
  rw [appended, hsize]
  exact appendElements_eq helements

/-- Each ciphertext takes a byte, so the count alone appends nothing. -/
theorem length_appendElements_le (hC : C.Bounded) (n : ℕ) (is : ByteStream) :
    (appendElements C params n is).length ≤ is.size - is.getPos := by
  induction n generalizing is with
  | zero => exact Nat.zero_le _
  | succ n ih =>
    unfold appendElements Codec.loadFrom
    split
    · rename_i ctxt loaded is' hload
      split at hload
      · cases hload
      · split at hload
        · rename_i l hl
          cases hload
          have hpos := hC.taken_pos hl
          have hle := hC.taken_le hl
          have hrest := ih { is with getPos := is.getPos + l.taken }
          rw [List.length_drop, ByteStream.bytes, List.length_map] at hle
          simp only [ByteStream.size] at hrest ⊢
          rw [List.length_cons]
          omega
        · cases hload
    · exact Nat.zero_le _

theorem length_appended_le (hC : C.Bounded) (params : Params) (s : List UInt8) :
    (appended C params (.ofBytes s)).length ≤ s.length - 8 := by
  by_cases hlen : 8 ≤ s.length
  · have hs := ByteStream.unread_ofBytes s
    obtain ⟨is, hsize, his⟩ := readSize_take hs hlen
    have happend : (appendElements C params (Fixed.sizeT.decode (s.take 8)).toNat is).length ≤
        is.size - is.getPos := length_appendElements_le hC _ _
    have hpos : is.getPos = 8 := by
      rw [his.getPos_eq, List.nil_append, List.length_take_of_le hlen]
    have htotal : is.size = s.length := by
      rw [his.size_eq, List.nil_append, List.length_take_of_le hlen, List.length_drop]
      omega
    rw [hpos, htotal] at happend
    rw [appended, hsize]
    exact happend
  · rw [appended, readSize_short (ByteStream.unread_ofBytes s) (by omega)]
    exact Nat.zero_le _

/-- `load` reads its count from a string, and otherwise throws or succeeds. -/
theorem load_avoids (C : Codec Params Ct) (params : Params) (s : List UInt8) :
    Avoids .outOfBuffer (load C params (.ofBytes s)) ∧
      (Avoids .unread (load C params (.ofBytes s)) ↔ 8 ≤ s.length) := by
  have helements : ∀ e : Fault, (∀ what, .thrown what ≠ e) → ∀ n is,
      Avoids e (loadElements C params n is) := by
    intro e he n
    induction n with
    | zero => exact fun is => avoids_ok _ _
    | succ n ih =>
      intro is
      refine (C.loadFrom_avoids params is he).bind fun _ _ => ?_
      exact (ih _).bind fun _ _ => avoids_ok _ _
  have hs := ByteStream.unread_ofBytes s
  by_cases hlen : 8 ≤ s.length
  · obtain ⟨is, hsize, -⟩ := readSize_take hs hlen
    rw [load, hsize, ok_bind]
    exact ⟨(helements .outOfBuffer nofun _ _).bind fun _ _ => avoids_ok _ _,
      iff_of_true ((helements .unread nofun _ _).bind fun _ _ => avoids_ok _ _) hlen⟩
  · rw [load, readSize_short hs (by omega), error_bind]
    exact ⟨avoids_error nofun, iff_of_false (fun h => h rfl) hlen⟩

theorem load_unread (h : ∀ v ∈ vec, C.RoundTrips params v) (hlen : vec.length < 2 ^ 64)
    {is : ByteStream} {done todo : List UInt8} (his : is.Unread done (image C vec ++ todo)) :
    ∃ is', load C params is = .ok (vec, (image C vec).length, is') ∧
      is'.Unread (done ++ image C vec) todo := by
  rw [image, List.append_assoc] at his
  obtain ⟨is1, hsize, h1⟩ := readSize_unread his
  obtain ⟨is2, helements, h2⟩ := loadElements_unread h h1
  refine ⟨is2, ?_, by rw [image, ← List.append_assoc]; exact h2⟩
  rw [load, hsize, ok_bind]
  simp only [UInt64.toNat_ofNat_of_lt' hlen, helements, ok_bind, pure_eq_ok, image,
    List.length_append, Fixed.length_encode]

end EncData

/-! ## seal_utility -/

namespace SealUtility

/-- `seal_utility::stream_size`. -/
def streamSize (C : Codec Ctx Obj) (x : Obj) : UInt64 := .ofNat (C.saveTo x []).1.length

/-- `seal_utility::write_to_binary_stream`, of data with the given `save`. -/
def writeToBinaryStream (stream : ByteStream) (save : List UInt8 → List UInt8 × ℕ)
    (shiftPosInStream : Bool) : Except Fault ByteStream := do
  let (oss, savedSz) := save []
  let stream ← stream.memcpy stream.tellp oss savedSz
  return if shiftPosInStream then stream.seekp savedSz else stream

/-- `seal_utility::read_from_binary_stream` of an object of SEAL. -/
def readFromBinaryStream (newString : ℕ → Except String Unit) (C : Codec Ctx Obj)
    (stream : ByteStream) (readSz : UInt64) (ctx : Ctx) (shiftPosInStream : Bool) :
    Except Fault (Obj × ByteStream) := do
  let s ← stream.range newString stream.tellg readSz.toNat
  let (data, loadedSz, _) ← C.loadFrom ctx (.ofBytes s)
  return (data, if shiftPosInStream then stream.seekg loadedSz else stream)

/-- `seal_utility::read_from_binary_stream` of an `EncData`: it seeks by what it was asked to read. -/
def readEncData (newString : ℕ → Except String Unit) (C : Codec Params Ct) (stream : ByteStream)
    (readSz : UInt64) (params : Params) (shiftPosInStream : Bool) :
    Except Fault (List Ct × ByteStream) := do
  let s ← stream.range newString stream.tellg readSz.toNat
  let (vec, _, _) ← EncData.load C params (.ofBytes s)
  return (vec, if shiftPosInStream then stream.seekg readSz.toNat else stream)

variable (newString : ℕ → Except String Unit) {stream : ByteStream} {out done todo : List UInt8}

theorem writeToBinaryStream_filled {save : List UInt8 → List UInt8 × ℕ} {bs : List UInt8} {room : ℕ}
    (hsave : save [] = (bs, bs.length)) (h : stream.Filled out (bs.length + room)) :
    ∃ stream', writeToBinaryStream stream save true = .ok stream' ∧ stream'.Filled (out ++ bs) room := by
  obtain ⟨copied, hcopy, hfilled⟩ := h.memcpy_seekp
  refine ⟨copied.seekp bs.length, ?_, hfilled⟩
  simp only [writeToBinaryStream, hsave, hcopy, ok_bind, if_true, pure_eq_ok]

theorem readFromBinaryStream_unread {C : Codec Ctx Obj} {ctx : Ctx} {x : Obj}
    (hx : C.RoundTrips ctx x) (hlen : (C.save x).1.length < 2 ^ 64)
    (h : stream.Unread done ((C.save x).1 ++ todo)) :
    ∃ stream', readFromBinaryStream newString C stream (streamSize C x) ctx true =
        .ok (x, stream') ∧
      stream'.Unread (done ++ (C.save x).1) todo := by
  have hs := ByteStream.unread_ofBytes ((C.save x).1 ++ [])
  obtain ⟨is, hload, -⟩ := hx.loadFrom hs
  rw [List.append_nil] at hload
  refine ⟨stream.seekg (C.save x).1.length, ?_, h.seekg⟩
  rw [readFromBinaryStream, streamSize, hx.saveTo_nil, UInt64.toNat_ofNat_of_lt' hlen,
    bind_of_ok (h.range newString), bind_of_ok hload]
  rfl

theorem readEncData_unread {C : Codec Params Ct} {params : Params} {vec : List Ct}
    (hvec : ∀ v ∈ vec, C.RoundTrips params v) (hcount : vec.length < 2 ^ 64)
    (hlen : (EncData.image C vec).length < 2 ^ 64)
    (h : stream.Unread done (EncData.image C vec ++ todo)) :
    ∃ stream', readEncData newString C stream (EncData.streamSize C vec) params true =
        .ok (vec, stream') ∧
      stream'.Unread (done ++ EncData.image C vec) todo := by
  have hs := ByteStream.unread_ofBytes (EncData.image C vec ++ [])
  obtain ⟨is, hload, -⟩ := EncData.load_unread hvec hcount hs
  rw [List.append_nil] at hload
  refine ⟨stream.seekg (EncData.image C vec).length, ?_, h.seekg⟩
  rw [readEncData, EncData.streamSize, EncData.save_nil hvec, UInt64.toNat_ofNat_of_lt' hlen,
    bind_of_ok (h.range newString), bind_of_ok hload]
  rfl

end SealUtility

end Share
