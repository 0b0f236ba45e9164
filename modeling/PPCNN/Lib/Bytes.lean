import Mathlib.Tactic.Ring

/-!
# Bytes of objects

Encodings of fixed width, and objects in memory:

* `Fixed α`: values of `α` as a fixed number of bytes, which decode to the value. Integers are
  little-endian. `Fixed.prod` puts two encodings one after the other.
* `Layout T`: how a trivially copyable type `T` lies in memory. `Field` is a part of it, at an offset.
* `Memory`: the bytes of an object, of which some may not have been given a value. `Field.use` is the
  use of a field, which is an error then.
-/

set_option autoImplicit false

namespace Lib

variable {α β γ T : Type}

/-! ## Little-endian numbers -/

/-- The low `w` bytes of a number, the lowest first. -/
def leBytes : ℕ → ℕ → List UInt8
  | 0, _ => []
  | w + 1, n => .ofNat n :: leBytes w (n / 2 ^ 8)

def leNat (bs : List UInt8) : ℕ := bs.foldr (fun b n => b.toNat + 2 ^ 8 * n) 0

@[simp] theorem length_leBytes (w n : ℕ) : (leBytes w n).length = w := by
  induction w generalizing n with
  | zero => rfl
  | succ w ih => rw [leBytes, List.length_cons, ih]

theorem leNat_leBytes (w n : ℕ) : leNat (leBytes w n) = n % 2 ^ (8 * w) := by
  induction w generalizing n with
  | zero => simp [leBytes, leNat, Nat.mod_one]
  | succ w ih =>
    have hcons : leNat (leBytes (w + 1) n) = n % 2 ^ 8 + 2 ^ 8 * leNat (leBytes w (n / 2 ^ 8)) := by
      simp only [leBytes, leNat, List.foldr_cons, UInt8.toNat_ofNat']
    rw [hcons, ih, show 8 * (w + 1) = 8 + 8 * w by ring, pow_add, Nat.mod_mul]

/-! ## Fixed width -/

structure Fixed (α : Type) where
  width : ℕ
  encode : α → List UInt8
  decode : List UInt8 → α
  length_encode : ∀ a, (encode a).length = width
  decode_encode : ∀ a, decode (encode a) = a

attribute [simp] Fixed.length_encode Fixed.decode_encode

namespace Fixed

/-- `size_t`. -/
def sizeT : Fixed UInt64 where
  width := 8
  encode x := leBytes 8 x.toNat
  decode bs := .ofNat (leNat bs)
  length_encode x := length_leBytes 8 x.toNat
  decode_encode x := by
    rw [leNat_leBytes, Nat.mod_eq_of_lt x.toNat_lt, UInt64.ofNat_toNat]

/-- `int32_t`. -/
def int32 : Fixed Int32 where
  width := 4
  encode x := leBytes 4 x.toBitVec.toNat
  decode bs := .ofBitVec (.ofNat 32 (leNat bs))
  length_encode x := length_leBytes 4 x.toBitVec.toNat
  decode_encode x := by
    rw [leNat_leBytes, Nat.mod_eq_of_lt x.toBitVec.isLt, BitVec.ofNat_toNat, BitVec.setWidth_eq]
    rfl

/-- An array of `n` bytes. -/
def bytes (n : ℕ) : Fixed (Vector UInt8 n) where
  width := n
  encode v := v.toList
  decode bs := .ofFn fun i => bs.getD i 0
  length_encode v := v.length_toList
  decode_encode v := by
    apply Vector.ext
    intro i hi
    simp

/-- One encoding after the other. -/
def prod (c : Fixed α) (d : Fixed β) : Fixed (α × β) where
  width := c.width + d.width
  encode x := c.encode x.1 ++ d.encode x.2
  decode bs := (c.decode (bs.take c.width), d.decode (bs.drop c.width))
  length_encode x := by rw [List.length_append, c.length_encode, d.length_encode]
  decode_encode x := by
    rw [List.take_left' (c.length_encode _), List.drop_left' (c.length_encode _), c.decode_encode,
      d.decode_encode]

/-- The encoding of what corresponds to a value. -/
def map (c : Fixed α) (f : β → α) (g : α → β) (h : ∀ b, g (f b) = b) : Fixed β where
  width := c.width
  encode b := c.encode (f b)
  decode bs := g (c.decode bs)
  length_encode b := c.length_encode (f b)
  decode_encode b := by rw [c.decode_encode, h]

/-! ### Parts -/

/-- From an offset on, `c` has the encoding by `d` of a part. -/
def Slice (c : Fixed T) (offset : ℕ) (d : Fixed α) (get : T → α) : Prop :=
  offset + d.width ≤ c.width ∧ ∀ t, ((c.encode t).drop offset).take d.width = d.encode (get t)

namespace Slice

variable {c : Fixed α} {d : Fixed β} {e : Fixed γ} {offset : ℕ}

theorem refl (c : Fixed α) : c.Slice 0 c id := by
  refine ⟨Nat.le_of_eq (Nat.zero_add _), fun a => ?_⟩
  rw [List.drop_zero, ← c.length_encode a, List.take_length]
  rfl

theorem fst {get : α → γ} (h : c.Slice offset e get) (d : Fixed β) :
    (c.prod d).Slice offset e fun x => get x.1 := by
  obtain ⟨hle, hslice⟩ := h
  refine ⟨Nat.le_trans hle (Nat.le_add_right _ _), fun x => ?_⟩
  have hoff : offset ≤ (c.encode x.1).length := by
    rw [c.length_encode]
    omega
  rw [prod, List.drop_append_of_le_length hoff, List.take_append_of_le_length, hslice]
  rw [List.length_drop, c.length_encode]
  omega

theorem snd {get : β → γ} (h : d.Slice offset e get) (c : Fixed α) :
    (c.prod d).Slice (c.width + offset) e fun x => get x.2 := by
  obtain ⟨hle, hslice⟩ := h
  refine ⟨?_, fun x => ?_⟩
  · rw [Nat.add_assoc]
    exact Nat.add_le_add_left hle _
  · rw [prod, ← List.drop_drop, List.drop_left' (c.length_encode _), hslice]

theorem map {get : α → γ} (h : c.Slice offset e get) {f : β → α} {g : α → β} (hg : ∀ b, g (f b) = b) :
    (c.map f g hg).Slice offset e fun b => get (f b) :=
  ⟨h.1, fun b => h.2 (f b)⟩

end Slice

end Fixed

/-! ## Objects in memory -/

/-- What may go wrong in code that works on bytes. -/
inductive Fault where
  /-- an access through a pointer outside of its buffer -/
  | outOfBuffer
  /-- the use of a value that nothing has given -/
  | unread
  | thrown (what : String)
  deriving DecidableEq

/-- The bytes of an object; `none` for a byte that has not been given a value. -/
abbrev Memory := List (Option UInt8)

namespace Memory

/-- The bytes, when all have a value. -/
def bytes? : Memory → Option (List UInt8)
  | [] => some []
  | none :: _ => none
  | some b :: m => (b :: ·) <$> bytes? m

/-- The memory after a read into it, which may give fewer bytes than there is room for. -/
def store (m : Memory) (bs : List UInt8) : Memory := bs.map some ++ m.drop bs.length

theorem bytes?_map_some (bs : List UInt8) : bytes? (bs.map some) = some bs := by
  induction bs with
  | nil => rfl
  | cons b bs ih => rw [List.map_cons, bytes?, ih]; rfl

theorem bytes?_of_none {m : Memory} (h : none ∈ m) : bytes? m = none := by
  induction m with
  | nil => cases h
  | cons b m ih =>
    cases b with
    | none => rfl
    | some b => rw [bytes?, ih ((List.mem_cons.1 h).resolve_left nofun)]; rfl

theorem store_of_length {m : Memory} {bs : List UInt8} (h : bs.length = m.length) :
    m.store bs = bs.map some := by
  rw [store, List.drop_eq_nil_of_le (by omega), List.append_nil]

end Memory

/-- A trivially copyable type. -/
structure Layout (T : Type) extends Fixed T where
  /-- an object that is not initialised: the bytes of its default member initialisers -/
  init : Memory := List.replicate width none
  length_init : init.length = width := by simp

/-- A part of the objects of a type. -/
structure Field (L : Layout T) (α : Type) where
  offset : ℕ
  codec : Fixed α
  get : T → α
  slice : L.toFixed.Slice offset codec get

namespace Field

variable {L : Layout T}

/-- The value of the field in an object: all its bytes must have one. -/
def use (f : Field L α) (m : Memory) : Except Fault α :=
  match Memory.bytes? ((m.drop f.offset).take f.codec.width) with
  | some bs => .ok (f.codec.decode bs)
  | none => .error .unread

/-- What the bytes of an object give for the field. -/
def value (f : Field L α) (bs : List UInt8) : α :=
  f.codec.decode ((bs.drop f.offset).take f.codec.width)

/-- In an object that has been read whole, every field can be used. -/
@[simp] theorem use_map_some (f : Field L α) (bs : List UInt8) : f.use (bs.map some) = .ok (f.value bs) := by
  rw [use, ← List.map_drop, ← List.map_take, Memory.bytes?_map_some]
  rfl

@[simp] theorem use_encode (f : Field L α) (t : T) :
    f.use ((L.encode t).map some) = .ok (f.get t) := by
  rw [use_map_some, value, f.slice.2, f.codec.decode_encode]

end Field

end Lib
