import PPCNN.Lib.Bytes
import PPCNN.Lib.Except

/-!
# Streams over a buffer of fixed size

A `ByteStream` is a buffer with a position to write at and one to read from. It is used as a stream,
which fails softly at the end of the buffer, and through pointers into the buffer, where an access
outside is an error.

* `Filled s out room`: what a writer keeps. The bytes `out` have been written, each once, and there is
  room for `room` more. It is kept by `write` and by `memcpy` at the write position with a seek.
* `Unread s done todo`: what a reader keeps. The bytes `done` have been passed and `todo` are to come.
-/

set_option autoImplicit false

namespace Lib

/-! ## Output -/

/-- Something that bytes can be written to. -/
class OStream (σ : Type) where
  write : σ → List UInt8 → σ

/-- A string stream holds what has been written. -/
instance : OStream (List UInt8) := ⟨fun written bs => written ++ bs⟩

@[simp] theorem write_list (os bs : List UInt8) : OStream.write os bs = os ++ bs := rfl

def writeAll {σ : Type} [OStream σ] (os : σ) (chunks : List (List UInt8)) : σ :=
  chunks.foldl OStream.write os

theorem writeAll_list (os : List UInt8) (chunks : List (List UInt8)) :
    writeAll os chunks = os ++ chunks.flatten := by
  induction chunks generalizing os with
  | nil => simp [writeAll]
  | cons c chunks ih =>
    have h := ih (os ++ c)
    simp only [writeAll, List.foldl_cons, write_list] at h ⊢
    rw [h, List.flatten_cons, List.append_assoc]

/-! ## The buffer -/

/-- A byte of a buffer, with the number of times it has been written. -/
structure Cell where
  value : UInt8
  writes : ℕ

def Cell.write (c : Cell) (b : UInt8) : Cell := ⟨b, c.writes + 1⟩

structure ByteStream where
  cells : List Cell
  putPos : ℕ
  getPos : ℕ
  failed : Bool

namespace ByteStream

/-- A buffer with the contents that the allocator gives. -/
def alloc (junk : ℕ → UInt8) (size : ℕ) : ByteStream where
  cells := (List.range size).map fun i => ⟨junk i, 0⟩
  putPos := 0
  getPos := 0
  failed := false

def ofBytes (bs : List UInt8) : ByteStream where
  cells := bs.map fun b => ⟨b, 0⟩
  putPos := 0
  getPos := 0
  failed := false

variable (s : ByteStream)

def size : ℕ := s.cells.length

def bytes : List UInt8 := s.cells.map Cell.value

/-- The buffer with bytes stored at a position. -/
def overwrite (pos : ℕ) (bs : List UInt8) : List Cell :=
  s.cells.take pos ++ List.zipWith Cell.write (s.cells.drop pos) bs ++ s.cells.drop (pos + bs.length)

/-! ### As a stream -/

def write (bs : List UInt8) : ByteStream :=
  if s.failed then s
  else
    let fitting := bs.take (s.size - s.putPos)
    { s with
      cells := s.overwrite s.putPos fitting
      putPos := s.putPos + fitting.length
      failed := fitting.length < bs.length }

instance : OStream ByteStream := ⟨write⟩

/-- The bytes that a read of `n` bytes gives. -/
def read (n : ℕ) : List UInt8 × ByteStream :=
  if s.failed then ([], s)
  else
    let bs := (s.bytes.drop s.getPos).take n
    (bs, { s with getPos := s.getPos + bs.length, failed := bs.length < n })

def tellp : ℤ := if s.failed then -1 else s.putPos

def tellg : ℤ := if s.failed then -1 else s.getPos

/-- `seekp` from the current position. -/
def seekp (n : ℕ) : ByteStream :=
  if s.failed then s
  else if s.putPos + n ≤ s.size then { s with putPos := s.putPos + n }
  else { s with failed := true }

/-- `seekg` from the current position. -/
def seekg (n : ℕ) : ByteStream :=
  if s.failed then s
  else if s.getPos + n ≤ s.size then { s with getPos := s.getPos + n }
  else { s with failed := true }

/-! ### Through pointers -/

/-- `n` bytes from the position on lie in the buffer. -/
def InBuffer (pos : ℤ) (n : ℕ) : Prop := n = 0 ∨ 0 ≤ pos ∧ pos + n ≤ s.size

instance (pos : ℤ) (n : ℕ) : Decidable (s.InBuffer pos n) :=
  inferInstanceAs (Decidable (_ ∨ _))

/-- Copies `n` bytes of a string, which a zero byte ends, to a position of the buffer. -/
def memcpy (pos : ℤ) (str : List UInt8) (n : ℕ) : Except Fault ByteStream :=
  if n ≤ str.length + 1 ∧ s.InBuffer pos n then
    .ok { s with cells := s.overwrite pos.toNat ((str ++ [0]).take n) }
  else .error .outOfBuffer

/-- A string of the `n` bytes from a position of the buffer on. `newString` makes room for one of a
length, or throws, before a byte is read. For as many bytes as a buffer holds there is room. -/
def range (newString : ℕ → Except String Unit) (pos : ℤ) (n : ℕ) : Except Fault (List UInt8) :=
  if s.InBuffer pos n then .ok ((s.bytes.drop pos.toNat).take n)
  else
    match newString n with
    | .ok () => .error .outOfBuffer
    | .error what => .error (.thrown what)

/-! ## Writing -/

structure Filled (s : ByteStream) (out : List UInt8) (room : ℕ) : Prop where
  cells_eq : ∃ fresh : List Cell, s.cells = out.map (Cell.mk · 1) ++ fresh ∧ fresh.length = room ∧
    ∀ c ∈ fresh, c.writes = 0
  putPos_eq : s.putPos = out.length
  good : s.failed = false

theorem filled_alloc (junk : ℕ → UInt8) (size : ℕ) : (alloc junk size).Filled [] size where
  cells_eq := by
    refine ⟨(alloc junk size).cells, rfl, by simp [alloc], ?_⟩
    intro c hc
    obtain ⟨i, -, rfl⟩ := List.mem_map.1 hc
    rfl
  putPos_eq := rfl
  good := rfl

namespace Filled

variable {s : ByteStream} {out bs : List UInt8} {room : ℕ}

theorem size_eq (h : s.Filled out room) : s.size = out.length + room := by
  obtain ⟨fresh, hcells, hroom, -⟩ := h.cells_eq
  rw [size, hcells, List.length_append, List.length_map, hroom]

theorem tellp_eq (h : s.Filled out room) : s.tellp = out.length := by
  rw [tellp, h.good, h.putPos_eq]
  rfl

theorem zipWith_write_fresh {cells : List Cell} {bs : List UInt8} (hlen : bs.length ≤ cells.length)
    (hfresh : ∀ c ∈ cells, c.writes = 0) :
    List.zipWith Cell.write cells bs = bs.map (Cell.mk · 1) := by
  induction cells generalizing bs with
  | nil =>
    rw [List.eq_nil_of_length_eq_zero (Nat.le_zero.1 hlen)]
    rfl
  | cons c cells ih =>
    cases bs with
    | nil => rfl
    | cons b bs =>
      have htail := ih (Nat.le_of_succ_le_succ hlen) fun c' hc' => hfresh c' (List.mem_cons_of_mem c hc')
      rw [List.zipWith_cons_cons, List.map_cons, htail, Cell.write, hfresh c List.mem_cons_self]

/-- Storing at the write position writes bytes that have not been written. -/
theorem overwrite_eq (h : s.Filled out (bs.length + room)) :
    ∃ fresh : List Cell, s.overwrite out.length bs = (out ++ bs).map (Cell.mk · 1) ++ fresh ∧
      fresh.length = room ∧ ∀ c ∈ fresh, c.writes = 0 := by
  obtain ⟨fresh, hcells, hlen, hfresh⟩ := h.cells_eq
  have htake : s.cells.take out.length = out.map (Cell.mk · 1) := by
    rw [hcells]
    exact List.take_left' (by simp)
  have hdrop : s.cells.drop out.length = fresh := by
    rw [hcells]
    exact List.drop_left' (by simp)
  refine ⟨fresh.drop bs.length, ?_, by rw [List.length_drop]; omega, fun c hc =>
    hfresh c (List.mem_of_mem_drop hc)⟩
  rw [overwrite, htake, hdrop, zipWith_write_fresh (by omega) hfresh, ← List.drop_drop, hdrop,
    List.map_append]

theorem write (h : s.Filled out (bs.length + room)) : (s.write bs).Filled (out ++ bs) room := by
  have hfit : bs.take (s.size - s.putPos) = bs := by
    rw [List.take_of_length_le]
    rw [h.size_eq, h.putPos_eq]
    omega
  have hwrite : s.write bs = { s with
      cells := s.overwrite out.length bs, putPos := out.length + bs.length, failed := false } := by
    rw [ByteStream.write, h.good, hfit, h.putPos_eq]
    simp
  rw [hwrite]
  exact ⟨h.overwrite_eq, (List.length_append ..).symm, rfl⟩

theorem writeAll {chunks : List (List UInt8)}
    (h : s.Filled out (chunks.flatten.length + room)) :
    (writeAll s chunks).Filled (out ++ chunks.flatten) room := by
  induction chunks generalizing s out with
  | nil => simpa [Lib.writeAll] using h
  | cons c chunks ih =>
    rw [List.flatten_cons, List.length_append, Nat.add_assoc] at h
    have hrest := ih h.write
    rw [List.append_assoc] at hrest
    exact hrest

/-- A copy of a whole string to the write position, and the seek past it. -/
theorem memcpy_seekp (h : s.Filled out (bs.length + room)) :
    ∃ s', s.memcpy s.tellp bs bs.length = .ok s' ∧ (s'.seekp bs.length).Filled (out ++ bs) room := by
  have hsize := h.size_eq
  have hin : s.InBuffer s.tellp bs.length := by
    right
    rw [h.tellp_eq]
    omega
  refine ⟨{ s with cells := s.overwrite out.length bs }, ?_, ?_⟩
  · rw [memcpy, if_pos ⟨by omega, hin⟩, h.tellp_eq, Int.toNat_natCast, List.take_left]
  · obtain ⟨fresh, hcells, hroom, hfresh⟩ := h.overwrite_eq
    have hlen : (s.overwrite out.length bs).length = out.length + bs.length + room := by
      rw [hcells, List.length_append, List.length_map, List.length_append, hroom]
    rw [seekp, if_neg (by simp [h.good]), if_pos]
    · exact ⟨⟨fresh, hcells, hroom, hfresh⟩, by simp [h.putPos_eq], h.good⟩
    · simp only [size, hlen, h.putPos_eq]
      omega

end Filled

/-- Every byte of the buffer has been written once, and the write position is at the end. -/
structure Full (s : ByteStream) : Prop where
  writes_eq : ∀ c ∈ s.cells, c.writes = 1
  putPos_eq : s.putPos = s.size
  good : s.failed = false

theorem Filled.full {s : ByteStream} {out : List UInt8} (h : s.Filled out 0) :
    s.Full ∧ s.bytes = out := by
  obtain ⟨fresh, hcells, hlen, -⟩ := h.cells_eq
  have hall : s.cells = out.map (Cell.mk · 1) := by
    rw [hcells, List.eq_nil_of_length_eq_zero hlen, List.append_nil]
  refine ⟨⟨?_, by rw [h.putPos_eq, h.size_eq, Nat.add_zero], h.good⟩, ?_⟩
  · intro c hc
    rw [hall] at hc
    obtain ⟨b, -, rfl⟩ := List.mem_map.1 hc
    rfl
  · rw [bytes, hall, List.map_map]
    exact List.map_id out

/-! ## Reading -/

structure Unread (s : ByteStream) (done todo : List UInt8) : Prop where
  bytes_eq : s.bytes = done ++ todo
  getPos_eq : s.getPos = done.length
  good : s.failed = false

theorem unread_ofBytes (bs : List UInt8) : (ofBytes bs).Unread [] bs where
  bytes_eq := by
    rw [bytes, ofBytes, List.map_map]
    exact List.map_id bs
  getPos_eq := rfl
  good := rfl

namespace Unread

variable {s : ByteStream} {done bs todo : List UInt8}

theorem size_eq (h : s.Unread done todo) : s.size = done.length + todo.length := by
  have hlen : s.bytes.length = s.size := List.length_map _
  rw [← hlen, h.bytes_eq, List.length_append]

theorem tellg_eq (h : s.Unread done todo) : s.tellg = done.length := by
  rw [tellg, h.good, h.getPos_eq]
  rfl

theorem drop_getPos (h : s.Unread done todo) : s.bytes.drop s.getPos = todo := by
  rw [h.bytes_eq, h.getPos_eq, List.drop_left]

/-- The bytes at the read position. -/
theorem slice_eq (h : s.Unread done (bs ++ todo)) :
    (s.bytes.drop done.length).take bs.length = bs := by
  rw [h.bytes_eq, List.drop_left, List.take_left]

theorem read (h : s.Unread done (bs ++ todo)) {n : ℕ} (hn : bs.length = n) :
    (s.read n).1 = bs ∧ (s.read n).2.Unread (done ++ bs) todo := by
  subst hn
  have hread : s.read bs.length = (bs, { s with getPos := s.getPos + bs.length, failed := false }) := by
    rw [ByteStream.read, h.good, h.getPos_eq, h.slice_eq]
    simp
  rw [hread]
  refine ⟨rfl, ?_, ?_, rfl⟩
  · rw [List.append_assoc]
    exact h.bytes_eq
  · simp [h.getPos_eq]

theorem range (newString : ℕ → Except String Unit) (h : s.Unread done (bs ++ todo)) :
    s.range newString s.tellg bs.length = .ok bs := by
  have hsize := h.size_eq
  rw [List.length_append] at hsize
  have hin : s.InBuffer s.tellg bs.length := by
    right
    rw [h.tellg_eq]
    omega
  rw [ByteStream.range, if_pos hin, h.tellg_eq, Int.toNat_natCast, h.slice_eq]

theorem seekg (h : s.Unread done (bs ++ todo)) : (s.seekg bs.length).Unread (done ++ bs) todo := by
  have hsize := h.size_eq
  rw [List.length_append] at hsize
  rw [ByteStream.seekg, if_neg (by simp [h.good]), if_pos (by rw [h.getPos_eq]; omega)]
  refine ⟨?_, by simp [h.getPos_eq], h.good⟩
  rw [List.append_assoc]
  exact h.bytes_eq

/-! Bytes that a count from outside asks for may not be there. -/

theorem read_take (h : s.Unread done todo) {n : ℕ} (hn : n ≤ todo.length) :
    (s.read n).1 = todo.take n ∧ (s.read n).2.Unread (done ++ todo.take n) (todo.drop n) := by
  rw [← List.take_append_drop n todo] at h
  exact h.read (List.length_take_of_le hn)

theorem read_short (h : s.Unread done todo) {n : ℕ} (hn : todo.length ≤ n) : (s.read n).1 = todo := by
  rw [ByteStream.read, h.good, h.drop_getPos, List.take_of_length_le hn]
  rfl

/-- A range through the pointer at the read position is in the buffer, if there are as many bytes. -/
theorem range_take (newString : ℕ → Except String Unit) (h : s.Unread done todo) {n : ℕ}
    (hn : n ≤ todo.length) : s.range newString s.tellg n = .ok (todo.take n) := by
  rw [← List.take_append_drop n todo] at h
  have hrange := h.range newString
  rwa [List.length_take_of_le hn] at hrange

/-- Of bytes that are not there no string is made: the constructor throws, or reads behind the buffer. -/
theorem range_short (newString : ℕ → Except String Unit) (h : s.Unread done todo) {n : ℕ}
    (hn : todo.length < n) : s.range newString s.tellg n =
      match newString n with
      | .ok () => .error .outOfBuffer
      | .error what => .error (.thrown what) := by
  have hsize := h.size_eq
  rw [ByteStream.range, if_neg]
  rw [InBuffer, h.tellg_eq]
  omega

theorem seekg_take (h : s.Unread done todo) {n : ℕ} (hn : n ≤ todo.length) :
    (s.seekg n).Unread (done ++ todo.take n) (todo.drop n) := by
  rw [← List.take_append_drop n todo] at h
  have hseek := h.seekg
  rwa [List.length_take_of_le hn] at hseek

end Unread

end ByteStream

end Lib
