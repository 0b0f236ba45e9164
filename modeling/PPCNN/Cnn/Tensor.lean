import PPCNN.Lib.Except
import PPCNN.Cnn.Types

/-!
# Tensors (`Ciphertext3D`)

A `boost::multi_array` of three dimensions: its extents and its cells. A vector of units is a
`List`.
-/

set_option autoImplicit false

namespace Cnn

open Lib

structure Tensor3 (α : Type) where
  height : ℕ
  width : ℕ
  channels : ℕ
  cell : Fin height → Fin width → Fin channels → α

namespace Tensor3

variable {α β : Type}

/-- Fills the cells by a computation each, in row-major order. -/
def build (height width channels : ℕ)
    (f : Fin height → Fin width → Fin channels → Except Error α) : Except Error (Tensor3 α) := do
  return ⟨height, width, channels, ← seqFin fun h => seqFin fun w => seqFin fun c => f h w c⟩

theorem build_dims {h w n : ℕ} {f : Fin h → Fin w → Fin n → Except Error α} {t : Tensor3 α}
    (ht : build h w n f = .ok t) : (t.height, t.width, t.channels) = (h, w, n) := by
  obtain ⟨cell, -, he⟩ := bind_eq_ok.1 ht
  cases he
  rfl

/-- `input[y][x][c]`; an index outside the extents is an error. -/
def read (t : Tensor3 α) (y x : ℤ) (c : ℕ) : Except Error α :=
  if h : (0 ≤ y ∧ y.toNat < t.height) ∧ (0 ≤ x ∧ x.toNat < t.width) ∧ c < t.channels then
    .ok (t.cell ⟨y.toNat, h.1.2⟩ ⟨x.toNat, h.2.1.2⟩ ⟨c, h.2.2⟩)
  else .error .outOfRange

/-- `input[h][w][c] = f(input[h][w][c])` for every cell. -/
def mapM (f : α → Except Error β) (t : Tensor3 α) : Except Error (Tensor3 β) :=
  build t.height t.width t.channels fun h w c => f (t.cell h w c)

def map (f : α → β) (t : Tensor3 α) : Tensor3 β :=
  ⟨t.height, t.width, t.channels, fun h w c => f (t.cell h w c)⟩

/-- A function for each channel. -/
def mapChannels (f : ℕ → α → β) (t : Tensor3 α) : Tensor3 β :=
  ⟨t.height, t.width, t.channels, fun h w c => f c (t.cell h w c)⟩

/-- The cell at integer coordinates, zero outside the tensor. -/
def padded [Zero α] (t : Tensor3 α) (y x : ℤ) (c : ℕ) : α :=
  if h : (0 ≤ y ∧ y.toNat < t.height) ∧ (0 ≤ x ∧ x.toNat < t.width) ∧ c < t.channels then
    t.cell ⟨y.toNat, h.1.2⟩ ⟨x.toNat, h.2.1.2⟩ ⟨c, h.2.2⟩
  else 0

/-- The cells in row-major order. -/
def toUnits (t : Tensor3 α) : List α :=
  (List.finRange t.height).flatMap fun h => (List.finRange t.width).flatMap fun w =>
    (List.finRange t.channels).map fun c => t.cell h w c

@[simp] theorem map_height (f : α → β) (t : Tensor3 α) : (t.map f).height = t.height := rfl
@[simp] theorem map_width (f : α → β) (t : Tensor3 α) : (t.map f).width = t.width := rfl
@[simp] theorem map_channels (f : α → β) (t : Tensor3 α) : (t.map f).channels = t.channels := rfl

theorem map_map {γ : Type} (g : β → γ) (f : α → β) (t : Tensor3 α) :
    (t.map f).map g = t.map fun x => g (f x) := rfl

@[simp] theorem map_id (t : Tensor3 α) : (t.map fun x => x) = t := rfl

theorem toUnits_map (f : α → β) (t : Tensor3 α) : (t.map f).toUnits = t.toUnits.map f := by
  simp only [toUnits, map, List.map_flatMap, List.map_map]
  rfl

theorem length_toUnits (t : Tensor3 α) : t.toUnits.length = t.height * t.width * t.channels := by
  simp [toUnits, Nat.mul_assoc]

theorem mem_toUnits {t : Tensor3 α} {x : α} (hx : x ∈ t.toUnits) : ∃ h w c, t.cell h w c = x := by
  simp only [toUnits, List.mem_flatMap, List.mem_map, List.mem_finRange, true_and] at hx
  exact hx

/-- Blocks of one length, one after the other. -/
theorem getElem?_flatMap_block {l : List α} {f : α → List β} {n i j : ℕ} (hf : ∀ a, (f a).length = n)
    (hj : j < n) : (l.flatMap f)[i * n + j]? = l[i]?.bind fun a => (f a)[j]? := by
  induction l generalizing i with
  | nil => simp
  | cons a l ih =>
    rw [List.flatMap_cons]
    cases i with
    | zero => rw [Nat.zero_mul, Nat.zero_add, List.getElem?_append_left (by rw [hf]; exact hj)]; rfl
    | succ i =>
      have hoff : (i + 1) * n + j - (f a).length = i * n + j := by
        rw [hf, Nat.succ_mul]
        omega
      rw [List.getElem?_append_right (by rw [hf, Nat.succ_mul]; omega), hoff, ih]
      rfl

/-- The position of a cell in row-major order is inside the storage. -/
theorem rowMajor_lt {height width channels h w c : ℕ} (hh : h < height) (hw : w < width)
    (hc : c < channels) : (h * width + w) * channels + c < height * width * channels := by
  have hrow : h * width + w < height * width := by
    calc h * width + w < (h + 1) * width := by rw [Nat.succ_mul]; omega
      _ ≤ height * width := Nat.mul_le_mul_right _ hh
  calc (h * width + w) * channels + c < (h * width + w + 1) * channels := by rw [Nat.succ_mul]; omega
    _ ≤ height * width * channels := Nat.mul_le_mul_right _ hrow

/-- The position of a cell in row-major order. -/
theorem getElem?_toUnits (t : Tensor3 α) (h : Fin t.height) (w : Fin t.width) (c : Fin t.channels) :
    t.toUnits[(h * t.width + w) * t.channels + c]? = some (t.cell h w c) := by
  have hoff : (h * t.width + w) * t.channels + c = h * (t.width * t.channels) + (w * t.channels + c) := by
    rw [Nat.add_mul, Nat.mul_assoc, Nat.add_assoc]
  have hrow : w * t.channels + c < t.width * t.channels := by
    calc w * t.channels + c < w * t.channels + t.channels := Nat.add_lt_add_left c.isLt _
      _ = (w + 1) * t.channels := (Nat.succ_mul _ _).symm
      _ ≤ t.width * t.channels := Nat.mul_le_mul_right _ w.isLt
  rw [toUnits, hoff, getElem?_flatMap_block (fun _ => by simp) hrow,
    List.getElem?_eq_getElem (by simp), Option.bind_some,
    getElem?_flatMap_block (fun _ => by simp) c.isLt, List.getElem?_eq_getElem (by simp),
    Option.bind_some, List.getElem?_map, List.getElem?_eq_getElem (by simp), Option.map_some]
  simp

theorem padded_of_not [Zero α] {t : Tensor3 α} {y x : ℤ} {c : ℕ}
    (h : ¬((0 ≤ y ∧ y.toNat < t.height) ∧ (0 ≤ x ∧ x.toNat < t.width) ∧ c < t.channels)) :
    t.padded y x c = 0 := by
  rw [padded, dif_neg h]

@[simp] theorem padded_cell [Zero α] (t : Tensor3 α) (h : Fin t.height) (w : Fin t.width)
    (c : Fin t.channels) : t.padded (h : ℕ) (w : ℕ) c = t.cell h w c := by
  rw [padded, dif_pos ⟨⟨by omega, by simp⟩, ⟨by omega, by simp⟩, c.isLt⟩]
  rfl

theorem padded_map [Zero α] [Zero β] {f : α → β} (hf : f 0 = 0) (t : Tensor3 α) (y x : ℤ)
    (c : ℕ) : (t.map f).padded y x c = f (t.padded y x c) := by
  by_cases h : (0 ≤ y ∧ y.toNat < t.height) ∧ (0 ≤ x ∧ x.toNat < t.width) ∧ c < t.channels
  · rw [padded, dif_pos (by simpa using h), padded, dif_pos h]
    rfl
  · rw [padded_of_not h, padded_of_not (by simpa using h), hf]

end Tensor3

end Cnn
