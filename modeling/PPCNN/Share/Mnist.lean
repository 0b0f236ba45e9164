import PPCNN.Lib.BigEndian
import PPCNN.Lib.Except
import Mathlib.Data.Nat.Cast.Defs
import Mathlib.Algebra.Group.Defs

/-!
# The reader of the MNIST files (`mnist_reader_common.hpp`, `mnist_reader.hpp`)

A file is read whole into a buffer, and the reader then goes through the buffer with a pointer. An access
outside of the buffer, or outside of an image, is an error of the model. `readMnistFile` compares the size
of the file with a product of header fields that wraps around at 2³².

* `copyBytes_eq`: when a loop over a vector stays inside the buffer and the vector, and what it copies.
* `readMnistImageFile_outcome`: what the reader of an image file does with any content.
* `readMnistImageFile_idx`, `readMnistLabelFile_idx`: it reads back what a file of this format holds.
-/

set_option autoImplicit false

namespace Mnist

open Lib

variable {K V : Type}

/-- The content of the files, by path. -/
abbrev Files := String → Option (List UInt8)

/-! ## The reader -/

/-- `read_header`: the word at a position, of which the machine reads the lowest byte first. -/
def readHeader (buffer : List UInt8) (position : ℕ) : Except Fault UInt32 :=
  let bytes := (buffer.drop (4 * position)).take 4
  if bytes.length = 4 then .ok (swapBytes (.ofNat (leNat bytes))) else .error .outOfBuffer

/-- `read_mnist_file`; without a buffer for a file that cannot be opened or has a wrong header. -/
def readMnistFile (file : Option (List UInt8)) (key : UInt32) : Except Fault (Option (List UInt8)) :=
  match file with
  | none => return none
  | some buffer => do
    let magic ← readHeader buffer 0
    if magic ≠ key then return none
    let count ← readHeader buffer 1
    if magic = 0x803 then
      let rows ← readHeader buffer 2
      let columns ← readHeader buffer 3
      if buffer.length < (count * rows * columns + 16).toNat then return none
    else if magic = 0x801 then
      if buffer.length < (count + 8).toNat then return none
    return some buffer

/-- `values[j] = *pointer++;` -/
def copyByte (f : UInt8 → V) (buffer : List UInt8) (s : List V × ℕ) (j : ℕ) : Except Fault (List V × ℕ) :=
  match buffer[s.2]? with
  | none => .error .outOfBuffer
  | some byte => if j < s.1.length then .ok (s.1.set j (f byte), s.2 + 1) else .error .outOfBuffer

/-- The loop over `j < size`. -/
def copyBytes (f : UInt8 → V) (buffer : List UInt8) (size : ℕ) (values : List V) (pointer : ℕ) :
    Except Fault (List V × ℕ) :=
  (List.range size).foldlM (copyByte f buffer) (values, pointer)

/-- `Image(1 * 28 * 28)` -/
def newImage [Zero K] : List K := List.replicate (1 * 28 * 28) 0

def readImage [Zero K] [NatCast K] (buffer : List UInt8) (size : ℕ) (s : List (List K) × ℕ) (_ : ℕ) :
    Except Fault (List (List K) × ℕ) := do
  let (image, imageBuffer) ← copyBytes (fun pixel => (pixel.toNat : K)) buffer size newImage s.2
  return (s.1 ++ [image], imageBuffer)

/-- `if (limit > 0 && count > limit) count = limit;` -/
def limited (count limit : ℕ) : ℕ := if 0 < limit ∧ limit < count then limit else count

/-- `read_mnist_image_file` -/
def readMnistImageFile (K : Type) [Zero K] [NatCast K] (file : Option (List UInt8)) (limit : ℕ) :
    Except Fault (List (List K)) := do
  match ← readMnistFile file 0x803 with
  | none => return []
  | some buffer =>
    let count ← readHeader buffer 1
    let rows ← readHeader buffer 2
    let columns ← readHeader buffer 3
    let (images, _) ← (List.range (limited count.toNat limit)).foldlM
      (readImage buffer (rows * columns).toNat) ([], 16)
    return images

/-- `read_mnist_label_file` -/
def readMnistLabelFile (file : Option (List UInt8)) (limit : ℕ) : Except Fault (List UInt8) := do
  match ← readMnistFile file 0x801 with
  | none => return []
  | some buffer =>
    let count ← readHeader buffer 1
    let (labels, _) ← copyBytes id buffer (limited count.toNat limit)
      (List.replicate (limited count.toNat limit) 0) 8
    return labels

/-- `MNIST_dataset` -/
structure Dataset (K : Type) where
  trainingImages : List (List K)
  testImages : List (List K)
  trainingLabels : List UInt8
  testLabels : List UInt8

/-- `read_dataset_direct` -/
def readDatasetDirect (K : Type) [Zero K] [NatCast K] (files : Files) (folder : String)
    (trainingLimit testLimit : ℕ) : Except Fault (Dataset K) := do
  let trainingImages ← readMnistImageFile K (files (folder ++ "/train-images-idx3-ubyte")) trainingLimit
  let trainingLabels ← readMnistLabelFile (files (folder ++ "/train-labels-idx1-ubyte")) trainingLimit
  let testImages ← readMnistImageFile K (files (folder ++ "/t10k-images-idx3-ubyte")) testLimit
  let testLabels ← readMnistLabelFile (files (folder ++ "/t10k-labels-idx1-ubyte")) testLimit
  return ⟨trainingImages, testImages, trainingLabels, testLabels⟩

/-! ## Loops over the buffer -/

theorem drop_take_succ {α : Type} {l : List α} {p n : ℕ} {a : α} (h : l[p + n]? = some a) :
    (l.drop p).take (n + 1) = (l.drop p).take n ++ [a] := by
  rw [List.take_add_one, List.getElem?_drop, h]
  rfl

section

variable {f : UInt8 → V} {buffer : List UInt8} {size pointer : ℕ} {values : List V}

theorem copyBytes_succ : copyBytes f buffer (size + 1) values pointer =
    copyBytes f buffer size values pointer >>= fun s => copyByte f buffer s size := by
  rw [copyBytes, List.range_succ, List.foldlM_append]
  refine congrArg _ (funext fun s => ?_)
  rw [List.foldlM_cons]
  cases copyByte f buffer s size <;> rfl

/-- The loop succeeds exactly if it stays inside the buffer and the vector. -/
theorem copyBytes_eq (hpointer : pointer ≤ buffer.length) :
    copyBytes f buffer size values pointer =
      if size ≤ values.length ∧ pointer + size ≤ buffer.length then
        .ok (((buffer.drop pointer).take size).map f ++ values.drop size, pointer + size)
      else .error .outOfBuffer := by
  induction size with
  | zero => simp [copyBytes, hpointer]
  | succ size ih =>
    rw [copyBytes_succ, ih]
    by_cases hin : size ≤ values.length ∧ pointer + size ≤ buffer.length
    · rw [if_pos hin, ok_bind, copyByte]
      obtain ⟨hvalues, hbuffer⟩ := hin
      have htaken : ((buffer.drop pointer).take size).length = size := by
        rw [List.length_take, List.length_drop]
        omega
      by_cases hnext : pointer + size < buffer.length
      · have hbyte : buffer[pointer + size]? = some buffer[pointer + size] :=
          List.getElem?_eq_getElem hnext
        simp only [hbyte, List.length_append, List.length_map, htaken, List.length_drop]
        by_cases hroom : size < values.length
        · rw [if_pos (by omega), if_pos (by omega), drop_take_succ hbyte, List.map_append,
            List.set_append_right _ _ (by simp), List.length_map, htaken, Nat.sub_self,
            List.drop_eq_getElem_cons hroom, List.set_cons_zero]
          simp [Nat.add_assoc]
        · rw [if_neg (by omega), if_neg (by omega)]
      · rw [List.getElem?_eq_none (by omega), if_neg (by omega)]
    · rw [if_neg hin, if_neg (by omega), error_bind]

end

section

variable [Zero K] [NatCast K] {buffer : List UInt8}

omit [NatCast K] in
theorem length_newImage : (newImage : List K).length = 784 := List.length_replicate

omit [NatCast K] in
theorem drop_newImage (size : ℕ) : (newImage : List K).drop size = List.replicate (784 - size) 0 :=
  List.drop_replicate

/-- The first `count` images of `size` pixels; what the file does not give of an image is 0. -/
def imagesAt (K : Type) [Zero K] [NatCast K] (buffer : List UInt8) (size count : ℕ) : List (List K) :=
  (List.range count).map fun i =>
    ((buffer.drop (16 + i * size)).take size).map (fun pixel => (pixel.toNat : K)) ++
      List.replicate (784 - size) 0

/-- The images can be read: they fit into a new image, and lie in the buffer. -/
def Fits (buffer : List UInt8) (size count : ℕ) : Prop :=
  count = 0 ∨ size ≤ 784 ∧ 16 + count * size ≤ buffer.length

instance (buffer : List UInt8) (size count : ℕ) : Decidable (Fits buffer size count) :=
  inferInstanceAs (Decidable (_ ∨ _))

theorem readImages_eq (h : 16 ≤ buffer.length) (size count : ℕ) :
    (List.range count).foldlM (readImage buffer size) (([] : List (List K)), 16) =
      if Fits buffer size count then .ok (imagesAt K buffer size count, 16 + count * size)
      else .error .outOfBuffer := by
  induction count with
  | zero => simp [Fits, imagesAt]
  | succ count ih =>
    rw [List.range_succ, List.foldlM_append, ih, Nat.succ_mul]
    by_cases hfits : Fits buffer size count
    · have hpointer : 16 + count * size ≤ buffer.length := by
        rcases hfits with rfl | hfits
        · omega
        · exact hfits.2
      rw [if_pos hfits, ok_bind, List.foldlM_cons, readImage, copyBytes_eq hpointer, length_newImage]
      by_cases hnext : size ≤ 784 ∧ 16 + count * size + size ≤ buffer.length
      · have hall : Fits buffer size (count + 1) := .inr ⟨hnext.1, by rw [Nat.succ_mul]; omega⟩
        rw [if_pos hnext, if_pos hall]
        simp [imagesAt, List.range_succ, drop_newImage, Nat.add_assoc]
      · have hnot : ¬Fits buffer size (count + 1) := by
          rintro (hzero | hall)
          · omega
          · rw [Nat.succ_mul] at hall
            omega
        rw [if_neg hnext, if_neg hnot]
        rfl
    · have hnot : ¬Fits buffer size (count + 1) := by
        rintro (hzero | hall)
        · omega
        · rw [Nat.succ_mul] at hall
          exact hfits (.inr ⟨hall.1, by omega⟩)
      rw [if_neg hfits, if_neg hnot, error_bind]

end

/-! ## The header -/

/-- The number at a position of the header. -/
def headerNat (buffer : List UInt8) (position : ℕ) : ℕ := beNat ((buffer.drop (4 * position)).take 4)

section

variable {buffer : List UInt8} {position : ℕ}

theorem headerNat_lt (buffer : List UInt8) (position : ℕ) : headerNat buffer position < 2 ^ 32 := by
  refine (beNat_lt _).trans_le (Nat.pow_le_pow_right (by decide) ?_)
  rw [List.length_take]
  omega

theorem readHeader_ok (h : 4 * position + 4 ≤ buffer.length) :
    readHeader buffer position = .ok (.ofNat (headerNat buffer position)) := by
  have hlength : ((buffer.drop (4 * position)).take 4).length = 4 := by
    rw [List.length_take, List.length_drop]
    omega
  have hvalue : swapBytes (.ofNat (leNat ((buffer.drop (4 * position)).take 4))) =
      .ofNat (headerNat buffer position) := by
    rw [headerNat, ← toNat_swapBytes hlength, UInt32.ofNat_toNat]
  rw [readHeader, if_pos hlength, hvalue]

theorem readHeader_error (h : buffer.length < 4 * position + 4) :
    readHeader buffer position = .error .outOfBuffer := by
  refine if_neg ?_
  rw [List.length_take, List.length_drop]
  omega

theorem ofNat_headerNat_eq_iff {key : UInt32} :
    UInt32.ofNat (headerNat buffer position) = key ↔ headerNat buffer position = key.toNat := by
  rw [← UInt32.toNat_inj, UInt32.toNat_ofNat', Nat.mod_eq_of_lt (headerNat_lt buffer position)]

theorem toNat_ofNat_headerNat :
    (UInt32.ofNat (headerNat buffer position)).toNat = headerNat buffer position := by
  rw [UInt32.toNat_ofNat', Nat.mod_eq_of_lt (headerNat_lt buffer position)]

end

/-- The number of pixels of an image, as the loop over them computes it. -/
def imageSize (buffer : List UInt8) : ℕ := headerNat buffer 2 * headerNat buffer 3 % 2 ^ 32

/-- The size that a file of images must have, as `read_mnist_file` computes it. -/
def neededSize (buffer : List UInt8) : ℕ :=
  (headerNat buffer 1 * headerNat buffer 2 * headerNat buffer 3 + 16) % 2 ^ 32

section

variable {buffer : List UInt8}

theorem toNat_imageSize : ((UInt32.ofNat (headerNat buffer 2)) * (.ofNat (headerNat buffer 3))).toNat =
    imageSize buffer := by
  rw [UInt32.toNat_mul, toNat_ofNat_headerNat, toNat_ofNat_headerNat, imageSize]

theorem toNat_neededSize : ((UInt32.ofNat (headerNat buffer 1)) * (.ofNat (headerNat buffer 2)) *
    (.ofNat (headerNat buffer 3)) + 16).toNat = neededSize buffer := by
  rw [UInt32.toNat_add, UInt32.toNat_mul, UInt32.toNat_mul, toNat_ofNat_headerNat, toNat_ofNat_headerNat,
    toNat_ofNat_headerNat, neededSize, show (16 : UInt32).toNat = 16 from rfl, Nat.mod_mul_mod,
    Nat.mod_add_mod]

theorem readMnistFile_short {key : UInt32} (h : buffer.length < 4) :
    readMnistFile (some buffer) key = .error .outOfBuffer := by
  rw [readMnistFile, readHeader_error (by omega), error_bind]

theorem readMnistFile_other {key : UInt32} (h : 4 ≤ buffer.length)
    (hmagic : headerNat buffer 0 ≠ key.toNat) : readMnistFile (some buffer) key = .ok none := by
  rw [readMnistFile, readHeader_ok (by omega), ok_bind, if_pos (mt ofNat_headerNat_eq_iff.1 hmagic)]
  rfl

theorem readMnistFile_cut (h : 4 ≤ buffer.length) (hmagic : headerNat buffer 0 = 0x803)
    (hcut : buffer.length < 16) : readMnistFile (some buffer) 0x803 = .error .outOfBuffer := by
  have hkey : UInt32.ofNat (headerNat buffer 0) = 0x803 := ofNat_headerNat_eq_iff.2 hmagic
  rw [readMnistFile, readHeader_ok (by omega), ok_bind, hkey, if_neg (by simp)]
  by_cases h8 : 8 ≤ buffer.length
  · rw [readHeader_ok (by omega), ok_bind, if_pos rfl]
    by_cases h12 : 12 ≤ buffer.length
    · rw [readHeader_ok (by omega), ok_bind, readHeader_error (by omega), error_bind]
    · rw [readHeader_error (by omega), error_bind]
  · rw [readHeader_error (by omega), error_bind]

theorem readMnistFile_images (h : 16 ≤ buffer.length) (hmagic : headerNat buffer 0 = 0x803) :
    readMnistFile (some buffer) 0x803 =
      .ok (if buffer.length < neededSize buffer then none else some buffer) := by
  have hkey : UInt32.ofNat (headerNat buffer 0) = 0x803 := ofNat_headerNat_eq_iff.2 hmagic
  rw [readMnistFile, readHeader_ok (by omega), ok_bind, hkey, if_neg (by simp), readHeader_ok (by omega),
    ok_bind, if_pos rfl, readHeader_ok (by omega), ok_bind, readHeader_ok (by omega), ok_bind,
    toNat_neededSize]
  by_cases hsmall : buffer.length < neededSize buffer
  · rw [if_pos hsmall, if_pos hsmall]
    rfl
  · rw [if_neg hsmall, if_neg hsmall]
    rfl

end

/-! ## What the reader of images does -/

/-- The result of `read_mnist_image_file` for a content. -/
inductive ImagesOutcome (K : Type) [Zero K] [NatCast K] (buffer : List UInt8) (limit : ℕ) :
    Except Fault (List (List K)) → Prop
  | noHeader (short : buffer.length < 4) : ImagesOutcome K buffer limit (.error .outOfBuffer)
  | otherKind (long : 4 ≤ buffer.length) (magic : headerNat buffer 0 ≠ 0x803) :
      ImagesOutcome K buffer limit (.ok [])
  | cutHeader (long : 4 ≤ buffer.length) (magic : headerNat buffer 0 = 0x803)
      (short : buffer.length < 16) : ImagesOutcome K buffer limit (.error .outOfBuffer)
  | tooSmall (long : 16 ≤ buffer.length) (magic : headerNat buffer 0 = 0x803)
      (small : buffer.length < neededSize buffer) : ImagesOutcome K buffer limit (.ok [])
  | overrun (long : 16 ≤ buffer.length) (magic : headerNat buffer 0 = 0x803)
      (accepted : neededSize buffer ≤ buffer.length)
      (leaves : ¬Fits buffer (imageSize buffer) (limited (headerNat buffer 1) limit)) :
      ImagesOutcome K buffer limit (.error .outOfBuffer)
  | images (long : 16 ≤ buffer.length) (magic : headerNat buffer 0 = 0x803)
      (accepted : neededSize buffer ≤ buffer.length)
      (fits : Fits buffer (imageSize buffer) (limited (headerNat buffer 1) limit)) :
      ImagesOutcome K buffer limit
        (.ok (imagesAt K buffer (imageSize buffer) (limited (headerNat buffer 1) limit)))

section

variable [Zero K] [NatCast K] {buffer : List UInt8}

theorem readMnistImageFile_accepted (h : 16 ≤ buffer.length) (hmagic : headerNat buffer 0 = 0x803)
    (haccepted : neededSize buffer ≤ buffer.length) (limit : ℕ) :
    readMnistImageFile K (some buffer) limit =
      if Fits buffer (imageSize buffer) (limited (headerNat buffer 1) limit) then
        .ok (imagesAt K buffer (imageSize buffer) (limited (headerNat buffer 1) limit))
      else .error .outOfBuffer := by
  rw [readMnistImageFile, readMnistFile_images h hmagic, if_neg (by omega), ok_bind]
  dsimp only
  rw [readHeader_ok (by omega), ok_bind, readHeader_ok (by omega), ok_bind, readHeader_ok (by omega),
    ok_bind, toNat_imageSize, toNat_ofNat_headerNat, readImages_eq h]
  by_cases hfits : Fits buffer (imageSize buffer) (limited (headerNat buffer 1) limit)
  · rw [if_pos hfits, if_pos hfits]
    rfl
  · rw [if_neg hfits, if_neg hfits]
    rfl

theorem imagesOutcome (buffer : List UInt8) (limit : ℕ) :
    ImagesOutcome K buffer limit (readMnistImageFile K (some buffer) limit) := by
  by_cases h4 : buffer.length < 4
  · rw [readMnistImageFile, readMnistFile_short h4]
    exact .noHeader h4
  · by_cases hmagic : headerNat buffer 0 = 0x803
    · by_cases h16 : buffer.length < 16
      · rw [readMnistImageFile, readMnistFile_cut (by omega) hmagic h16]
        exact .cutHeader (by omega) hmagic h16
      · by_cases hsmall : buffer.length < neededSize buffer
        · rw [readMnistImageFile, readMnistFile_images (by omega) hmagic, if_pos hsmall]
          exact .tooSmall (by omega) hmagic hsmall
        · rw [readMnistImageFile_accepted (by omega) hmagic (by omega)]
          by_cases hfits : Fits buffer (imageSize buffer) (limited (headerNat buffer 1) limit)
          · rw [if_pos hfits]
            exact .images (by omega) hmagic (by omega) hfits
          · rw [if_neg hfits]
            exact .overrun (by omega) hmagic (by omega) hfits
    · rw [readMnistImageFile, readMnistFile_other (by omega) hmagic]
      exact .otherKind (by omega) hmagic

theorem limited_le (count limit : ℕ) : limited count limit ≤ count := by
  unfold limited
  split <;> omega

/-- Where the computed size is the real one, what is accepted is there. -/
theorem fits_of_accepted (haccepted : neededSize buffer ≤ buffer.length)
    (hwhole : headerNat buffer 1 * headerNat buffer 2 * headerNat buffer 3 + 16 < 2 ^ 32)
    (hpixels : headerNat buffer 2 * headerNat buffer 3 ≤ 784) (limit : ℕ) :
    Fits buffer (imageSize buffer) (limited (headerNat buffer 1) limit) := by
  have hsize : imageSize buffer = headerNat buffer 2 * headerNat buffer 3 :=
    Nat.mod_eq_of_lt (by omega)
  rw [neededSize, Nat.mod_eq_of_lt hwhole, Nat.mul_assoc, ← hsize] at haccepted
  have hle := Nat.mul_le_mul_right (imageSize buffer) (limited_le (headerNat buffer 1) limit)
  exact .inr ⟨by omega, by omega⟩

/-- For every content and limit the reader gives the images, or none for a file that is not of this kind or
too small, or leaves a buffer: where the header is cut off, and where the images do not fit although the
computed size is there. The latter needs images of more than 784 pixels, or a size that has wrapped
around. -/
theorem readMnistImageFile_outcome (buffer : List UInt8) (limit : ℕ) :
    ImagesOutcome K buffer limit (readMnistImageFile K (some buffer) limit) ∧
    (16 ≤ buffer.length → headerNat buffer 2 * headerNat buffer 3 ≤ 784 →
      headerNat buffer 1 * headerNat buffer 2 * headerNat buffer 3 + 16 < 2 ^ 32 →
        readMnistImageFile K (some buffer) limit ≠ .error .outOfBuffer) := by
  refine ⟨imagesOutcome buffer limit, fun h16 hpixels hwhole herror => ?_⟩
  have houtcome : ImagesOutcome K buffer limit (.error .outOfBuffer) := herror ▸ imagesOutcome buffer limit
  cases houtcome with
  | noHeader short => omega
  | cutHeader _ _ short => omega
  | overrun _ _ accepted leaves => exact leaves (fits_of_accepted accepted hwhole hpixels limit)

end

/-! ## Files of this format -/

/-- An image file: the magic number, the number of images, their extents, and the pixels. -/
def idxImages (rows columns : ℕ) (images : List (List UInt8)) : List UInt8 :=
  beBytes 4 0x803 ++ (beBytes 4 images.length ++ (beBytes 4 rows ++ (beBytes 4 columns ++ images.flatten)))

/-- A label file. -/
def idxLabels (labels : List UInt8) : List UInt8 :=
  beBytes 4 0x801 ++ (beBytes 4 labels.length ++ labels)

/-- The first `limit` elements, all for 0. -/
def firstOf {α : Type} (limit : ℕ) (l : List α) : List α := if limit = 0 then l else l.take limit

theorem firstOf_eq {α : Type} (limit : ℕ) (l : List α) : firstOf limit l = l.take (limited l.length limit) := by
  unfold firstOf limited
  by_cases hzero : limit = 0
  · rw [if_pos hzero, if_neg (by omega), List.take_length]
  · rw [if_neg hzero]
    by_cases hlt : limit < l.length
    · rw [if_pos ⟨by omega, hlt⟩]
    · rw [if_neg (by omega), List.take_of_length_le (by omega), List.take_length]

/-- The blocks of a concatenation, when they have one length. -/
theorem block_flatten {α : Type} {blocks : List (List α)} {size : ℕ} (h : ∀ b ∈ blocks, b.length = size)
    (rest : List α) {i : ℕ} {b : List α} (hb : blocks[i]? = some b) :
    ((blocks.flatten ++ rest).drop (i * size)).take size = b := by
  induction blocks generalizing i with
  | nil => cases hb
  | cons first blocks ih =>
    have hfirst : first.length = size := h first List.mem_cons_self
    rw [List.flatten_cons, List.append_assoc]
    cases i with
    | zero =>
      cases hb
      rw [Nat.zero_mul, List.drop_zero, List.take_left' hfirst]
    | succ i =>
      rw [Nat.succ_mul, Nat.add_comm, ← List.drop_drop, List.drop_left' hfirst]
      exact ih (fun b hb => h b (List.mem_cons_of_mem _ hb)) hb

theorem length_flatten_of {α : Type} {blocks : List (List α)} {size : ℕ}
    (h : ∀ b ∈ blocks, b.length = size) : blocks.flatten.length = blocks.length * size := by
  rw [List.length_flatten, List.map_congr_left h, List.map_const', List.sum_replicate_nat]

theorem headerNat_first (n : ℕ) (rest : List UInt8) : headerNat (beBytes 4 n ++ rest) 0 = n % 2 ^ 32 := by
  rw [headerNat, Nat.mul_zero, List.drop_zero, List.take_left' (length_beBytes 4 n), beNat_beBytes]

theorem headerNat_next (n : ℕ) (rest : List UInt8) (position : ℕ) :
    headerNat (beBytes 4 n ++ rest) (position + 1) = headerNat rest position := by
  rw [headerNat, Nat.mul_succ, Nat.add_comm, ← List.drop_drop, List.drop_left' (length_beBytes 4 n)]
  rfl

section

variable [Zero K] [NatCast K]

/-- The pixels of an image of the file, in a new image. -/
def toImage (K : Type) [Zero K] [NatCast K] (image : List UInt8) : List K :=
  image.map (fun pixel => (pixel.toNat : K)) ++ List.replicate (784 - image.length) 0

/-- The content is a file of these images, whose extents and size a word holds and whose pixels a new image
has room for; anything may follow. -/
structure ImageFile (rows columns : ℕ) (images : List (List UInt8)) (content : List UInt8) : Prop where
  rows_lt : rows < 2 ^ 32
  columns_lt : columns < 2 ^ 32
  count_lt : images.length < 2 ^ 32
  sizes : ∀ image ∈ images, image.length = rows * columns
  pixels_le : rows * columns ≤ 784
  whole_lt : images.length * (rows * columns) + 16 < 2 ^ 32
  shape : ∃ rest, content = idxImages rows columns images ++ rest

theorem readMnistImageFile_idx {rows columns : ℕ} {images : List (List UInt8)} {buffer : List UInt8}
    (h : ImageFile rows columns images buffer) (limit : ℕ) :
    readMnistImageFile K (some buffer) limit = .ok ((firstOf limit images).map (toImage K)) := by
  obtain ⟨hrows, hcolumns, hcount, hsize, hpixels, hwhole, rest, hbuffer⟩ := h
  have hshape : buffer = beBytes 4 0x803 ++ (beBytes 4 images.length ++ (beBytes 4 rows ++
      (beBytes 4 columns ++ (images.flatten ++ rest)))) := by
    simp only [hbuffer, idxImages, List.append_assoc]
  have hmagic : headerNat buffer 0 = 0x803 := by
    rw [hshape, headerNat_first]
    rfl
  have h1 : headerNat buffer 1 = images.length := by
    rw [hshape, headerNat_next, headerNat_first, Nat.mod_eq_of_lt hcount]
  have h2 : headerNat buffer 2 = rows := by
    rw [hshape, headerNat_next, headerNat_next, headerNat_first, Nat.mod_eq_of_lt hrows]
  have h3 : headerNat buffer 3 = columns := by
    rw [hshape, headerNat_next, headerNat_next, headerNat_next, headerNat_first, Nat.mod_eq_of_lt hcolumns]
  have hdrop : ∀ n, buffer.drop (16 + n) = (images.flatten ++ rest).drop n := by
    intro n
    rw [← List.drop_drop, hshape, show (16 : ℕ) = 4 + (4 + (4 + 4)) from rfl]
    simp only [← List.drop_drop, List.drop_left' (length_beBytes 4 _)]
  have hlength : buffer.length = 16 + images.length * (rows * columns) + rest.length := by
    simp only [hshape, List.length_append, length_beBytes, length_flatten_of hsize]
    omega
  have hneeded : neededSize buffer ≤ buffer.length := by
    rw [neededSize, h1, h2, h3, Nat.mul_assoc, Nat.mod_eq_of_lt hwhole]
    omega
  have himage : imageSize buffer = rows * columns := by
    rw [imageSize, h2, h3, Nat.mod_eq_of_lt (by omega)]
  have hfits := fits_of_accepted hneeded (by rw [h1, h2, h3, Nat.mul_assoc]; exact hwhole)
    (by rw [h2, h3]; exact hpixels) limit
  rw [readMnistImageFile_accepted (by omega) hmagic hneeded, if_pos hfits, himage, h1, firstOf_eq]
  refine congrArg Except.ok (List.ext_getElem? fun i => ?_)
  rw [imagesAt, List.getElem?_map, List.getElem?_map, List.getElem?_take]
  by_cases hi : i < limited images.length limit
  · have hlt : i < images.length := hi.trans_le (limited_le _ _)
    have hget : images[i]? = some images[i] := List.getElem?_eq_getElem hlt
    rw [if_pos hi, List.getElem?_range hi, hget, Option.map_some, Option.map_some, hdrop,
      block_flatten hsize rest hget, toImage, hsize _ (List.getElem_mem hlt)]
  · rw [if_neg hi, List.getElem?_eq_none (by simpa using hi)]
    rfl

end

/-- The content is a file of these labels; anything may follow. -/
structure LabelFile (labels content : List UInt8) : Prop where
  whole_lt : labels.length + 8 < 2 ^ 32
  shape : ∃ rest, content = idxLabels labels ++ rest

theorem readMnistLabelFile_idx {labels buffer : List UInt8} (h : LabelFile labels buffer) (limit : ℕ) :
    readMnistLabelFile (some buffer) limit = .ok (firstOf limit labels) := by
  obtain ⟨hcount, rest, hbuffer⟩ := h
  have hshape : buffer = beBytes 4 0x801 ++ (beBytes 4 labels.length ++ (labels ++ rest)) := by
    simp only [hbuffer, idxLabels, List.append_assoc]
  have hmagic : UInt32.ofNat (headerNat buffer 0) = 0x801 := by
    rw [hshape, headerNat_first]
    rfl
  have h1 : headerNat buffer 1 = labels.length := by
    rw [hshape, headerNat_next, headerNat_first, Nat.mod_eq_of_lt (by omega)]
  have hdrop : buffer.drop 8 = labels ++ rest := by
    rw [hshape, show (8 : ℕ) = 4 + 4 from rfl]
    simp only [← List.drop_drop, List.drop_left' (length_beBytes 4 _)]
  have hlength : buffer.length = 8 + labels.length + rest.length := by
    simp only [hshape, List.length_append, length_beBytes]
    omega
  have hcount1 : (UInt32.ofNat (headerNat buffer 1)).toNat = labels.length := by
    rw [toNat_ofNat_headerNat, h1]
  have hneeded : (UInt32.ofNat (headerNat buffer 1) + 8).toNat = labels.length + 8 := by
    rw [UInt32.toNat_add, hcount1]
    exact Nat.mod_eq_of_lt hcount
  have hfile : readMnistFile (some buffer) 0x801 = .ok (some buffer) := by
    rw [readMnistFile, readHeader_ok (by omega), ok_bind, hmagic, if_neg (by simp),
      readHeader_ok (by omega), ok_bind, if_neg (by decide), if_pos rfl, hneeded, if_neg (by omega)]
    rfl
  have hle := limited_le labels.length limit
  rw [readMnistLabelFile, hfile, ok_bind]
  dsimp only
  rw [readHeader_ok (by omega), ok_bind, hcount1, copyBytes_eq (by omega), List.length_replicate,
    if_pos ⟨le_rfl, by omega⟩, ok_bind, hdrop, List.map_id, List.take_append_of_le_length hle,
    List.drop_eq_nil_of_le (by rw [List.length_replicate]), List.append_nil, firstOf_eq]
  rfl

end Mnist
