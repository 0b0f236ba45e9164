import Mathlib.Data.UInt
import PPCNN.Cnn.InputTensor
import PPCNN.Cnn.Layers
import PPCNN.Server.Messages

/-!
# The images of a query (`helper_functions.cpp`)

`encryptImages` packs one pixel of many images into the slots of a ciphertext, for each cell of a tensor.
The tensor is then sent as a list of ciphertexts and the server copies these into a tensor of its own.
`packed_pixels`: every pixel reaches its slot of its cell. Sizes of vectors are below 2⁶⁰, so that sums
of two of them do not wrap around.
-/

set_option autoImplicit false

namespace Client

open Lib Cnn Share

variable {K R Ct Params β : Type}

/-- An encoder with an encryptor, and the slots that decryption and decoding give. `R` is what a call
takes from the random generator. -/
structure SlotCipher (K R Ct : Type) where
  slotCount : ℕ
  encrypt : R → List K → Ct
  /-- with the `encode` of one number -/
  encryptValue : R → K → Ct
  slots : Ct → List K
  slots_encrypt : ∀ r {values : List K}, values.length = slotCount → slots (encrypt r values) = values
  slots_encryptValue : ∀ r value, slots (encryptValue r value) = List.replicate slotCount value

/-! ## The loops over the cells -/

/-- The cells in the order of the loops over channels, rows and columns. -/
def cellOrder (rows cols channels : ℕ) : List (Fin channels × Fin rows × Fin cols) :=
  (List.finRange channels).flatMap fun ch => (List.finRange rows).flatMap fun row =>
    (List.finRange cols).map fun col => (ch, row, col)

/-- The cells of a tensor, and what an iteration leaves to the next one. -/
abbrev CellState (Ct β : Type) (rows cols channels : ℕ) :=
  (Fin rows → Fin cols → Fin channels → Ct) × β

section

variable {rows cols channels : ℕ}

/-- An iteration: it assigns one cell. -/
def assignCell (body : Fin rows → Fin cols → Fin channels → β → Except Error (Ct × β))
    (s : CellState Ct β rows cols channels) (i : Fin channels × Fin rows × Fin cols) :
    Except Error (CellState Ct β rows cols channels) := do
  let (ctxt, b) ← body i.2.1 i.2.2 i.1 s.2
  return (fun row col ch => if (ch, row, col) = i then ctxt else s.1 row col ch, b)

theorem mem_cellOrder (i : Fin channels × Fin rows × Fin cols) : i ∈ cellOrder rows cols channels := by
  simp only [cellOrder, List.mem_flatMap, List.mem_map, List.mem_finRange, true_and]
  exact ⟨i.1, i.2.1, i.2.2, rfl⟩

/-- A body that keeps `I` and gives `ctxt` in each cell assigns these cells. -/
theorem assignCell_loop {I : β → Prop}
    {body : Fin rows → Fin cols → Fin channels → β → Except Error (Ct × β)}
    {ctxt : Fin rows → Fin cols → Fin channels → Ct}
    (hbody : ∀ row col ch b, I b → ∃ b', body row col ch b = .ok (ctxt row col ch, b') ∧ I b')
    (cells : Fin rows → Fin cols → Fin channels → Ct) {b : β} (hI : I b) :
    ∃ b', (cellOrder rows cols channels).foldlM (assignCell body) (cells, b) = .ok (ctxt, b') := by
  obtain ⟨s, hloop, hs, -⟩ := foldlM_invariant (f := assignCell body)
    (I := fun pre s => (∀ i ∈ pre, s.1 i.2.1 i.2.2 i.1 = ctxt i.2.1 i.2.2 i.1) ∧ I s.2)
    (l := cellOrder rows cols channels) (b := (cells, b))
    ⟨fun i hi => absurd hi List.not_mem_nil, hI⟩ (by
      rintro pre i post s - ⟨hpre, hIs⟩
      obtain ⟨b', hb', hI'⟩ := hbody i.2.1 i.2.2 i.1 s.2 hIs
      refine ⟨_, by rw [assignCell, hb']; rfl, fun j hj => ?_, hI'⟩
      by_cases hji : j = i
      · rw [hji]
        exact if_pos rfl
      · refine (if_neg hji).trans (hpre j ?_)
        rcases List.mem_append.1 hj with hj | hj
        · exact hj
        · exact absurd (List.mem_singleton.1 hj) hji)
  have hcells : s.1 = ctxt := by
    funext row col ch
    exact hs (ch, row, col) (mem_cellOrder _)
  exact ⟨s.2, by rw [hloop, ← hcells]⟩

end

/-- The loops over the cells of `target`. -/
def forEachCell (target : Tensor3 Ct)
    (body : Fin target.height → Fin target.width → Fin target.channels → β → Except Error (Ct × β))
    (b : β) : Except Error (Tensor3 Ct) := do
  let s ← (cellOrder target.height target.width target.channels).foldlM (assignCell body)
    (target.cell, b)
  return ⟨target.height, target.width, target.channels, s.1⟩

theorem forEachCell_ok {I : β → Prop} {target : Tensor3 Ct}
    {body : Fin target.height → Fin target.width → Fin target.channels → β → Except Error (Ct × β)}
    {ctxt : Fin target.height → Fin target.width → Fin target.channels → Ct}
    (hbody : ∀ row col ch b, I b → ∃ b', body row col ch b = .ok (ctxt row col ch, b') ∧ I b')
    {b : β} (hI : I b) :
    forEachCell target body b = .ok ⟨target.height, target.width, target.channels, ctxt⟩ := by
  obtain ⟨b', hloop⟩ := assignCell_loop hbody target.cell hI
  rw [forEachCell, hloop]
  rfl

/-! ## encryptImage and encryptImages -/

/-- `pos`, the place of a pixel in an image. -/
def pixelPos (rows cols : ℕ) (row col ch : ℕ) : ℕ := ch * (rows * cols) + row * cols + col

variable (cipher : SlotCipher K R Ct)

/-- `encryptImage`; `rand` is what the generator gives for each cell. -/
def encryptImage (rand : ℕ → ℕ → ℕ → R) (originImage : List K) (targetImage : Tensor3 Ct) :
    Except Error (Tensor3 Ct) :=
  forEachCell targetImage (fun row col ch (_ : Unit) => do
    let pixel ← readVector originImage (pixelPos targetImage.height targetImage.width row col ch)
    return (cipher.encryptValue (rand row col ch) pixel, ())) ()

/-- `pixels_in_slots[counter++] = origin_images[idx][pos]` -/
def fillSlot (originImages : List (List K)) (pos : ℕ) (s : List K × ℕ) (idx : ℕ) :
    Except Error (List K × ℕ) := do
  let image ← readVector originImages idx
  let pixel ← readVector image pos
  if s.2 < s.1.length then return (s.1.set s.2 pixel, s.2 + 1)
  else throw .bufferOverflow

/-- The indices into `origin_images` of the loop over `idx`, in both branches. The difference of
`end_idx` and `begin_idx` wraps around where it is negative, and is then no less than `slot_count`. -/
def slotIndices (imageCount slotCount beginIdx endIdx : ℕ) : List ℕ :=
  if beginIdx ≤ endIdx ∧ endIdx - beginIdx < slotCount then
    (List.range' beginIdx (endIdx + (slotCount - (endIdx - beginIdx)) - beginIdx)).map (· % imageCount)
  else List.range' beginIdx (endIdx - beginIdx)

/-- `encryptImages` -/
def encryptImages [Zero K] (rand : ℕ → ℕ → ℕ → R) (originImages : List (List K))
    (targetPackedImages : Tensor3 Ct) (beginIdx endIdx : ℕ) : Except Error (Tensor3 Ct) :=
  let idxs := slotIndices originImages.length cipher.slotCount beginIdx endIdx
  forEachCell targetPackedImages (fun row col ch pixelsInSlots => do
    let pos := pixelPos targetPackedImages.height targetPackedImages.width row col ch
    let (pixelsInSlots, _) ← idxs.foldlM (fillSlot originImages pos) (pixelsInSlots, 0)
    return (cipher.encrypt (rand row col ch) pixelsInSlots, List.replicate pixelsInSlots.length 0))
    (List.replicate cipher.slotCount 0)

/-! ## The slots of a cell -/

/-- Pixel `pos` of image `idx`. -/
def pixel? (originImages : List (List K)) (pos idx : ℕ) : Option K :=
  originImages[idx]?.bind fun image => image[pos]?

theorem fillSlot_eq {originImages : List (List K)} {pos idx : ℕ} {pixel : K}
    (hpixel : pixel? originImages pos idx = some pixel) (filled : List K) (x : K) (room : List K) :
    fillSlot originImages pos (filled ++ x :: room, filled.length) idx =
      .ok (filled ++ pixel :: room, filled.length + 1) := by
  obtain ⟨image, himage, hpos⟩ := Option.bind_eq_some_iff.1 hpixel
  have hlt : filled.length < (filled ++ x :: room).length := by
    rw [List.length_append, List.length_cons]
    omega
  simp only [fillSlot, readVector, himage, ok_bind, hpos, if_pos hlt, pure_eq_ok,
    List.set_append_right _ _ le_rfl, Nat.sub_self, List.set_cons_zero]

/-- The loop over `idx` fills one slot after the other. -/
theorem fillSlot_loop {originImages : List (List K)} {pos : ℕ} {pixel : ℕ → K} {idxs : List ℕ}
    (hpixel : ∀ idx ∈ idxs, pixel? originImages pos idx = some (pixel idx)) (filled : List K) {room : List K}
    (hroom : room.length = idxs.length) :
    idxs.foldlM (fillSlot originImages pos) (filled ++ room, filled.length) =
      .ok (filled ++ idxs.map pixel, filled.length + idxs.length) := by
  induction idxs generalizing filled room with
  | nil =>
    rw [List.length_eq_zero_iff.1 hroom]
    rfl
  | cons idx idxs ih =>
    obtain ⟨x, room, rfl⟩ := List.exists_cons_of_length_eq_add_one hroom
    have hstep := ih (fun i hi => hpixel i (List.mem_cons_of_mem _ hi)) (filled ++ [pixel idx])
      (Nat.succ.inj hroom)
    rw [List.foldlM_cons, fillSlot_eq (hpixel idx List.mem_cons_self), ok_bind]
    simpa [Nat.add_assoc, Nat.add_comm 1] using hstep

/-- The image that slot `k` holds a pixel of: the range first, then on from its start, around the list. -/
def slotImage (imageCount beginIdx endIdx k : ℕ) : ℕ :=
  if k < endIdx - beginIdx then beginIdx + k else (beginIdx + k) % imageCount

theorem slotIndices_eq {imageCount slotCount beginIdx endIdx : ℕ} (hbegin : beginIdx ≤ endIdx)
    (hend : endIdx ≤ imageCount) (hlen : endIdx - beginIdx ≤ slotCount) :
    slotIndices imageCount slotCount beginIdx endIdx =
      (List.range slotCount).map (slotImage imageCount beginIdx endIdx) := by
  unfold slotIndices
  split
  · have hcount : endIdx + (slotCount - (endIdx - beginIdx)) - beginIdx = slotCount := by omega
    rw [hcount, List.range'_eq_map_range, List.map_map]
    refine List.map_congr_left fun k _ => ?_
    -- an index of the range itself is in the list, so the remainder leaves it as it is
    unfold slotImage
    split
    · exact Nat.mod_eq_of_lt (show beginIdx + k < imageCount by omega)
    · rfl
  · have hcount : endIdx - beginIdx = slotCount := by omega
    rw [hcount, List.range'_eq_map_range]
    refine List.map_congr_left fun k hk => ?_
    rw [slotImage, if_pos (by rw [hcount]; exact List.mem_range.1 hk)]

theorem slotImage_lt {imageCount endIdx : ℕ} (hn : 0 < imageCount) (hend : endIdx ≤ imageCount)
    (beginIdx k : ℕ) : slotImage imageCount beginIdx endIdx k < imageCount := by
  unfold slotImage
  split
  · omega
  · exact Nat.mod_lt _ hn

theorem pixelPos_lt {rows cols channels : ℕ} (row : Fin rows) (col : Fin cols) (ch : Fin channels) :
    pixelPos rows cols row col ch < channels * rows * cols := by
  have hin : (row : ℕ) * cols + col < rows * cols := by
    calc (row : ℕ) * cols + col < row * cols + cols := Nat.add_lt_add_left col.isLt _
      _ = (row + 1) * cols := (Nat.succ_mul _ _).symm
      _ ≤ rows * cols := Nat.mul_le_mul_right _ row.isLt
  calc pixelPos rows cols row col ch = ch * (rows * cols) + (row * cols + col) := Nat.add_assoc _ _ _
    _ < ch * (rows * cols) + rows * cols := Nat.add_lt_add_left hin _
    _ = (ch + 1) * (rows * cols) := (Nat.succ_mul _ _).symm
    _ ≤ channels * (rows * cols) := Nat.mul_le_mul_right _ ch.isLt
    _ = channels * rows * cols := (Nat.mul_assoc _ _ _).symm

section

variable {originImages : List (List K)} {rows cols channels slotCount beginIdx endIdx : ℕ}

/-- The range lies in the image list and fits into the slots. -/
structure RangeFits (imageCount slotCount beginIdx endIdx : ℕ) : Prop where
  imageCount_pos : 0 < imageCount
  begin_le : beginIdx ≤ endIdx
  end_le : endIdx ≤ imageCount
  fits : endIdx - beginIdx ≤ slotCount

/-- Slot `k` of `pixels` holds a pixel of the image that belongs there. -/
structure HoldsPixels (originImages : List (List K)) (slotCount beginIdx endIdx pos : ℕ)
    (pixels : List K) : Prop where
  length_eq : pixels.length = slotCount
  pixel_eq : ∀ k < slotCount, ∃ pixel,
    pixel? originImages pos (slotImage originImages.length beginIdx endIdx k) = some pixel ∧
      pixels[k]? = some pixel

theorem pixel?_pos (himages : ∀ image ∈ originImages, channels * rows * cols ≤ image.length) {idx : ℕ}
    (hidx : idx < originImages.length) (row : Fin rows) (col : Fin cols) (ch : Fin channels) :
    ∃ pixel, pixel? originImages (pixelPos rows cols row col ch) idx = some pixel := by
  have hpos : pixelPos rows cols row col ch < originImages[idx].length :=
    (pixelPos_lt row col ch).trans_le (himages _ (List.getElem_mem hidx))
  refine ⟨originImages[idx][pixelPos rows cols row col ch], ?_⟩
  rw [pixel?, List.getElem?_eq_getElem hidx, Option.bind_some, List.getElem?_eq_getElem hpos]

/-- What the loop over `idx` leaves in the slots, of which it writes every one. -/
theorem fillSlot_run [Zero K] (himages : ∀ image ∈ originImages, channels * rows * cols ≤ image.length)
    (hrange : RangeFits originImages.length slotCount beginIdx endIdx) (row : Fin rows) (col : Fin cols)
    (ch : Fin channels) :
    ∃ pixels, HoldsPixels originImages slotCount beginIdx endIdx (pixelPos rows cols row col ch) pixels ∧
      ∀ room : List K, room.length = slotCount →
        (slotIndices originImages.length slotCount beginIdx endIdx).foldlM
          (fillSlot originImages (pixelPos rows cols row col ch)) (room, 0) = .ok (pixels, slotCount) := by
  have hpixel : ∀ idx < originImages.length,
      ∃ pixel, pixel? originImages (pixelPos rows cols row col ch) idx = some pixel :=
    fun idx hidx => pixel?_pos himages hidx row col ch
  choose! pixel hpixel using hpixel
  have himage := slotImage_lt hrange.imageCount_pos hrange.end_le beginIdx
  have hidxs := slotIndices_eq hrange.begin_le hrange.end_le hrange.fits
  refine ⟨((List.range slotCount).map (slotImage originImages.length beginIdx endIdx)).map pixel,
    ⟨by simp, fun k hk => ⟨_, hpixel _ (himage k), by simp [hk]⟩⟩, fun room hroom => ?_⟩
  have hread : ∀ idx ∈ slotIndices originImages.length slotCount beginIdx endIdx,
      pixel? originImages (pixelPos rows cols row col ch) idx = some (pixel idx) := by
    intro idx hidx
    rw [hidxs] at hidx
    obtain ⟨k, -, rfl⟩ := List.mem_map.1 hidx
    exact hpixel _ (himage k)
  have hloop := fillSlot_loop hread [] (hroom.trans (by simp [hidxs]))
  simpa [hidxs] using hloop

end

variable {cipher}

/-- Of a longer image the pixels behind the extents are not read. -/
theorem encryptImages_of_le [Zero K] {originImages : List (List K)} {rows cols channels : ℕ}
    {beginIdx endIdx : ℕ} (himages : ∀ image ∈ originImages, channels * rows * cols ≤ image.length)
    (hrange : RangeFits originImages.length cipher.slotCount beginIdx endIdx)
    (rand : ℕ → ℕ → ℕ → R) (cells : Fin rows → Fin cols → Fin channels → Ct) :
    ∃ pixels : Fin rows → Fin cols → Fin channels → List K,
      encryptImages cipher rand originImages ⟨rows, cols, channels, cells⟩ beginIdx endIdx =
        .ok ⟨rows, cols, channels, fun (row : Fin rows) (col : Fin cols) (ch : Fin channels) =>
          cipher.encrypt (rand row col ch) (pixels row col ch)⟩ ∧
      ∀ (row : Fin rows) (col : Fin cols) (ch : Fin channels),
        HoldsPixels originImages cipher.slotCount beginIdx endIdx
          (pixelPos rows cols row col ch) (pixels row col ch) ∧
        (slotIndices originImages.length cipher.slotCount beginIdx endIdx).foldlM
          (fillSlot originImages (pixelPos rows cols row col ch))
          (List.replicate cipher.slotCount 0, 0) = .ok (pixels row col ch, cipher.slotCount) := by
  choose pixels hholds hfill using fillSlot_run (K := K) himages hrange
  refine ⟨pixels, ?_, fun row col ch => ⟨hholds row col ch,
    hfill row col ch _ List.length_replicate⟩⟩
  refine forEachCell_ok (I := fun room => room.length = cipher.slotCount) ?_ List.length_replicate
  intro row col ch room hroom
  refine ⟨List.replicate (pixels row col ch).length 0, ?_, by simp [(hholds row col ch).length_eq]⟩
  exact bind_of_ok (hfill row col ch room hroom) _

theorem encryptImages_eq [Zero K] {originImages : List (List K)} {rows cols channels : ℕ}
    {beginIdx endIdx : ℕ} (himages : ∀ image ∈ originImages, image.length = channels * rows * cols)
    (hrange : RangeFits originImages.length cipher.slotCount beginIdx endIdx)
    (rand : ℕ → ℕ → ℕ → R) (cells : Fin rows → Fin cols → Fin channels → Ct) :
    ∃ pixels : Fin rows → Fin cols → Fin channels → List K,
      encryptImages cipher rand originImages ⟨rows, cols, channels, cells⟩ beginIdx endIdx =
        .ok ⟨rows, cols, channels, fun (row : Fin rows) (col : Fin cols) (ch : Fin channels) =>
          cipher.encrypt (rand row col ch) (pixels row col ch)⟩ ∧
      ∀ (row : Fin rows) (col : Fin cols) (ch : Fin channels),
        HoldsPixels originImages cipher.slotCount beginIdx endIdx
          (pixelPos rows cols row col ch) (pixels row col ch) ∧
        (slotIndices originImages.length cipher.slotCount beginIdx endIdx).foldlM
          (fillSlot originImages (pixelPos rows cols row col ch))
          (List.replicate cipher.slotCount 0, 0) = .ok (pixels row col ch, cipher.slotCount) :=
  encryptImages_of_le (fun image h => (himages image h).ge) hrange rand cells

/-- When `encryptImages` returns, it has read every image it visits. -/
theorem lt_of_encryptImages [Zero K] {rand : ℕ → ℕ → ℕ → R} {originImages : List (List K)} {t t' : Tensor3 Ct}
    {beginIdx endIdx idx : ℕ} (hrows : 0 < t.height) (hcols : 0 < t.width) (hchannels : 0 < t.channels)
    (h : encryptImages cipher rand originImages t beginIdx endIdx = .ok t')
    (hidx : idx ∈ slotIndices originImages.length cipher.slotCount beginIdx endIdx) :
    idx < originImages.length := by
  obtain ⟨s, hcells, -⟩ := bind_eq_ok.1 h
  obtain ⟨c, c', hcell⟩ := foldlM_eq_ok_mem hcells
    (mem_cellOrder (⟨0, hchannels⟩, ⟨0, hrows⟩, ⟨0, hcols⟩))
  obtain ⟨assigned, hbody, -⟩ := bind_eq_ok.1 hcell
  obtain ⟨filled, hfill, -⟩ := bind_eq_ok.1 hbody
  obtain ⟨a, a', hslot⟩ := foldlM_eq_ok_mem hfill hidx
  obtain ⟨image, himage, -⟩ := bind_eq_ok.1 hslot
  unfold readVector at himage
  split at himage
  · rename_i x hx
    exact (List.getElem?_eq_some_iff.1 hx).1
  · cases himage

theorem encryptImage_eq (cipher : SlotCipher K R Ct) {originImage : List K} {rows cols channels : ℕ}
    (himage : originImage.length = channels * rows * cols) (rand : ℕ → ℕ → ℕ → R)
    (cells : Fin rows → Fin cols → Fin channels → Ct) :
    ∃ pixel : Fin rows → Fin cols → Fin channels → K,
      encryptImage cipher rand originImage ⟨rows, cols, channels, cells⟩ =
        .ok ⟨rows, cols, channels, fun (row : Fin rows) (col : Fin cols) (ch : Fin channels) =>
          cipher.encryptValue (rand row col ch) (pixel row col ch)⟩ ∧
      ∀ (row : Fin rows) (col : Fin cols) (ch : Fin channels),
        originImage[pixelPos rows cols row col ch]? = some (pixel row col ch) := by
  have hpixel : ∀ (row : Fin rows) (col : Fin cols) (ch : Fin channels),
      ∃ pixel, originImage[pixelPos rows cols row col ch]? = some pixel := fun row col ch =>
    ⟨_, List.getElem?_eq_getElem (by rw [himage]; exact pixelPos_lt row col ch)⟩
  choose pixel hpixel using hpixel
  refine ⟨pixel, ?_, hpixel⟩
  refine forEachCell_ok (I := fun _ => True) ?_ trivial
  intro row col ch _ _
  refine ⟨(), ?_, trivial⟩
  simp only [readVector, hpixel, ok_bind, pure_eq_ok]

/-- Encryption of one image fills the slots of each cell with its pixel there. -/
theorem slots_one {originImage : List K} {slotCount beginIdx endIdx pos : ℕ} {pixels : List K} {pixel : K}
    (hrange : RangeFits 1 slotCount beginIdx endIdx)
    (h : HoldsPixels [originImage] slotCount beginIdx endIdx pos pixels)
    (hpixel : originImage[pos]? = some pixel) : List.replicate slotCount pixel = pixels := by
  refine List.ext_getElem? fun k => ?_
  by_cases hk : k < slotCount
  · obtain ⟨pixel', hpixel', hk'⟩ := h.pixel_eq k hk
    have himage := slotImage_lt hrange.imageCount_pos hrange.end_le beginIdx k
    have hzero : slotImage [originImage].length beginIdx endIdx k = 0 := Nat.lt_one_iff.1 himage
    rw [hzero] at hpixel'
    rw [hk', List.getElem?_replicate_of_lt hk, ← hpixel, ← hpixel']
    rfl
  · rw [List.getElem?_eq_none (by simpa using hk),
      List.getElem?_eq_none (by rw [h.length_eq]; exact not_lt.1 hk)]

/-! ## The tensor of the server -/

/-- From the tensor of the client to the ciphertexts that the server copies: `EncData` of `data()` and
`rows * cols * channels`, saved and loaded. -/
def transfer (C : Codec Params Ct) (encParams : Params) (encPackedImgs : Tensor3 Ct) :
    Except Fault (List Ct) := do
  let elemNum := IntArith.lp64.size (encPackedImgs.height * encPackedImgs.width * encPackedImgs.channels)
  let encInputs ← EncData.ofArray encPackedImgs.toUnits elemNum.toNat
  let (ctxts, _) ← EncData.load C encParams (.ofBytes (EncData.save C encInputs []).1)
  return ctxts

theorem transfer_eq {C : Codec Params Ct} {encParams : Params} {t : Tensor3 Ct}
    (hC : ∀ ctxt ∈ t.toUnits, C.RoundTrips encParams ctxt) (hsize : t.height * t.width * t.channels < 2 ^ 64) :
    transfer C encParams t = .ok t.toUnits := by
  have helem : (IntArith.lp64.size (t.height * t.width * t.channels)).toNat = t.toUnits.length := by
    rw [t.length_toUnits]
    exact_mod_cast IntArith.toNat_size_lp64 hsize
  have hs := ByteStream.unread_ofBytes (EncData.image C t.toUnits ++ [])
  obtain ⟨is, hload, -⟩ := EncData.load_unread hC (by rwa [t.length_toUnits]) hs
  rw [List.append_nil] at hload
  rw [transfer]
  simp only [helem, EncData.ofArray, le_refl, if_true, List.take_length, pure_eq_ok, ok_bind,
    EncData.save_nil hC, hload]

variable [Zero K]

/-- Every pixel of the range, and of the images that fill up the slots, reaches its slot of its cell in the
tensor of the server. The length of an image is a `size_t`. -/
theorem packed_pixels (cipher : SlotCipher K R Ct) (C : Codec Params Ct) (encParams : Params)
    (hC : ∀ r values, values.length = cipher.slotCount →
      C.RoundTrips encParams (cipher.encrypt r values)) {testImgs : List (List K)} {rows cols channels : ℕ}
    (himages : ∀ image ∈ testImgs, image.length = channels * rows * cols)
    (hsize : channels * rows * cols < 2 ^ 64) {beginIdx endIdx : ℕ}
    (hrange : RangeFits testImgs.length cipher.slotCount beginIdx endIdx) (rand : ℕ → ℕ → ℕ → R)
    (cells : Fin rows → Fin cols → Fin channels → Ct) :
    ∃ (packed : Fin rows → Fin cols → Fin channels → Ct) (ctxts : List Ct) (storage : List (Option Ct)),
      encryptImages cipher rand testImgs ⟨rows, cols, channels, cells⟩ beginIdx endIdx =
        .ok ⟨rows, cols, channels, packed⟩ ∧
      transfer C encParams ⟨rows, cols, channels, packed⟩ = .ok ctxts ∧
      copyCtxts .lp64 rows cols channels ctxts = .ok storage ∧
      (∀ (row : Fin rows) (col : Fin cols) (ch : Fin channels), ∃ ctxt,
        (inputTensor rows cols channels storage).cell row col ch = .ok ctxt ∧
        HoldsPixels testImgs cipher.slotCount beginIdx endIdx (pixelPos rows cols row col ch)
          (cipher.slots ctxt) ∧
        (slotIndices testImgs.length cipher.slotCount beginIdx endIdx).foldlM
          (fillSlot testImgs (pixelPos rows cols row col ch)) (List.replicate cipher.slotCount 0, 0) =
            .ok (cipher.slots ctxt, cipher.slotCount)) ∧
      ∀ image, testImgs = [image] → ∀ (rand' : ℕ → ℕ → ℕ → R) cells',
        ∃ single : Fin rows → Fin cols → Fin channels → Ct,
          encryptImage cipher rand' image ⟨rows, cols, channels, cells'⟩ =
            .ok ⟨rows, cols, channels, single⟩ ∧
          ∀ row col ch, cipher.slots (single row col ch) = cipher.slots (packed row col ch) := by
  obtain ⟨pixels, hencrypt, hpixels⟩ := encryptImages_eq himages hrange rand cells
  have hcount : rows * cols * channels < 2 ^ 64 := by
    rw [Nat.mul_comm, ← Nat.mul_assoc]
    exact hsize
  have hslots : ∀ (row : Fin rows) (col : Fin cols) (ch : Fin channels),
      cipher.slots (cipher.encrypt (rand row col ch) (pixels row col ch)) = pixels row col ch :=
    fun row col ch => cipher.slots_encrypt _ (hpixels row col ch).1.length_eq
  let packed : Tensor3 Ct := ⟨rows, cols, channels, fun row col ch =>
    cipher.encrypt (rand row col ch) (pixels row col ch)⟩
  have hstorage : (IntArith.lp64.size (rows * cols * channels)).toNat = packed.toUnits.length := by
    rw [packed.length_toUnits]
    exact_mod_cast IntArith.toNat_size_lp64 hcount
  have hloads : ∀ ctxt ∈ packed.toUnits, C.RoundTrips encParams ctxt := by
    intro ctxt hctxt
    obtain ⟨row, col, ch, rfl⟩ := Tensor3.mem_toUnits hctxt
    exact hC _ _ (hpixels row col ch).1.length_eq
  refine ⟨packed.cell, packed.toUnits, packed.toUnits.map some, hencrypt,
    transfer_eq hloads hcount, copyCtxts_eq hstorage, fun row col ch => ?_, ?_⟩
  · refine ⟨packed.cell row col ch, inputTensor_cell packed row col ch, ?_, ?_⟩
    · rw [hslots]
      exact (hpixels row col ch).1
    · rw [hslots]
      exact (hpixels row col ch).2
  · rintro image rfl rand' cells'
    obtain ⟨pixel, hsingle, hpixel⟩ :=
      encryptImage_eq cipher (himages image List.mem_cons_self) rand' cells'
    refine ⟨_, hsingle, fun row col ch => ?_⟩
    rw [hslots, cipher.slots_encryptValue]
    exact slots_one hrange (hpixels row col ch).1 (hpixel row col ch)

/-- Encryption that leaves the numbers in the open. -/
def openCipher : SlotCipher UInt8 Unit (List UInt8) where
  slotCount := 3
  encrypt _ values := values
  encryptValue _ value := List.replicate 3 value
  slots ctxt := ctxt
  slots_encrypt _ _ _ := rfl
  slots_encryptValue _ _ := rfl

/-- Three images of 2 × 3 pixels and two channels. -/
def threeImages : List (List UInt8) :=
  [[1, 2, 3, 4, 5, 6, 7, 8, 9, 10, 11, 12], [21, 22, 23, 24, 25, 26, 27, 28, 29, 30, 31, 32],
    [41, 42, 43, 44, 45, 46, 47, 48, 49, 50, 51, 52]]

/-- The second and third image are packed; every cell of the tensor holds the pixels of its channel, row
and column. In the last cell are the last pixels of these two, and of the first image in the slot that is
left. -/
theorem packed_pixels_sample :
    ∃ (packed : Fin 2 → Fin 3 → Fin 2 → List UInt8) (ctxts : List (List UInt8))
      (storage : List (Option (List UInt8))),
      encryptImages openCipher (fun _ _ _ => ()) threeImages ⟨2, 3, 2, fun _ _ _ => []⟩ 1 3 =
        .ok ⟨2, 3, 2, packed⟩ ∧
      transfer (Server.sampleCodec Unit) () ⟨2, 3, 2, packed⟩ = .ok ctxts ∧
      copyCtxts .lp64 2 3 2 ctxts = .ok storage ∧
      (∀ (row : Fin 2) (col : Fin 3) (ch : Fin 2), ∃ ctxt,
        (inputTensor 2 3 2 storage).cell row col ch = .ok ctxt ∧
          HoldsPixels threeImages 3 1 3 (pixelPos 2 3 row col ch) ctxt) ∧
      (inputTensor 2 3 2 storage).cell (1 : Fin 2) (2 : Fin 3) (1 : Fin 2) = .ok [32, 52, 12] := by
  obtain ⟨packed, ctxts, storage, hpacked, hsent, hcopied, hcells, -⟩ :=
    packed_pixels openCipher (Server.sampleCodec Unit) ()
      (fun _ values hlen => Server.sampleCodec_roundTrips () (by simp only [openCipher] at *; omega))
      (show ∀ image ∈ threeImages, image.length = 2 * 2 * 3 by decide)
      (by decide) (show RangeFits 3 3 1 3 from ⟨by decide, by decide, by decide, by decide⟩)
      (fun _ _ _ => ()) (fun _ _ _ => [])
  refine ⟨packed, ctxts, storage, hpacked, hsent, hcopied, fun row col ch => ?_, ?_⟩
  · obtain ⟨ctxt, hctxt, hholds, -⟩ := hcells row col ch
    exact ⟨ctxt, hctxt, hholds⟩
  · obtain ⟨ctxt, hctxt, -, hslots⟩ := hcells 1 2 1
    have hfilled : (slotIndices threeImages.length openCipher.slotCount 1 3).foldlM
        (fillSlot threeImages (pixelPos 2 3 (1 : Fin 2) (2 : Fin 3) (1 : Fin 2)))
          (List.replicate openCipher.slotCount 0, 0) = .ok ([32, 52, 12], 3) := by
      decide +kernel
    rw [hctxt]
    exact congrArg Except.ok (Prod.ext_iff.1 (Except.ok.inj (hslots.symm.trans hfilled))).1

end Client
