import PPCNN.Cnn.Tensor

/-!
# The input tensor of a query (`ppcnn_server_calcthread.cpp`)

`compute` allocates a tensor of the extents that the query gives and copies the ciphertexts of the query
into its storage, which is in row-major order.
-/

set_option autoImplicit false

namespace Cnn

variable {Ct : Type}

/-- `Ciphertext3D(boost::extents[rows][cols][channels])` with default-constructed cells (`none`), and the
`memcpy` of the ciphertexts into its storage. -/
def copyCtxts (A : IntArith) (rows cols channels : ℕ) (ctxts : List Ct) :
    Except Error (List (Option Ct)) :=
  let size := (A.size (rows * cols * channels)).toNat
  if ctxts.length ≤ size then
    .ok (ctxts.map some ++ List.replicate (size - ctxts.length) none)
  else .error .bufferOverflow

/-- `encrypted_packed_images`: what each cell gives when it is used. -/
def inputTensor (rows cols channels : ℕ) (storage : List (Option Ct)) :
    Tensor3 (Except Error Ct) where
  height := rows
  width := cols
  channels := channels
  cell r c ch :=
    match storage[(r * cols + c) * channels + ch]? with
    | some (some ctxt) => .ok ctxt
    | some none => .error .unassigned
    | none => .error .outOfRange

/-- As many ciphertexts as cells fill the storage. -/
theorem copyCtxts_eq {A : IntArith} {rows cols channels : ℕ} {ctxts : List Ct}
    (hsize : (A.size (rows * cols * channels)).toNat = ctxts.length) :
    copyCtxts A rows cols channels ctxts = .ok (ctxts.map some) := by
  rw [copyCtxts, hsize]
  simp

/-- A tensor that is sent in row-major order arrives. -/
theorem inputTensor_cell (t : Tensor3 Ct) (r : Fin t.height) (c : Fin t.width) (ch : Fin t.channels) :
    (inputTensor t.height t.width t.channels (t.toUnits.map some)).cell r c ch = .ok (t.cell r c ch) := by
  have hget := t.getElem?_toUnits r c ch
  simp only [inputTensor, List.getElem?_map, hget, Option.map_some]

theorem inputTensor_toUnits (t : Tensor3 Ct) :
    inputTensor t.height t.width t.channels (t.toUnits.map some) = t.map Except.ok :=
  congrArg (Tensor3.mk _ _ _) (funext fun r => funext fun c => funext fun ch => inputTensor_cell t r c ch)

end Cnn
