import PPCNN.Share.Mnist
import Mathlib.Algebra.Field.Defs

/-!
# Loading the test set (`load_dataset.cpp`)

The images of the test set with their pixels divided by 255, and the labels. `normalize` reads the size of
the first image, which must be there.
-/

set_option autoImplicit false

namespace Share

open Lib Mnist

variable {K : Type}

/-! ## The loaders -/

/-- `images[i][j] /= NORMALIZE_DENOM` -/
def normalizePixel [Field K] (image : List K) (j : ℕ) : Except Fault (List K) :=
  match image[j]? with
  | none => .error .outOfBuffer
  | some pixel => .ok (image.set j (pixel / 255))

/-- `normalize` -/
def normalize [Field K] (images : List (List K)) : Except Fault (List (List K)) :=
  match images with
  | [] => .error .outOfBuffer
  | first :: _ => images.mapM fun image => (List.range first.length).foldlM normalizePixel image

def loadMnistTestImages (K : Type) [Field K] (files : Files) (datasetDir : String) (testLimit : ℕ) :
    Except Fault (List (List K)) := do
  let dataset ← readDatasetDirect K files datasetDir 1 testLimit
  normalize dataset.testImages

def loadMnistTestLabels (K : Type) [Field K] (files : Files) (datasetDir : String) (testLimit : ℕ) :
    Except Fault (List UInt8) := do
  let dataset ← readDatasetDirect K files datasetDir 1 testLimit
  return dataset.testLabels

/-! ## What they load -/

section

variable [Field K]

theorem normalizePixels {image : List K} {count : ℕ} (h : count ≤ image.length) :
    (List.range count).foldlM normalizePixel image =
      .ok ((image.take count).map (· / 255) ++ image.drop count) := by
  induction count with
  | zero => simp
  | succ count ih =>
    have hget : image[count]? = some image[count] := List.getElem?_eq_getElem h
    have htaken : ((image.take count).map (· / 255)).length = count := by
      rw [List.length_map, List.length_take]
      omega
    rw [List.range_succ, List.foldlM_append, ih (by omega), ok_bind, List.foldlM_cons, normalizePixel,
      List.getElem?_append_right (by omega), htaken, Nat.sub_self, List.getElem?_drop, Nat.add_zero, hget]
    simp only [ok_bind, List.foldlM_nil, pure_eq_ok]
    rw [List.set_append_right _ _ (by omega), htaken, Nat.sub_self, List.drop_eq_getElem_cons h,
      List.set_cons_zero, List.take_add_one, hget, List.map_append, List.append_assoc]
    rfl

/-- Images of one size are all divided by 255. -/
theorem normalize_eq {images : List (List K)} {size : ℕ} (hne : images ≠ [])
    (hsize : ∀ image ∈ images, image.length = size) :
    normalize images = .ok (images.map fun image => image.map (· / 255)) := by
  obtain ⟨first, others, rfl⟩ := List.exists_cons_of_ne_nil hne
  have hfirst : first.length = size := hsize first List.mem_cons_self
  have hall : ∀ images : List (List K), (∀ image ∈ images, image.length = size) →
      images.mapM (fun image => (List.range first.length).foldlM normalizePixel image) =
        Except.ok (ε := Fault) (images.map fun image => image.map (· / 255)) := by
    intro images himages
    induction images with
    | nil => rfl
    | cons image images ih =>
      have himage : image.length = size := himages image List.mem_cons_self
      rw [List.mapM_cons, normalizePixels (by omega), ok_bind,
        ih fun image h => himages image (List.mem_cons_of_mem _ h), hfirst, ← himage, List.take_length,
        List.drop_length, List.append_nil]
      rfl
  exact hall _ hsize

/-- The pixels of an image, from 0 to 1. -/
def pixelValues (K : Type) [Field K] (image : List UInt8) : List K :=
  image.map fun pixel => (pixel.toNat : K) / 255

/-- The directory holds this test set: images of 28 × 28 pixels. The files of the training set are in the
format, too, or missing. -/
structure TestSet (files : Files) (datasetDir : String) (images : List (List UInt8)) (labels : List UInt8) :
    Prop where
  trainingImages : ∀ content ∈ files (datasetDir ++ "/train-images-idx3-ubyte"),
    ∃ rows columns images, ImageFile rows columns images content
  trainingLabels : ∀ content ∈ files (datasetDir ++ "/train-labels-idx1-ubyte"),
    ∃ labels, LabelFile labels content
  testImages : ∃ content, files (datasetDir ++ "/t10k-images-idx3-ubyte") = some content ∧
    ImageFile 28 28 images content
  testLabels : ∃ content, files (datasetDir ++ "/t10k-labels-idx1-ubyte") = some content ∧
    LabelFile labels content

variable {files : Files} {datasetDir : String} {images : List (List UInt8)} {labels : List UInt8}

theorem readDatasetDirect_testSet (h : TestSet files datasetDir images labels) (testLimit : ℕ) :
    ∃ trainingImages trainingLabels, readDatasetDirect K files datasetDir 1 testLimit =
      .ok ⟨trainingImages, (firstOf testLimit images).map (toImage K), trainingLabels,
        firstOf testLimit labels⟩ := by
  have htrainingImages : ∃ trainingImages,
      readMnistImageFile K (files (datasetDir ++ "/train-images-idx3-ubyte")) 1 = .ok trainingImages := by
    cases hfile : files (datasetDir ++ "/train-images-idx3-ubyte") with
    | none => exact ⟨[], rfl⟩
    | some content =>
      obtain ⟨rows, columns, images, hfile⟩ := h.trainingImages content hfile
      exact ⟨_, readMnistImageFile_idx hfile 1⟩
  have htrainingLabels : ∃ trainingLabels,
      readMnistLabelFile (files (datasetDir ++ "/train-labels-idx1-ubyte")) 1 = .ok trainingLabels := by
    cases hfile : files (datasetDir ++ "/train-labels-idx1-ubyte") with
    | none => exact ⟨[], rfl⟩
    | some content =>
      obtain ⟨labels, hfile⟩ := h.trainingLabels content hfile
      exact ⟨_, readMnistLabelFile_idx hfile 1⟩
  obtain ⟨trainingImages, htrainingImages⟩ := htrainingImages
  obtain ⟨trainingLabels, htrainingLabels⟩ := htrainingLabels
  obtain ⟨content, htestImages, himages⟩ := h.testImages
  obtain ⟨content', htestLabels, hlabels⟩ := h.testLabels
  refine ⟨trainingImages, trainingLabels, ?_⟩
  rw [readDatasetDirect, htrainingImages, ok_bind, htrainingLabels, ok_bind, htestImages, htestLabels,
    readMnistImageFile_idx himages, ok_bind, readMnistLabelFile_idx hlabels, ok_bind]
  rfl

theorem mem_firstOf {α : Type} {limit : ℕ} {l : List α} {a : α} (h : a ∈ firstOf limit l) : a ∈ l := by
  unfold firstOf at h
  split at h
  · exact h
  · exact List.mem_of_mem_take h

theorem loadMnistTestImages_eq (h : TestSet files datasetDir images labels) (hne : images ≠ [])
    (testLimit : ℕ) : loadMnistTestImages K files datasetDir testLimit =
      .ok ((firstOf testLimit images).map (pixelValues K)) := by
  obtain ⟨trainingImages, trainingLabels, hread⟩ := readDatasetDirect_testSet (K := K) h testLimit
  obtain ⟨content, -, himages⟩ := h.testImages
  have hfirst : firstOf testLimit images ≠ [] := by
    unfold firstOf
    split
    · exact hne
    · simpa using ⟨by assumption, hne⟩
  have hlength : ∀ image ∈ firstOf testLimit images, image.length = 784 := fun image hmem =>
    himages.sizes image (mem_firstOf hmem)
  have himage : ∀ image ∈ (firstOf testLimit images).map (toImage K), image.length = 784 := by
    intro image hmem
    obtain ⟨source, hsource, rfl⟩ := List.mem_map.1 hmem
    rw [toImage, List.length_append, List.length_map, List.length_replicate, hlength source hsource]
  rw [loadMnistTestImages, hread, ok_bind, normalize_eq (by simpa using hfirst) himage, List.map_map]
  refine congrArg Except.ok (List.map_congr_left fun image hmem => ?_)
  rw [Function.comp_apply, toImage, hlength image hmem, Nat.sub_self, List.replicate_zero, List.append_nil,
    List.map_map]
  rfl

theorem loadMnistTestLabels_eq (h : TestSet files datasetDir images labels) (testLimit : ℕ) :
    loadMnistTestLabels K files datasetDir testLimit = .ok (firstOf testLimit labels) := by
  obtain ⟨trainingImages, trainingLabels, hread⟩ := readDatasetDirect_testSet (K := K) h testLimit
  rw [loadMnistTestLabels, hread]
  rfl

end

end Share
