import PPCNN.Client.DemoRun
import PPCNN.Share.LoadDataset

/-!
# The demo client on the files of a test set (`exec` in `demo/client/main.cpp`)

From the bytes of the data set files to the count that each callback reports: `exec` loads the images and
labels, sends the images with `compute`, and every callback counts the images whose pixels, divided by 255,
the model predicts right.
-/

set_option autoImplicit false

namespace Client

open Lib Cnn Keras Server Share Mnist

variable {K R Pt Ct Params PublicKey RelinKeys : Type}

/-- The test images and labels that `exec` loads. -/
def loadTestSet (K : Type) [Field K] (files : Mnist.Files) (defaultDatasetsPath dataset : String) :
    Except Fault (List (List K) × List UInt8) := do
  let datasetsDir := defaultDatasetsPath ++ dataset
  let testImgs ← loadMnistTestImages K files datasetsDir 0
  let testLbls ← loadMnistTestLabels K files datasetsDir 0
  return (testImgs, testLbls)

theorem loadTestSet_eq [Field K] {files : Mnist.Files} {defaultDatasetsPath dataset : String}
    {images : List (List UInt8)} {labels : List UInt8}
    (hset : TestSet files (defaultDatasetsPath ++ dataset) images labels) (hne : images ≠ []) :
    loadTestSet K files defaultDatasetsPath dataset = .ok (images.map (pixelValues K), labels) := by
  rw [loadTestSet, loadMnistTestImages_eq hset hne, ok_bind, loadMnistTestLabels_eq hset]
  rfl

theorem le_length_pixelValues [Field K] {files : Mnist.Files} {datasetsDir : String} {images : List (List UInt8)}
    {labels : List UInt8} (hset : TestSet files datasetsDir images labels) {size : ℕ} (hsize : size ≤ 784) :
    ∀ image ∈ images.map (pixelValues K), size ≤ image.length := by
  intro image himage
  obtain ⟨source, hsource, rfl⟩ := List.mem_map.1 himage
  obtain ⟨content, -, hfile⟩ := hset.testImages
  rw [pixelValues, List.length_map, hfile.sizes source hsource]
  exact hsize

section

variable [Field K] [LinearOrder K] {c : Define K} {scheme : Scheme K R Pt Ct} {m : ServedModel c}
  {S : SealCodecs Params PublicKey RelinKeys Ct}
  {container : KeyContainer (EncryptionKeys Params PublicKey RelinKeys)} {encParams : Params}
  {keyId : Int32} {compParams : Share.ComputationParams} {maxSize : ℕ}

/-- The demo client that sends the images of a test set. -/
def testSetDemo (scheme : Scheme K R Pt Ct) (m : ServedModel c) (images : List (List UInt8)) (trials : ℕ)
    (rand : ℕ → ℕ → ℕ → R) (blank : Ct) : Demo K R Ct :=
  demoOf scheme m (images.map (pixelValues K)) trials rand blank

end

/-! ## A test set of one image -/

/-- An image of white pixels. -/
def whiteImage : List UInt8 := List.replicate 784 255

/-- The white image with label 1; there is no training set. -/
def whiteFiles : Mnist.Files := fun path =>
  if path = "../../../datasets/mnist/t10k-images-idx3-ubyte" then some (idxImages 28 28 [whiteImage])
  else if path = "../../../datasets/mnist/t10k-labels-idx1-ubyte" then some (idxLabels [1])
  else none

theorem white_testSet : TestSet whiteFiles ("../../../datasets/" ++ "mnist") [whiteImage] [1] where
  trainingImages := by
    intro content h
    have hnone : whiteFiles ("../../../datasets/" ++ "mnist" ++ "/train-images-idx3-ubyte") = none :=
      (if_neg (by decide)).trans (if_neg (by decide))
    rw [hnone] at h
    cases h
  trainingLabels := by
    intro content h
    have hnone : whiteFiles ("../../../datasets/" ++ "mnist" ++ "/train-labels-idx1-ubyte") = none :=
      (if_neg (by decide)).trans (if_neg (by decide))
    rw [hnone] at h
    cases h
  testImages := by
    refine ⟨idxImages 28 28 [whiteImage], if_pos (by decide), ?_⟩
    exact {
      rows_lt := by decide
      columns_lt := by decide
      count_lt := by decide
      sizes := List.forall_mem_singleton.2 List.length_replicate
      pixels_le := le_rfl
      whole_lt := by decide
      shape := ⟨[], (List.append_nil _).symm⟩ }
  testLabels := by
    refine ⟨idxLabels [1], (if_neg (by decide)).trans (if_pos (by decide)), ?_⟩
    exact ⟨by decide, [], (List.append_nil _).symm⟩

def whiteDemo : Demo ℚ Unit (Fin 2 → ℚ) := testSetDemo batchScheme batchModel [whiteImage] 1 (fun _ _ _ => ()) 0

theorem white_range : RangeFits [pixelValues ℚ whiteImage].length batchScheme.cipher.slotCount 0 1 :=
  ⟨by decide, by decide, by decide, by decide⟩

/-- The model looks at the first four pixels. -/
theorem white_encrypted : whiteDemo.encrypt 0 1 = .ok (pairInputs [1, 1, 1, 1] [1, 1, 1, 1]) := by
  refine pair_encrypted (le_length_pixelValues white_testSet (by decide)) white_range ?_
  decide +kernel

end Client
