import PPCNN.Cnn.PicojsonErrors
import PPCNN.Cnn.Loader

/-!
# The text of a structure file (`load_model.cpp`, `BuildNetwork`)

`readJsonObj` and `BuildNetwork` on the files themselves. `readJsonObj_outcome`: the object that the text
denotes, or which error there is, with its text. `buildNetworkFile_describes`: however the text is laid out, a
file that describes a model is built as the layers of this model.
-/

set_option autoImplicit false

namespace Cnn

open Lib Keras

variable (round : ℚ → Option ℚ) (files : String → Option (List UInt8))

/-! ## Reading the file -/

/-- `readJsonObj`. The text is parsed twice, the second time for the value. -/
def readJsonObj (path : String) : Except Error JsonObject :=
  match files path with
  | none => .error (.runtimeError ("Failed to read JSON file (" ++ path ++ ")"))
  | some text =>
    match Picojson.parse round text with
    | .ok (v, _) => v.getObject
    | .error (.syntaxError i) =>
      .error (.runtimeError ("Failed to parse JSON (" ++ Picojson.byteString (Picojson.errorText i) ++ ")"))
    -- what() of the overflow_error is empty; the fuel does not run out
    | .error .overflowError => .error (.runtimeError "")
    | .error .outOfFuel => .error (.runtimeError "")

/-- `loadLayers` on the file. -/
def loadLayersFile (path : String) : Except Error (List JsonValue) := do
  ((← readJsonObj round files path).field "config").getArray

section Build

variable {K Pt Ct : Type} [Field K] [LinearOrder K] (E : Env K Pt Ct) (file : H5File K)

/-- `BuildNetwork` -/
def buildNetworkFile (modelStructurePath : String) (next : NextLayer) (option : OptOption K) :
    Except Error (List (Layer Pt) × BuildState K) := do
  let layers ← loadLayersFile round files modelStructurePath
  if option.enableFuseLayers then buildFused E file layers ⟨next, option⟩
  else buildEach E file layers ⟨next, option⟩

end Build

variable {round files} {path : String} {text r : List UInt8}

theorem readJsonObj_of_denotes {v : JsonValue} (hfile : files path = some text)
    (hv : Picojson.Denotes round text v r) : readJsonObj round files path = v.getObject := by
  obtain ⟨j, hj, -⟩ := hv.parse
  unfold readJsonObj
  rw [hfile]
  simp only [hj]

/-- The text of the exception for a file with `pre` before the character where the parser stopped and `rest`
not consumed. -/
def parseFailure (pre rest : List UInt8) : String :=
  "Failed to parse JSON (" ++ Picojson.byteString (Picojson.bytesOf "syntax error at line " ++
    decimalInt (Picojson.lineAfter pre) ++ Picojson.bytesOf " near: " ++ Picojson.visibleLine rest) ++ ")"

/-- What `readJsonObj` gives for a file. A text denotes a value, or its parser stops: at a number that is
not finite, or with a syntax error at a place of the text. -/
inductive JsonOutcome (round : ℚ → Option ℚ) (files : String → Option (List UInt8)) (path : String) :
    Except Error JsonObject → Prop where
  | object {text r : List UInt8} {o : JsonObject} : files path = some text →
    Picojson.Denotes round text (.object o) r → JsonOutcome round files path (.ok o)
  | missing : files path = none →
    JsonOutcome round files path (.error (.runtimeError ("Failed to read JSON file (" ++ path ++ ")")))
  | mismatch {text r : List UInt8} {v : JsonValue} : files path = some text →
    Picojson.Denotes round text v r → (∀ o, v ≠ .object o) →
    JsonOutcome round files path (.error (JsonValue.typeMismatch "object"))
  | overflow {text pre r : List UInt8} {f : FloatLiteral} : files path = some text →
    Picojson.parse round text = .error .overflowError → (∀ v r, ¬Picojson.Denotes round text v r) →
    text = pre ++ (f.text ++ r) → (∀ c ∈ r.head?, Picojson.isNumberChar c = false) →
    round f.value = none → JsonOutcome round files path (.error (.runtimeError ""))
  | syntaxError {text pre : List UInt8} {i : Picojson.Input} : files path = some text →
    Picojson.parse round text = .error (.syntaxError i) → (∀ v r, ¬Picojson.Denotes round text v r) →
    text = pre ++ i.cur →
    JsonOutcome round files path (.error (.runtimeError (parseFailure pre i.rest)))

theorem not_denotes_of_error {e : Picojson.Stop} (h : Picojson.parse round text = .error e) (v : JsonValue)
    (r : List UInt8) : ¬Picojson.Denotes round text v r := by
  intro hv
  obtain ⟨j, hj, -⟩ := hv.parse
  rw [hj] at h
  cases h

/-- The object that the text of the file denotes, or the reason why there is none. The line in the text of a
syntax error counts the newlines before the character where the parser stopped, and the characters shown are
those it has not consumed. -/
theorem readJsonObj_outcome (round : ℚ → Option ℚ) (files : String → Option (List UInt8)) (path : String) :
    JsonOutcome round files path (readJsonObj round files path) := by
  unfold readJsonObj
  split
  · rename_i hfile
    exact .missing hfile
  · rename_i text hfile
    have hends := Picojson.parse_ends round text
    split
    · rename_i v j hparse
      have hv := Picojson.parseValue_ok hparse
      cases v with
      | object o => exact .object hfile hv
      | _ => exact .mismatch hfile hv nofun
    · rename_i i hparse
      rw [hparse] at hends
      obtain ⟨pre, hsplit, hline⟩ : Picojson.At text i := hends
      rw [Picojson.errorText_eq, hline]
      exact .syntaxError hfile hparse (not_denotes_of_error hparse) hsplit
    · rename_i hparse
      rw [hparse] at hends
      obtain ⟨pre, f, r, htext, hr, hvalue⟩ := hends
      exact .overflow hfile hparse (not_denotes_of_error hparse) htext hr hvalue
    · rename_i hparse
      exact absurd hparse (Picojson.parse_fuel round text)

section Build

variable {K Pt Ct : Type} [Field K] [LinearOrder K] {ev : Evaluator K Pt Ct} {c : Define K} {file : H5File K}

theorem loadLayersFile_of_denotes {v : JsonValue} (hfile : files path = some text)
    (hv : Picojson.Denotes round text v r) : loadLayersFile round files path = loadLayers v := by
  rw [loadLayersFile, readJsonObj_of_denotes hfile hv]
  rfl

/-- The network is the one of the value that the text denotes. -/
theorem buildNetworkFile_of_denotes {E : Env K Pt Ct} {v : JsonValue} (hfile : files path = some text)
    (hv : Picojson.Denotes round text v r) (next : NextLayer) (option : OptOption K) :
    buildNetworkFile round files E file path next option = buildStructure E file v next option := by
  rw [buildNetworkFile, loadLayersFile_of_denotes hfile hv]
  rfl

/-- A file whose text describes a model with numbers of 64 bits is built as the layers of the model,
whatever space, escapes and other entries are in the text, in which order the entries stand, and what
follows the object. -/
theorem buildNetworkFile_describes {v : JsonValue} {m : Keras.Sequential} (hfile : files path = some text)
    (hv : Picojson.Denotes round text v r) (hm : DescribesModel v m) (hfits : m.SizesFit) (next : NextLayer)
    (option : OptOption K) :
    buildNetworkFile round files ⟨ev, .lp64, c⟩ file path next option =
      buildNetwork ⟨ev, .lp64, c⟩ file (layerInfos (some m.batchInputShape) m.layers) next option :=
  (buildNetworkFile_of_denotes hfile hv next option).trans (buildStructure_describes hm hfits next option)

end Build

/-! ## A file -/

/-- An escape in a key, numbers in several notations, an entry twice, and text after the object. -/
def sampleText : List UInt8 :=
  Picojson.bytesOf "\x7b\"config\": [\x7b\"config\": \x7b\"name\": \"x\", \"n\\u0061me\": \"f\", " ++
    Picojson.bytesOf "\"batch_input_shape\": [null, 2e0, 1, 1.0]\x7d,\n \"class_name\": \"Flatten\"\x7d]\x7d end"

def sampleValue : JsonValue :=
  .object [("config", .array [.object [("class_name", .string "Flatten"),
    ("config", .object [("batch_input_shape", .array [.null, .number 2, .number 1, .number 1]),
      ("name", .string "f")])]])]

theorem sampleText_denotes : ∃ r, Picojson.Denotes some sampleText sampleValue r :=
  Picojson.denotes_of_parse (by decide +kernel)

def sampleModel : Keras.Sequential := ⟨(2, 1, 1), [.flatten "f"]⟩

theorem sampleValue_describes : DescribesModel sampleValue sampleModel := by
  refine ⟨_, _, rfl, rfl, ⟨_, _, rfl, rfl, rfl, ?_, rfl⟩, .nil⟩
  exact List.forall_mem_singleton.2 rfl

/-- The file of the sample, under one path. -/
def sampleFiles (path : String) : Option (List UInt8) := if path = "structure.json" then some sampleText else none

theorem buildNetworkFile_describes_sample :
    buildNetworkFile some sampleFiles ⟨.exact ℚ, .lp64, unroundedDefine⟩ (fun _ => none) "structure.json"
        .fresh (computeOption unroundedDefine .noOpt .default "HCNN") =
      buildNetwork ⟨.exact ℚ, .lp64, unroundedDefine⟩ (fun _ => none) [.flatten "f"] .fresh
        (computeOption unroundedDefine .noOpt .default "HCNN") := by
  obtain ⟨r, hr⟩ := sampleText_denotes
  exact buildNetworkFile_describes rfl hr sampleValue_describes
    ⟨by decide, by decide, by decide, by decide⟩ .fresh _

end Cnn
