import PPCNN.Lib.Except
import PPCNN.Lib.TextStream
import PPCNN.Share.Params

/-!
# The parameters as text (`ppcnn_computation_params.cpp`, `ppcnn_cli2srvparam.cpp`, `ppcnn_srv2cliparam.cpp`)

`operator<<` and `operator>>` of the four records, and of records one after the other on one stream. A
number is read back if no digit follows it, a word if space follows (`Record.read_text`,
`ComputationParams.read_text`). What a query is read back as depends on what its arrays held: in cleared
ones the model is cut out of the dataset (`C2SQueryParam.read_cleared`).
-/

set_option autoImplicit false

namespace Share

open Lib

/-! ## Character arrays -/

section

variable {n : ℕ}

/-- `std::string` of an array: the characters before the first NUL. -/
def cString (array : Vector UInt8 n) : Except Fault (List UInt8) :=
  if 0 ∈ array.toList then .ok (array.toList.takeWhile fun c => c != 0) else .error .outOfBuffer

/-- `str.copy(array, count)`. No NUL is put behind the characters. -/
def copyTo (str : List UInt8) (array : Vector UInt8 n) (count : ℕ) : Except Fault (Vector UInt8 n) :=
  if (str.take count).length ≤ n then .ok (.ofFn fun i => (str.take count).getD i array[i])
  else .error .outOfBuffer

end

/-! ## The operators -/

/-- What is followed by `std::endl`. -/
def line (text : List UInt8) : List UInt8 := text ++ [10]

namespace ComputationParams

/-- `operator<<`, the text it appends. -/
def text (params : ComputationParams) : Except Fault (List UInt8) := do
  let dataset ← cString params.dataset
  let model ← cString params.model
  return line (NumFormat.sizeT.text params.imgWidth) ++ (line (NumFormat.sizeT.text params.imgHeight) ++
    (line (NumFormat.sizeT.text params.imgChannels) ++ (line (NumFormat.sizeT.text params.labels) ++
    (line dataset ++ (line model ++ (line (NumFormat.int32.text params.optLevel) ++
    line (NumFormat.int32.text params.activation)))))))

/-- `operator>>`. Both arrays are filled from the first word. -/
def read (params : ComputationParams) (is : TextIn) : Except Fault (ComputationParams × TextIn) := do
  let (imgWidth, is) := is.readInto NumFormat.sizeT params.imgWidth
  let (imgHeight, is) := is.readInto NumFormat.sizeT params.imgHeight
  let (imgChannels, is) := is.readInto NumFormat.sizeT params.imgChannels
  let (labels, is) := is.readInto NumFormat.sizeT params.labels
  let (dataset, is) := is.readWord []
  let (model, is) := is.readWord []
  let (optLevel, is) := is.readInto NumFormat.int32 params.optLevel
  let (activation, is) := is.readInto NumFormat.int32 params.activation
  let datasetArray ← copyTo dataset params.dataset dataset.length
  let modelArray ← copyTo dataset params.model model.length
  return (⟨imgWidth, imgHeight, imgChannels, labels, datasetArray, modelArray, optLevel, activation⟩, is)

end ComputationParams

namespace C2SEnckeyParam

def text (param : C2SEnckeyParam) : List UInt8 :=
  line (NumFormat.int32.text param.keyId) ++ (line (NumFormat.sizeT.text param.encParamsStreamSz) ++
    (line (NumFormat.sizeT.text param.pubkeyStreamSz) ++
    line (NumFormat.sizeT.text param.relinkeyStreamSz)))

def read (param : C2SEnckeyParam) (is : TextIn) : C2SEnckeyParam × TextIn :=
  let (keyId, is) := is.readInto NumFormat.int32 param.keyId
  let (encParamsStreamSz, is) := is.readInto NumFormat.sizeT param.encParamsStreamSz
  let (pubkeyStreamSz, is) := is.readInto NumFormat.sizeT param.pubkeyStreamSz
  let (relinkeyStreamSz, is) := is.readInto NumFormat.sizeT param.relinkeyStreamSz
  ({ param with keyId, encParamsStreamSz, pubkeyStreamSz, relinkeyStreamSz }, is)

end C2SEnckeyParam

namespace C2SQueryParam

def text (param : C2SQueryParam) : Except Fault (List UInt8) := do
  let compParams ← param.compParams.text
  return compParams ++ (line (NumFormat.sizeT.text param.encInputsStreamSz) ++
    line (NumFormat.int32.text param.keyId))

def read (param : C2SQueryParam) (is : TextIn) : Except Fault (C2SQueryParam × TextIn) := do
  let (compParams, is) ← param.compParams.read is
  let (encInputsStreamSz, is) := is.readInto NumFormat.sizeT param.encInputsStreamSz
  let (keyId, is) := is.readInto NumFormat.int32 param.keyId
  return ({ param with compParams, encInputsStreamSz, keyId }, is)

end C2SQueryParam

namespace C2SResreqParam

def text (param : C2SResreqParam) : List UInt8 := line (NumFormat.int32.text param.queryId)

def read (param : C2SResreqParam) (is : TextIn) : C2SResreqParam × TextIn :=
  let (queryId, is) := is.readInto NumFormat.int32 param.queryId
  ({ queryId }, is)

end C2SResreqParam

namespace Srv2CliParam

/-- The size has no `std::endl` behind it. -/
def text (param : Srv2CliParam) : List UInt8 :=
  line (NumFormat.int32.text param.result) ++ NumFormat.sizeT.text param.encResultsStreamSz

/-- `i32_result` has no value before it is read. -/
def read (param : Srv2CliParam) (is : TextIn) : Except Fault (Srv2CliParam × TextIn) := do
  let (i32Result, is) := is.read NumFormat.int32
  let (encResultsStreamSz, is) := is.readInto NumFormat.sizeT param.encResultsStreamSz
  match i32Result with
  | some result => return ({ param with result, encResultsStreamSz }, is)
  | none => throw .unread

end Srv2CliParam

/-! ## Sequences of records -/

inductive Record where
  | c2sEnckey (param : C2SEnckeyParam)
  | c2sQuery (param : C2SQueryParam)
  | c2sResreq (param : C2SResreqParam)
  | srv2Cli (param : Srv2CliParam)

namespace Record

def text : Record → Except Fault (List UInt8)
  | .c2sEnckey param => .ok param.text
  | .c2sQuery param => param.text
  | .c2sResreq param => .ok param.text
  | .srv2Cli param => .ok param.text

/-- Reads a record of the same type into the record. -/
def read (r : Record) (is : TextIn) : Except Fault (Record × TextIn) :=
  match r with
  | .c2sEnckey param => .ok (.c2sEnckey (param.read is).1, (param.read is).2)
  | .c2sQuery param => (fun x => (.c2sQuery x.1, x.2)) <$> param.read is
  | .c2sResreq param => .ok (.c2sResreq (param.read is).1, (param.read is).2)
  | .srv2Cli param => (fun x => (.srv2Cli x.1, x.2)) <$> param.read is

def textAll : List Record → Except Fault (List UInt8)
  | [] => .ok []
  | r :: rs => do
    let text ← r.text
    let texts ← textAll rs
    return text ++ texts

/-- Reads records one after the other, each into its target. -/
def readAll : List Record → TextIn → Except Fault (List Record)
  | [], _ => .ok []
  | r :: rs, is => do
    let (r, is) ← r.read is
    let rs ← readAll rs is
    return r :: rs

inductive SameKind : Record → Record → Prop
  | c2sEnckey (p q : C2SEnckeyParam) : SameKind (.c2sEnckey p) (.c2sEnckey q)
  | c2sQuery (p q : C2SQueryParam) : SameKind (.c2sQuery p) (.c2sQuery q)
  | c2sResreq (p q : C2SResreqParam) : SameKind (.c2sResreq p) (.c2sResreq q)
  | srv2Cli (p q : Srv2CliParam) : SameKind (.srv2Cli p) (.srv2Cli q)

/-- Equal in all members, the two arrays as C strings. -/
def Same : Record → Record → Prop
  | .c2sEnckey p, .c2sEnckey q => p.keyId = q.keyId ∧ p.encParamsStreamSz = q.encParamsStreamSz ∧
      p.pubkeyStreamSz = q.pubkeyStreamSz ∧ p.relinkeyStreamSz = q.relinkeyStreamSz
  | .c2sQuery p, .c2sQuery q => p.compParams.imgWidth = q.compParams.imgWidth ∧
      p.compParams.imgHeight = q.compParams.imgHeight ∧
      p.compParams.imgChannels = q.compParams.imgChannels ∧ p.compParams.labels = q.compParams.labels ∧
      cString p.compParams.dataset = cString q.compParams.dataset ∧
      cString p.compParams.model = cString q.compParams.model ∧
      p.compParams.optLevel = q.compParams.optLevel ∧ p.compParams.activation = q.compParams.activation ∧
      p.encInputsStreamSz = q.encInputsStreamSz ∧ p.keyId = q.keyId
  | .c2sResreq p, .c2sResreq q => p.queryId = q.queryId
  | .srv2Cli p, .srv2Cli q => p.result = q.result ∧ p.encResultsStreamSz = q.encResultsStreamSz
  | _, _ => False

/-- The records can be written, and are read back into any targets. -/
def RoundTrips (rs : List Record) : Prop :=
  ∃ text, textAll rs = .ok text ∧ ∀ targets, List.Forall₂ SameKind rs targets →
    ∃ rs', readAll targets (.ofText text) = .ok rs' ∧ List.Forall₂ Same rs rs'

/-- The number that a record begins with. -/
def first : Record → ℤ
  | .c2sEnckey param => param.keyId.toInt
  | .c2sQuery param => param.compParams.imgWidth.toNat
  | .c2sResreq param => param.queryId.toInt
  | .srv2Cli param => param.result.toInt

/-- After the size of a `Srv2CliParam` there is nothing, or a minus. -/
def Separated : List Record → Prop
  | .srv2Cli _ :: r :: rs => r.first < 0 ∧ Separated (r :: rs)
  | _ :: rs => Separated rs
  | [] => True

end Record

/-! ## Reading what follows space -/

section

variable {α : Type} {ws tail : List UInt8}

theorem newline_space : ∀ c ∈ ([10] : List UInt8), isSpace c = true := List.forall_mem_singleton.2 rfl

theorem newline_not_digit (tail : List UInt8) : ∀ c ∈ ([10] ++ tail).head?, isDigit c = false := by
  intro c hc
  cases hc
  rfl

theorem readInto_line (F : NumFormat α) (old a : α) (hws : ∀ c ∈ ws, isSpace c = true) :
    TextIn.readInto F old ⟨ws ++ (line (F.text a) ++ tail), false⟩ = (a, ⟨[10] ++ tail, false⟩) := by
  rw [line, List.append_assoc]
  exact TextIn.readInto_text F old a hws (newline_not_digit tail)

theorem read_line (F : NumFormat α) (a : α) (hws : ∀ c ∈ ws, isSpace c = true) :
    TextIn.read F ⟨ws ++ (line (F.text a) ++ tail), false⟩ = (some a, ⟨[10] ++ tail, false⟩) := by
  rw [line, List.append_assoc]
  exact TextIn.read_text F a hws (newline_not_digit tail)

theorem C2SEnckeyParam.read_text (param target : C2SEnckeyParam) (hws : ∀ c ∈ ws, isSpace c = true) :
    target.read ⟨ws ++ (param.text ++ tail), false⟩ =
      ({ param with padding := target.padding }, ⟨[10] ++ tail, false⟩) := by
  simp only [text, List.append_assoc, read, readInto_line _ _ _ hws, readInto_line _ _ _ newline_space]

theorem C2SResreqParam.read_text (param target : C2SResreqParam) (hws : ∀ c ∈ ws, isSpace c = true) :
    target.read ⟨ws ++ (param.text ++ tail), false⟩ = (param, ⟨[10] ++ tail, false⟩) := by
  simp only [text, read, readInto_line _ _ _ hws]

theorem Srv2CliParam.read_text (param target : Srv2CliParam) (hws : ∀ c ∈ ws, isSpace c = true)
    (htail : ∀ c ∈ tail.head?, isDigit c = false) :
    target.read ⟨ws ++ (param.text ++ tail), false⟩ =
      .ok ({ param with padding := target.padding }, ⟨tail, false⟩) := by
  simp only [text, List.append_assoc, read, read_line _ _ hws,
    TextIn.readInto_text _ _ _ newline_space htail, pure_eq_ok]

end

/-- What a query writes, with the C strings of its arrays. -/
theorem C2SQueryParam.text_cases {param : C2SQueryParam} {t : List UInt8} (h : param.text = .ok t) :
    ∃ dataset model, cString param.compParams.dataset = .ok dataset ∧
      cString param.compParams.model = .ok model ∧
      t = line (NumFormat.sizeT.text param.compParams.imgWidth) ++
        (line (NumFormat.sizeT.text param.compParams.imgHeight) ++
        (line (NumFormat.sizeT.text param.compParams.imgChannels) ++
        (line (NumFormat.sizeT.text param.compParams.labels) ++ (line dataset ++ (line model ++
        (line (NumFormat.int32.text param.compParams.optLevel) ++
        line (NumFormat.int32.text param.compParams.activation))))))) ++
        (line (NumFormat.sizeT.text param.encInputsStreamSz) ++
        line (NumFormat.int32.text param.keyId)) := by
  obtain ⟨t', hcomp, h⟩ := bind_eq_ok.1 h
  obtain ⟨dataset, hdataset, hcomp⟩ := bind_eq_ok.1 hcomp
  obtain ⟨model, hmodel, hcomp⟩ := bind_eq_ok.1 hcomp
  cases h
  cases hcomp
  exact ⟨dataset, model, hdataset, hmodel, rfl⟩

namespace Record

/-! ## Records without queries, well separated -/

section

variable {r target : Record} {ws t : List UInt8}

theorem read_text (tail : List UInt8) (hkind : SameKind r target) (hquery : ∀ param, r ≠ .c2sQuery param)
    (ht : r.text = .ok t) (hws : ∀ c ∈ ws, isSpace c = true)
    (htail : ∀ param, r = .srv2Cli param → ∀ c ∈ tail.head?, isDigit c = false) :
    ∃ r' ws', target.read ⟨ws ++ (t ++ tail), false⟩ = .ok (r', ⟨ws' ++ tail, false⟩) ∧
      (∀ c ∈ ws', isSpace c = true) ∧ Same r r' := by
  cases hkind with
  | c2sEnckey p q =>
    cases ht
    have hread : q.read ⟨ws ++ (p.text ++ tail), false⟩ = _ := p.read_text q hws
    refine ⟨.c2sEnckey { p with padding := q.padding }, [10], ?_, newline_space, rfl, rfl, rfl, rfl⟩
    rw [Record.read, hread]
  | c2sQuery p q => exact absurd rfl (hquery p)
  | c2sResreq p q =>
    cases ht
    have hread : q.read ⟨ws ++ (p.text ++ tail), false⟩ = _ := p.read_text q hws
    refine ⟨.c2sResreq p, [10], ?_, newline_space, rfl⟩
    rw [Record.read, hread]
  | srv2Cli p q =>
    cases ht
    have hread := p.read_text q hws (htail p rfl)
    refine ⟨.srv2Cli { p with padding := q.padding }, [], ?_, by simp, rfl, rfl⟩
    rw [Record.read, hread]
    rfl

/-- A record begins with its first number. -/
theorem text_first (ht : r.text = .ok t) : ∃ t', t = decimalInt r.first ++ t' := by
  cases r with
  | c2sEnckey p =>
    cases ht
    exact ⟨_, List.append_assoc _ _ _⟩
  | c2sQuery p =>
    obtain ⟨dataset, model, -, -, rfl⟩ := C2SQueryParam.text_cases ht
    simp only [line, List.append_assoc]
    exact ⟨_, rfl⟩
  | c2sResreq p =>
    cases ht
    exact ⟨_, rfl⟩
  | srv2Cli p =>
    cases ht
    exact ⟨_, List.append_assoc _ _ _⟩

theorem head?_text (ht : r.text = .ok t) (hfirst : r.first < 0) (tail : List UInt8) :
    ∀ c ∈ (t ++ tail).head?, isDigit c = false := by
  obtain ⟨t', rfl⟩ := text_first ht
  rw [decimalInt, if_pos hfirst]
  intro c hc
  cases hc
  rfl

theorem exists_digit_text (ht : r.text = .ok t) (hfirst : ¬r.first < 0) :
    ∃ c cs, t = c :: cs ∧ isDigit c = true := by
  obtain ⟨t', rfl⟩ := text_first ht
  rw [decimalInt, if_neg hfirst]
  cases hdecimal : decimal r.first.natAbs with
  | nil => exact absurd hdecimal (decimal_ne_nil _)
  | cons c cs =>
    refine ⟨c, cs ++ t', rfl, decimal_digits r.first.natAbs c ?_⟩
    rw [hdecimal]
    exact List.mem_cons_self

theorem textAll_cons {rs : List Record} {texts : List UInt8} (h : textAll (r :: rs) = .ok texts) :
    ∃ t ts, r.text = .ok t ∧ textAll rs = .ok ts ∧ texts = t ++ ts := by
  obtain ⟨t, ht, h⟩ := bind_eq_ok.1 h
  obtain ⟨ts, hts, h⟩ := bind_eq_ok.1 h
  exact ⟨t, ts, ht, hts, (Except.ok.inj h).symm⟩

theorem noQuery_cons {rs : List Record} (h : ∀ param, .c2sQuery param ∉ r :: rs) :
    (∀ param, r ≠ .c2sQuery param) ∧ ∀ param, .c2sQuery param ∉ rs := by
  constructor
  · rintro param rfl
    exact h param List.mem_cons_self
  · exact fun param hmem => h param (List.mem_cons_of_mem _ hmem)

theorem Separated.of_cons {rs : List Record} (h : Separated (r :: rs)) : Separated rs := by
  cases r with
  | srv2Cli p =>
    cases rs with
    | nil => trivial
    | cons r' rs => exact h.2
  | _ => exact h

/-- What follows a `Srv2CliParam` does not begin with a digit. -/
theorem Separated.head?_textAll {p : Srv2CliParam} {rs : List Record} {ts : List UInt8}
    (h : Separated (.srv2Cli p :: rs)) (hts : textAll rs = .ok ts) :
    ∀ c ∈ ts.head?, isDigit c = false := by
  cases rs with
  | nil =>
    cases hts
    exact fun c hc => by cases hc
  | cons r' rs =>
    obtain ⟨t, ts', ht, -, rfl⟩ := textAll_cons hts
    exact head?_text ht h.1 ts'

theorem readAll_textAll {rs targets : List Record} {ts : List UInt8}
    (hkinds : List.Forall₂ SameKind rs targets) (hquery : ∀ param, .c2sQuery param ∉ rs)
    (hseparated : Separated rs) (hts : textAll rs = .ok ts) (hws : ∀ c ∈ ws, isSpace c = true) :
    ∃ rs', readAll targets ⟨ws ++ ts, false⟩ = .ok rs' ∧ List.Forall₂ Same rs rs' := by
  induction hkinds generalizing ws ts with
  | nil => exact ⟨[], rfl, .nil⟩
  | @cons r target rs targets hkind hkinds ih =>
    obtain ⟨t, ts', ht, hts', rfl⟩ := textAll_cons hts
    obtain ⟨hhead, hquery'⟩ := noQuery_cons hquery
    obtain ⟨r', ws', hread, hws', hsame⟩ := read_text ts' hkind hhead ht hws
      fun param he => (he ▸ hseparated : Separated (.srv2Cli param :: rs)).head?_textAll hts'
    obtain ⟨rs', hreads, hsames⟩ := ih hquery' hseparated.of_cons hts' hws'
    refine ⟨r' :: rs', ?_, .cons hsame hsames⟩
    rw [readAll, hread, ok_bind]
    dsimp only
    rw [hreads, ok_bind, pure_eq_ok]

theorem textAll_ok {rs : List Record} (hquery : ∀ param, .c2sQuery param ∉ rs) :
    ∃ ts, textAll rs = .ok ts := by
  induction rs with
  | nil => exact ⟨[], rfl⟩
  | cons r rs ih =>
    obtain ⟨hhead, hquery'⟩ := noQuery_cons hquery
    obtain ⟨ts, hts⟩ := ih hquery'
    have ht : ∃ t, r.text = .ok t := by
      cases r with
      | c2sQuery p => exact absurd rfl (hhead p)
      | _ => exact ⟨_, rfl⟩
    obtain ⟨t, ht⟩ := ht
    refine ⟨t ++ ts, ?_⟩
    rw [textAll, ht, ok_bind, hts, ok_bind, pure_eq_ok]

theorem roundTrips_of_separated {rs : List Record} (hquery : ∀ param, .c2sQuery param ∉ rs)
    (hseparated : Separated rs) : RoundTrips rs := by
  obtain ⟨ts, hts⟩ := textAll_ok hquery
  have hws : ∀ c ∈ ([] : List UInt8), isSpace c = true := by simp
  exact ⟨ts, hts, fun targets hkinds => readAll_textAll hkinds hquery hseparated hts hws⟩

end

end Record

/-! ## A query into cleared arrays -/

section

variable {n : ℕ} {array : Vector UInt8 n} {str : List UInt8}

/-- An array that holds a string and is cleared behind it. -/
def padded (n : ℕ) (str : List UInt8) : Vector UInt8 n := .ofFn fun i => str.getD i 0

theorem toList_padded (h : str.length ≤ n) :
    (padded n str).toList = str ++ List.replicate (n - str.length) 0 := by
  rw [padded, Vector.toList_ofFn]
  refine List.ext_getElem ?_ fun i hi hi' => ?_
  · rw [List.length_ofFn, List.length_append, List.length_replicate]
    omega
  · rw [List.getElem_ofFn, List.getElem_append, List.getD_eq_getElem?_getD]
    split
    · rename_i hlt
      rw [List.getElem?_eq_getElem hlt, Option.getD_some]
    · rename_i hge
      rw [List.getElem?_eq_none (Nat.not_lt.1 hge), Option.getD_none, List.getElem_replicate]

theorem cString_padded (h : str.length < n) (hzero : 0 ∉ str) : cString (padded n str) = .ok str := by
  obtain ⟨k, hk⟩ : ∃ k, n - str.length = k + 1 := ⟨n - str.length - 1, by omega⟩
  have hchars : ∀ c ∈ str, (c != 0) = true := fun c hc => bne_iff_ne.2 (ne_of_mem_of_not_mem hc hzero)
  rw [cString, toList_padded h.le, hk, List.replicate_succ, if_pos (by simp),
    List.takeWhile_append_of_pos hchars]
  exact congrArg Except.ok (List.append_nil str)

theorem zero_not_mem_cString (h : cString array = .ok str) : 0 ∉ str := by
  unfold cString at h
  split at h
  · cases h
    intro hmem
    have hc := List.all_eq_true.1 List.all_takeWhile 0 hmem
    cases hc
  · cases h

theorem cString_spec (h : cString array = .ok str) : str.length < n ∧ 0 ∉ str := by
  refine ⟨?_, zero_not_mem_cString h⟩
  have hzero := zero_not_mem_cString h
  unfold cString at h
  split at h
  · rename_i hmem
    cases h
    have hle := (List.takeWhile_prefix (fun c => c != 0) (l := array.toList)).length_le
    rw [Vector.length_toList] at hle
    refine lt_of_le_of_ne hle fun heq => ?_
    have hall := (List.takeWhile_prefix (fun c => c != 0) (l := array.toList)).eq_of_length
      (by rw [heq, Vector.length_toList])
    rw [hall] at hzero
    exact hzero hmem
  · cases h

theorem copyTo_cleared {count : ℕ} (h : str.length ≤ n) :
    copyTo str (padded n []) count = .ok (padded n (str.take count)) := by
  rw [copyTo, if_pos (le_trans (List.length_take_le' _ _) h)]
  refine congrArg Except.ok (Vector.ext fun i hi => ?_)
  simp [padded]

end

/-- What `operator>>` takes for one word. -/
def IsWord (str : List UInt8) : Prop := str ≠ [] ∧ ∀ c ∈ str, isSpace c = false

section

variable {ws dataset model : List UInt8}

theorem readWord_line {word : List UInt8} (tail : List UInt8) (hword : IsWord word)
    (hws : ∀ c ∈ ws, isSpace c = true) :
    TextIn.readWord [] ⟨ws ++ (line word ++ tail), false⟩ = (word, ⟨[10] ++ tail, false⟩) := by
  rw [line, List.append_assoc]
  refine TextIn.readWord_word [] hws hword.1 hword.2 fun c hc => ?_
  cases hc
  rfl

/-- What is read back for the parameters: the model is cut out of the dataset. -/
theorem ComputationParams.read_text {params : ComputationParams} (target : ComputationParams)
    (tail : List UInt8)
    (hdataset : cString params.dataset = .ok dataset) (hmodel : cString params.model = .ok model)
    (hdatasetWord : IsWord dataset) (hmodelWord : IsWord model) (hws : ∀ c ∈ ws, isSpace c = true) :
    ∃ t, params.text = .ok t ∧ target.read ⟨ws ++ (t ++ tail), false⟩ = (do
      let datasetArray ← copyTo dataset target.dataset dataset.length
      let modelArray ← copyTo dataset target.model model.length
      return ({ params with dataset := datasetArray, model := modelArray }, ⟨[10] ++ tail, false⟩)) := by
  refine ⟨_, by rw [text, hdataset, ok_bind, hmodel, ok_bind, pure_eq_ok], ?_⟩
  simp only [read, List.append_assoc, readInto_line _ _ _ hws, readInto_line _ _ _ newline_space,
    readWord_line _ hdatasetWord newline_space,
    readWord_line _ hmodelWord newline_space]

/-- For any arrays: the kernel would compute those of `padded` element by element. -/
theorem C2SQueryParam.same_arrays (param : C2SQueryParam) (datasetArray modelArray : Vector UInt8 1024)
    (padding : Vector UInt8 4) :
    Record.Same (.c2sQuery param) (.c2sQuery { param with
      compParams := { param.compParams with dataset := datasetArray, model := modelArray }
      padding }) ↔
    cString param.compParams.dataset = cString datasetArray ∧
      cString param.compParams.model = cString modelArray := by
  simp only [Record.Same, true_and, and_true]

/-- Read back into cleared arrays, a query is the same exactly if its dataset begins with its model. -/
theorem C2SQueryParam.read_cleared {param target : C2SQueryParam}
    (hdataset : cString param.compParams.dataset = .ok dataset)
    (hmodel : cString param.compParams.model = .ok model) (hdatasetWord : IsWord dataset)
    (hmodelWord : IsWord model) (htarget : target.compParams.dataset = padded 1024 [])
    (htarget' : target.compParams.model = padded 1024 []) :
    ∃ t param' is, param.text = .ok t ∧ target.read (.ofText t) = .ok (param', is) ∧
      cString param'.compParams.dataset = .ok dataset ∧
      cString param'.compParams.model = .ok (dataset.take model.length) ∧
      (Record.Same (.c2sQuery param) (.c2sQuery param') ↔ model <+: dataset) := by
  obtain ⟨hlen, hzero⟩ := cString_spec hdataset
  have htake : (dataset.take model.length).length < 1024 := (List.length_take_le' _ _).trans_lt hlen
  have hzero' : 0 ∉ dataset.take model.length := fun h => hzero (List.mem_of_mem_take h)
  have hws : ∀ c ∈ ([] : List UInt8), isSpace c = true := by simp
  obtain ⟨t, ht, hread⟩ := ComputationParams.read_text target.compParams
    (line (NumFormat.sizeT.text param.encInputsStreamSz) ++ line (NumFormat.int32.text param.keyId))
    hdataset hmodel hdatasetWord hmodelWord hws
  rw [htarget, htarget', copyTo_cleared hlen.le, copyTo_cleared hlen.le, ok_bind, ok_bind,
    List.take_length] at hread
  have hdatasetBack := cString_padded hlen hzero
  have hmodelBack := cString_padded htake hzero'
  have htext : param.text = .ok (t ++ (line (NumFormat.sizeT.text param.encInputsStreamSz) ++
      line (NumFormat.int32.text param.keyId))) := by
    rw [C2SQueryParam.text, ht, ok_bind, pure_eq_ok]
  refine ⟨_, { param with
      compParams := { param.compParams with
        dataset := padded 1024 dataset
        model := padded 1024 (dataset.take model.length) }
      padding := target.padding }, ⟨[10], false⟩, htext, ?_, hdatasetBack, hmodelBack, ?_⟩
  · rw [C2SQueryParam.read, TextIn.ofText]
    rw [List.nil_append] at hread
    rw [hread, pure_eq_ok, ok_bind]
    have hlast : TextIn.readInto NumFormat.int32 target.keyId
        ⟨[10] ++ (line (NumFormat.int32.text param.keyId) ++ []), false⟩ = _ :=
      readInto_line _ _ param.keyId newline_space
    rw [List.append_nil] at hlast
    simp only [readInto_line _ _ _ newline_space, hlast, List.append_nil, pure_eq_ok]
  · rw [C2SQueryParam.same_arrays, hdataset, hmodel, hdatasetBack, hmodelBack, List.prefix_iff_eq_take,
      eq_self, true_and, Except.ok.injEq]

end

end Share
