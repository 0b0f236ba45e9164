import PPCNN.Lib.Except
import PPCNN.Lib.Runs
import Mathlib.Logic.Function.Basic

/-!
# The configuration file (`ppcnn_config.cpp`, `split` of `ppcnn_utility.cpp`)

A line up to its first `#` is split at the delimiters; with two tokens or more, the first is a key and the
second its value, and the first line of a key counts. `split_runs`: the tokens are the maximal runs without
a delimiter. `config_grammar`: what the loaded map holds, and that a rendered map is loaded again.
-/

set_option autoImplicit false

namespace Share

open Lib

/-! ## split -/

namespace Utility

/-- `str.find_first_not_of(delims, pos)`; `none` for `npos`. -/
def findFirstNotOf (str delims : List UInt8) (pos : ℕ) : Option ℕ :=
  findFrom (fun c => !delims.contains c) str pos

/-- `str.find_first_of(delims, pos)` -/
def findFirstOf (str delims : List UInt8) (pos : ℕ) : Option ℕ :=
  findFrom (fun c => delims.contains c) str pos

/-- The end of the token at `index`. -/
def nextIndex (str delims : List UInt8) (index : ℕ) : ℕ :=
  match findFirstOf str delims index with
  | none => str.length
  | some next => if str.length < next then str.length else next

/-- What is left of the string at a position. -/
def remaining (str : List UInt8) : Option ℕ → ℕ
  | none => 0
  | some index => str.length - index

theorem remaining_find (str delims : List UInt8) (pos : ℕ) :
    remaining str (findFirstNotOf str delims pos) ≤ str.length - pos := by
  cases hfind : findFirstNotOf str delims pos with
  | none => exact Nat.zero_le _
  | some index => exact Nat.sub_le_sub_left (findFrom_eq_some hfind).1 _

theorem le_nextIndex {str : List UInt8} {index : ℕ} (delims : List UInt8) (h : index < str.length) :
    index ≤ nextIndex str delims index := by
  unfold nextIndex
  split
  · exact Nat.le_of_lt h
  · rename_i next hfind
    have hle := (findFrom_eq_some hfind).1
    split
    · exact Nat.le_of_lt h
    · exact hle

/-- The loop of `split`. -/
def splitFrom (str delims : List UInt8) (index : Option ℕ) (vec : List (List UInt8)) : List (List UInt8) :=
  match index with
  | none => vec
  | some index =>
    if _h : index < str.length then
      splitFrom str delims (findFirstNotOf str delims (nextIndex str delims index + 1))
        (vec ++ [(str.drop index).take (nextIndex str delims index - index)])
    else vec
termination_by remaining str index
decreasing_by
  have hfind := remaining_find str delims (nextIndex str delims index + 1)
  have hnext := le_nextIndex delims _h
  show _ < str.length - index
  omega

def split (str delims : List UInt8) : List (List UInt8) :=
  splitFrom str delims (findFirstNotOf str delims 0) []

variable {str delims : List UInt8} {pos : ℕ}

/-- A character of a token. -/
def isToken (delims : List UInt8) (c : UInt8) : Bool := !delims.contains c

theorem nextIndex_eq (str delims : List UInt8) (index : ℕ) :
    nextIndex str delims index = runEnd (isToken delims) str index := by
  have hof : (fun c => !isToken delims c) = fun c => delims.contains c := by
    funext c
    rw [isToken, Bool.not_not]
  unfold nextIndex runEnd
  rw [hof]
  show (match findFrom (fun c => delims.contains c) str index with | none => _ | some next => _) = _
  cases hfind : findFrom (fun c => delims.contains c) str index with
  | none => rfl
  | some next => exact if_neg (Nat.not_lt.2 (Nat.le_of_lt (findFrom_eq_some hfind).2.1))

theorem splitFrom_none (vec : List (List UInt8)) : splitFrom str delims none vec = vec := by
  rw [splitFrom]

/-- One token, and the search for the next one. -/
theorem splitFrom_some {index : ℕ} (h : index < str.length) (vec : List (List UInt8)) :
    splitFrom str delims (some index) vec =
      splitFrom str delims (findFirstNotOf str delims (runEnd (isToken delims) str index + 1))
        (vec ++ [slice str (index, runEnd (isToken delims) str index)]) := by
  rw [splitFrom, dif_pos h, nextIndex_eq]
  rfl

/-- After delimiters, a word is the next token. -/
theorem splitFrom_token (pre mid : List UInt8) {w : List UInt8} (rest : List UInt8)
    (hmid : ∀ c ∈ mid, isToken delims c = false) (hne : w ≠ []) (hw : ∀ c ∈ w, isToken delims c = true)
    (hrest : ∀ c ∈ rest.head?, isToken delims c = false) (vec : List (List UInt8)) :
    splitFrom (pre ++ (mid ++ (w ++ rest))) delims
        (findFirstNotOf (pre ++ (mid ++ (w ++ rest))) delims pre.length) vec =
      splitFrom (pre ++ (mid ++ (w ++ rest))) delims
        (findFirstNotOf (pre ++ (mid ++ (w ++ rest))) delims (pre.length + mid.length + w.length + 1))
        (vec ++ [w]) := by
  obtain ⟨c, cs, rfl⟩ := List.exists_cons_of_ne_nil hne
  have hfind : findFirstNotOf (pre ++ (mid ++ (c :: cs ++ rest))) delims pre.length =
      some (pre.length + mid.length) := findFrom_append hmid (hw c List.mem_cons_self)
  have hend : runEnd (isToken delims) ((pre ++ mid) ++ (c :: cs ++ rest)) (pre ++ mid).length = _ :=
    runEnd_append hw hrest
  have hslice := slice_append (pre ++ mid) (c :: cs) rest
  rw [List.append_assoc, List.length_append] at hend hslice
  rw [hfind, splitFrom_some, hend, hslice]
  simp only [List.length_append, List.length_cons]
  omega

/-- From a boundary on, the loop appends the maximal runs that start there or later. -/
theorem splitFrom_runs (hboundary : Boundary (isToken delims) str pos) (vec : List (List UInt8)) :
    ∃ runs : List (ℕ × ℕ),
      splitFrom str delims (findFirstNotOf str delims pos) vec = vec ++ runs.map (slice str) ∧
      (runs.Pairwise fun a b => a.2 < b.1) ∧
      ∀ run, run ∈ runs ↔ MaximalRun (isToken delims) str run ∧ pos ≤ run.1 := by
  induction hn : str.length - pos using Nat.strong_induction_on generalizing pos vec with
  | _ n ih =>
  cases hfind : findFirstNotOf str delims pos with
  | none =>
    refine ⟨[], ?_, .nil, fun run => ?_⟩
    · rw [splitFrom_none, List.map_nil, List.append_nil]
    · refine iff_of_false List.not_mem_nil fun h => ?_
      exact absurd (h.1.lt_of_find_none hfind) (Nat.not_lt.2 h.2)
  | some index =>
    obtain ⟨hpos, hindex, -, -⟩ := findFrom_eq_some hfind
    obtain ⟨hrun, hnext, hlater⟩ := maximalRun_of_find hboundary hfind
    have hlt := hrun.lt
    generalize hend : runEnd (isToken delims) str index = j at hrun hnext hlater hlt
    obtain ⟨runs, hsplit, hsorted, hruns⟩ :=
      ih _ (by dsimp only at hlt; omega) hnext (vec ++ [slice str (index, j)]) rfl
    refine ⟨(index, j) :: runs, ?_, ?_, fun run => ?_⟩
    · rw [splitFrom_some hindex, hend, hsplit, List.map_cons, List.append_assoc, List.singleton_append]
    · refine List.pairwise_cons.2 ⟨fun run hmem => ?_, hsorted⟩
      exact ((hruns run).1 hmem).2
    · rw [List.mem_cons, hruns]
      constructor
      · rintro (rfl | ⟨hmax, hstart⟩)
        · exact ⟨hrun, hpos⟩
        · exact ⟨hmax, by dsimp only at hlt; omega⟩
      · rintro ⟨hmax, hstart⟩
        exact (hlater run hmax hstart).imp_right fun h => ⟨hmax, h⟩

/-- The tokens are the maximal runs without a delimiter, in their order. -/
theorem split_runs (str delims : List UInt8) :
    ∃ runs : List (ℕ × ℕ), split str delims = runs.map (slice str) ∧ (runs.Pairwise fun a b => a.2 < b.1) ∧
      ∀ run, run ∈ runs ↔ MaximalRun (isToken delims) str run := by
  have hboundary : Boundary (isToken delims) str 0 := fun k c hk => absurd hk (Nat.succ_ne_zero k)
  obtain ⟨runs, hsplit, hsorted, hruns⟩ := splitFrom_runs hboundary []
  refine ⟨runs, hsplit, hsorted, fun run => ?_⟩
  rw [hruns, and_iff_left (Nat.zero_le _)]

end Utility

/-! ## Config -/

inductive ConfigError where
  | file (what : String)
  | outOfRange
  deriving DecidableEq

/-- The map of a `Config`. -/
structure Config where
  map : List UInt8 → Option (List UInt8)

namespace Config

def empty : Config := ⟨fun _ => none⟩

variable (config : Config)

def getValue (key : List UInt8) : Except ConfigError (List UInt8) :=
  match config.map key with
  | some value => .ok value
  | none => .error .outOfRange

def isExistKey (key : List UInt8) : Bool := (config.map key).isSome

/-- `map_.emplace`: a key that is there keeps its value. -/
def emplace (key value : List UInt8) : Config :=
  match config.map key with
  | some _ => config
  | none => ⟨Function.update config.map key (some value)⟩

/-- The delimiters `" ,=\t\r\n"`. -/
def delims : List UInt8 := [32, 44, 61, 9, 13, 10]

/-- Deletes the comment of a line, from its first `#` on. -/
def deleteComment (line : List UInt8) : List UInt8 :=
  match findFrom (fun c => c == 35) line 0 with
  | some pos => line.take pos
  | none => line

/-- The loop body of `load_from_file`. -/
def addLine (line : List UInt8) : Config :=
  match Utility.split (deleteComment line) delims with
  | key :: value :: _ => config.emplace key value
  | _ => config

/-- `std::getline`: the line and what is left behind its newline. -/
def getline (is : List UInt8) : Option (List UInt8 × List UInt8) :=
  match is with
  | [] => none
  | _ :: _ => some (is.takeWhile fun c => c != 10, (is.dropWhile fun c => c != 10).drop 1)

theorem getline_length {is line rest : List UInt8} (h : getline is = some (line, rest)) :
    rest.length < is.length := by
  unfold getline at h
  split at h
  · cases h
  · rename_i c cs
    obtain ⟨-, rfl⟩ := Prod.mk.inj (Option.some.inj h)
    have hle := (List.dropWhile_sublist (l := c :: cs) fun c => c != 10).length_le
    rw [List.length_drop]
    rw [List.length_cons] at hle ⊢
    omega

/-- The loop of `load_from_file`. -/
def loadLines (config : Config) (is : List UInt8) : Config :=
  match _h : getline is with
  | none => config
  | some (line, rest) => loadLines (config.addLine line) rest
termination_by is.length
decreasing_by exact getline_length _h

def loadFromFile (files : String → Option (List UInt8)) (filename : String) : Except ConfigError Config :=
  match files filename with
  | none => .error (.file ("Err: Config file not found. (" ++ filename ++ ")"))
  | some [] => .error (.file ("Err: Config file is empty. (" ++ filename ++ ")"))
  | some content => .ok (config.loadLines content)

/-! ### Lines -/

variable {config} {is line key value : List UInt8}

theorem loadLines_nil (config : Config) : config.loadLines [] = config := by
  rw [loadLines]
  rfl

theorem loadLines_cons {rest : List UInt8} (h : getline is = some (line, rest)) :
    config.loadLines is = (config.addLine line).loadLines rest := by
  rw [loadLines]
  split
  · rename_i hnone
    cases h.symm.trans hnone
  · rename_i line' rest' hsome
    cases h.symm.trans hsome
    rfl

theorem getline_last (hne : is ≠ []) (h : 10 ∉ is) : getline is = some (is, []) := by
  have hall : ∀ c ∈ is, (c != 10) = true := fun c hc => bne_iff_ne.2 (ne_of_mem_of_not_mem hc h)
  obtain ⟨c, cs, rfl⟩ := List.exists_cons_of_ne_nil hne
  rw [getline, ← List.append_nil (c :: cs), List.takeWhile_append_of_pos hall,
    List.dropWhile_append_of_pos hall]
  rfl

theorem getline_newline (h : 10 ∉ line) (rest : List UInt8) :
    getline (line ++ 10 :: rest) = some (line, rest) := by
  have hall : ∀ c ∈ line, (c != 10) = true := fun c hc => bne_iff_ne.2 (ne_of_mem_of_not_mem hc h)
  have hget : getline (line ++ 10 :: rest) = some ((line ++ 10 :: rest).takeWhile (fun c => c != 10),
      ((line ++ 10 :: rest).dropWhile fun c => c != 10).drop 1) := by
    cases line with
    | nil => rfl
    | cons c cs => rfl
  rw [hget, List.takeWhile_append_of_pos hall, List.dropWhile_append_of_pos hall,
    List.takeWhile_cons_of_neg (by decide), List.dropWhile_cons_of_neg (by decide), List.append_nil]
  rfl

theorem deleteComment_eq (line : List UInt8) : deleteComment line = line.takeWhile fun c => c != 35 := by
  have hnot : (fun c : UInt8 => !(c != 35)) = fun c => c == 35 := by
    funext c
    rw [bne, Bool.not_not]
  rw [List.takeWhile_eq_take_findIdx_not, hnot]
  unfold deleteComment
  rw [findFrom, List.drop_zero]
  cases hfind : line.findIdx? fun c => c == 35 with
  | none =>
    rw [List.findIdx?_eq_none_iff_findIdx_eq] at hfind
    rw [hfind, List.take_length]
    rfl
  | some pos =>
    rw [List.findIdx?_eq_some_iff_findIdx_eq] at hfind
    rw [hfind.2, Option.map_some, Nat.zero_add]

/-- The key and the value of a line, as the first tokens before its comment. -/
def HasEntry (line key value : List UInt8) : Prop :=
  ∃ rest, Utility.split (line.takeWhile fun c => c != 35) delims = key :: value :: rest

/-- The first line with the key has the value. -/
def FirstEntry (lines : List (List UInt8)) (key value : List UInt8) : Prop :=
  ∃ before line after, lines = before ++ line :: after ∧ HasEntry line key value ∧
    ∀ l ∈ before, ∀ v, ¬HasEntry l key v

/-- The value of the key in a line. -/
def lineValue (key line : List UInt8) : Option (List UInt8) :=
  match Utility.split (line.takeWhile fun c => c != 35) delims with
  | k :: value :: _ => if k = key then some value else none
  | _ => none

theorem lineValue_eq_some : lineValue key line = some value ↔ HasEntry line key value := by
  unfold lineValue HasEntry
  split
  · rename_i k v rest hsplit
    rw [hsplit]
    constructor
    · intro h
      split at h
      · rename_i hk
        cases h
        exact ⟨rest, by rw [hk]⟩
      · cases h
    · rintro ⟨rest', heq⟩
      cases heq
      exact if_pos rfl
  · rename_i hshort
    refine iff_of_false (fun h => by cases h) ?_
    rintro ⟨rest, heq⟩
    exact hshort _ _ _ heq

theorem emplace_map (config : Config) (k v key : List UInt8) :
    (config.emplace k v).map key = (config.map key).or (if k = key then some v else none) := by
  unfold emplace
  split
  · rename_i w hw
    split
    · rename_i hk
      rw [← hk, hw]
      rfl
    · rw [Option.or_none]
  · rename_i hnone
    show Function.update config.map k (some v) key = _
    rw [Function.update_apply]
    split
    · rename_i hk
      rw [hk, hnone, if_pos rfl]
      rfl
    · rename_i hk
      rw [if_neg (Ne.symm hk), Option.or_none]

theorem addLine_map (config : Config) (line key : List UInt8) :
    (config.addLine line).map key = (config.map key).or (lineValue key line) := by
  unfold addLine lineValue
  rw [deleteComment_eq]
  split
  · exact emplace_map _ _ _ _
  · rw [Option.or_none]

theorem split_nil (delims : List UInt8) : Utility.split [] delims = [] := by
  have hnone : Utility.findFirstNotOf [] delims 0 = none := rfl
  rw [Utility.split, hnone, Utility.splitFrom_none]

/-- The loop sees the lines of the file, and one without a newline at the end. -/
theorem loadLines_map (config : Config) (is key : List UInt8) :
    (config.loadLines is).map key = (config.map key).or ((is.splitOn 10).findSome? (lineValue key)) := by
  have hempty : lineValue key [] = none := by
    unfold lineValue
    rw [List.takeWhile_nil, split_nil]
  induction hn : is.length using Nat.strong_induction_on generalizing is config with
  | _ n ih =>
  by_cases hne : is = []
  · subst hne
    rw [loadLines_nil, List.splitOn_nil, List.findSome?_cons, hempty]
    exact (Option.or_none).symm
  · by_cases hmem : 10 ∈ is
    · obtain ⟨line, rest, rfl, hline⟩ := List.eq_append_cons_of_mem hmem
      have hlt : rest.length < n := by
        rw [← hn, List.length_append, List.length_cons]
        omega
      rw [loadLines_cons (getline_newline hline rest), ih _ hlt _ _ rfl, addLine_map,
        List.splitOn_append_cons_self_of_not_mem hline, List.findSome?_cons, Option.or_assoc]
      congr 1
      cases lineValue key line <;> rfl
    · rw [loadLines_cons (getline_last hne hmem), loadLines_nil, addLine_map,
        List.splitOn_eq_singleton hmem, List.findSome?_cons]
      congr 1
      cases lineValue key is <;> rfl

theorem isExistKey_loadLines (is key : List UInt8) :
    (empty.loadLines is).isExistKey key = true ↔ ∃ line ∈ is.splitOn 10, ∃ v, HasEntry line key v := by
  have hmap : (empty.loadLines is).map key = (is.splitOn 10).findSome? (lineValue key) :=
    loadLines_map empty is key
  rw [isExistKey, hmap, List.findSome?_isSome_iff]
  simp only [Option.isSome_iff_exists, lineValue_eq_some]

theorem getValue_eq_ok : config.getValue key = .ok value ↔ config.map key = some value := by
  unfold getValue
  split
  · rename_i v hv
    rw [hv, Except.ok.injEq, Option.some.injEq]
  · rename_i hnone
    rw [hnone]
    exact iff_of_false (fun h => by cases h) (fun h => by cases h)

theorem getValue_loadLines (is key value : List UInt8) :
    (empty.loadLines is).getValue key = .ok value ↔ FirstEntry (is.splitOn 10) key value := by
  have hmap : (empty.loadLines is).map key = (is.splitOn 10).findSome? (lineValue key) :=
    loadLines_map empty is key
  rw [getValue_eq_ok, hmap, List.findSome?_eq_some_iff]
  simp only [lineValue_eq_some, FirstEntry, Option.eq_none_iff_forall_ne_some, ne_eq]

/-! ### Rendering -/

/-- A key or a value of a rendered map. -/
structure IsPlain (word : List UInt8) : Prop where
  ne_nil : word ≠ []
  not_delim : ∀ c ∈ word, c ∉ delims
  not_comment : 35 ∉ word

theorem isPlain_of_all {word : List UInt8} (hne : word ≠ [])
    (hall : (word.all fun c => !delims.contains c && c != 35) = true) : IsPlain word := by
  have hchar := List.all_eq_true.1 hall
  refine ⟨hne, fun c hc hdelim => ?_, fun hc => ?_⟩
  · have hnot := hchar c hc
    rw [List.contains_eq_mem, decide_eq_true hdelim] at hnot
    cases hnot
  · have hnot := hchar 35 hc
    cases hnot

/-- The lines `key = value`. -/
def render (entries : List (List UInt8 × List UInt8)) : List UInt8 :=
  entries.flatMap fun e => e.1 ++ ([32, 61, 32] ++ e.2) ++ [10]

theorem IsPlain.isToken {word : List UInt8} (h : IsPlain word) :
    ∀ c ∈ word, Utility.isToken delims c = true := by
  intro c hc
  rw [Utility.isToken, Bool.not_eq_true', List.contains_eq_mem, decide_eq_false_iff_not]
  exact h.not_delim c hc

theorem split_render (hkey : IsPlain key) (hvalue : IsPlain value) :
    Utility.split (key ++ ([32, 61, 32] ++ value)) delims = [key, value] := by
  have hmid : ∀ c ∈ ([61, 32] : List UInt8), Utility.isToken delims c = false :=
    List.forall_mem_cons.2 ⟨rfl, List.forall_mem_singleton.2 rfl⟩
  have hfirst := Utility.splitFrom_token [] [] ([32, 61, 32] ++ value) (fun c hc => by cases hc)
    hkey.ne_nil hkey.isToken (fun c hc => by cases hc; rfl) []
  have hsecond := Utility.splitFrom_token (key ++ [32]) [61, 32] [] hmid hvalue.ne_nil hvalue.isToken
    (fun c hc => by cases hc) [key]
  simp only [List.nil_append, List.append_nil, List.length_nil, Nat.zero_add, List.append_assoc,
    List.length_append, List.length_singleton, List.cons_append] at hfirst hsecond ⊢
  have hlast : ∀ n, (key ++ 32 :: 61 :: 32 :: value).length ≤ n →
      Utility.findFirstNotOf (key ++ 32 :: 61 :: 32 :: value) delims n = none :=
    fun n h => findFrom_of_length_le h
  rw [Utility.split, hfirst, hsecond, hlast, Utility.splitFrom_none]
  simp only [List.length_append, List.length_cons]
  omega

theorem newline_not_mem_render (hkey : IsPlain key) (hvalue : IsPlain value) :
    10 ∉ key ++ ([32, 61, 32] ++ value) := by
  have hdelim : 10 ∈ delims := by decide
  simp only [List.mem_append, not_or]
  exact ⟨fun h => hkey.not_delim 10 h hdelim, by decide, fun h => hvalue.not_delim 10 h hdelim⟩

theorem addLine_render (config : Config) (hkey : IsPlain key) (hvalue : IsPlain value) :
    config.addLine (key ++ ([32, 61, 32] ++ value)) = config.emplace key value := by
  have hnone : ∀ c ∈ key ++ ([32, 61, 32] ++ value), (c != 35) = true := by
    intro c hc
    rw [bne_iff_ne]
    rintro rfl
    simp only [List.mem_append] at hc
    rcases hc with hc | hc | hc
    · exact hkey.not_comment hc
    · exact absurd hc (by decide)
    · exact hvalue.not_comment hc
  have hcut : (key ++ ([32, 61, 32] ++ value)).takeWhile (fun c => c != 35) =
      key ++ ([32, 61, 32] ++ value) := by
    rw [← List.append_nil (key ++ _), List.takeWhile_append_of_pos hnone, List.takeWhile_nil]
  rw [addLine, deleteComment_eq, hcut, split_render hkey hvalue]

theorem loadLines_render {entries : List (List UInt8 × List UInt8)}
    (hplain : ∀ e ∈ entries, IsPlain e.1 ∧ IsPlain e.2) (config : Config) :
    config.loadLines (render entries) = entries.foldl (fun config e => config.emplace e.1 e.2) config := by
  induction entries generalizing config with
  | nil => exact loadLines_nil config
  | cons e entries ih =>
    obtain ⟨hkey, hvalue⟩ := hplain e List.mem_cons_self
    have hline : render (e :: entries) = (e.1 ++ ([32, 61, 32] ++ e.2)) ++ 10 :: render entries := by
      rw [render, List.flatMap_cons, List.append_assoc, List.singleton_append]
      rfl
    rw [hline, loadLines_cons (getline_newline (newline_not_mem_render hkey hvalue) _),
      addLine_render _ hkey hvalue, ih fun e' he => hplain e' (List.mem_cons_of_mem _ he), List.foldl_cons]

/-- With different keys, every entry goes in. -/
theorem foldl_emplace {entries : List (List UInt8 × List UInt8)} (hnodup : (entries.map Prod.fst).Nodup)
    (config : Config) (key value : List UInt8) :
    (entries.foldl (fun config e => config.emplace e.1 e.2) config).map key = some value ↔
      config.map key = some value ∨ config.map key = none ∧ (key, value) ∈ entries := by
  induction entries generalizing config with
  | nil => simp
  | cons e entries ih =>
    obtain ⟨k, v⟩ := e
    obtain ⟨hnot, hnodup⟩ := List.nodup_cons.1 hnodup
    rw [List.foldl_cons, ih hnodup, emplace_map]
    have hfresh : k = key → (key, value) ∉ entries := by
      rintro rfl hmem
      exact hnot (List.mem_map.2 ⟨_, hmem, rfl⟩)
    cases hmap : config.map key with
    | some w => simp
    | none =>
      by_cases hk : k = key
      · simp [hk, hfresh hk, eq_comm]
      · simp [hk, Ne.symm hk]

theorem render_ne_nil {entries : List (List UInt8 × List UInt8)} (h : entries ≠ []) :
    render entries ≠ [] := by
  obtain ⟨e, rest, rfl⟩ := List.exists_cons_of_ne_nil h
  rw [render, List.flatMap_cons]
  simp

theorem loadFromFile_ok {files : String → Option (List UInt8)} {filename : String} {content : List UInt8}
    (h : files filename = some content) (hne : content ≠ []) (config : Config) :
    config.loadFromFile files filename = .ok (config.loadLines content) := by
  obtain ⟨c, cs, rfl⟩ := List.exists_cons_of_ne_nil hne
  unfold loadFromFile
  rw [h]

/-- `split` gives the maximal runs without a delimiter. A loaded file has the first entry of each key of
its lines. A rendered map is loaded again. -/
theorem config_grammar (files : String → Option (List UInt8)) (filename : String) :
    (∀ str delims, ∃ runs : List (ℕ × ℕ), Utility.split str delims = runs.map (slice str) ∧
      (runs.Pairwise fun a b => a.2 < b.1) ∧
      ∀ run, run ∈ runs ↔ MaximalRun (Utility.isToken delims) str run) ∧
    (∀ content, content ≠ [] → files filename = some content →
      ∃ config, empty.loadFromFile files filename = .ok config ∧ ∀ key,
        (config.isExistKey key = true ↔ ∃ line ∈ content.splitOn 10, ∃ value, HasEntry line key value) ∧
        ∀ value, config.getValue key = .ok value ↔ FirstEntry (content.splitOn 10) key value) ∧
    ∀ entries, entries ≠ [] → (entries.map Prod.fst).Nodup →
      (∀ e ∈ entries, IsPlain e.1 ∧ IsPlain e.2) → files filename = some (render entries) →
      ∃ config, empty.loadFromFile files filename = .ok config ∧ ∀ key,
        (config.isExistKey key = true ↔ key ∈ entries.map Prod.fst) ∧
        ∀ value, config.getValue key = .ok value ↔ (key, value) ∈ entries := by
  refine ⟨Utility.split_runs, fun content hne hfile => ?_, fun entries hne hnodup hplain hfile => ?_⟩
  · exact ⟨_, loadFromFile_ok hfile hne empty, fun key =>
      ⟨isExistKey_loadLines content key, getValue_loadLines content key⟩⟩
  · have hvalue : ∀ key value,
        (empty.loadLines (render entries)).map key = some value ↔ (key, value) ∈ entries := by
      intro key value
      rw [loadLines_render hplain, foldl_emplace hnodup]
      simp [empty]
    refine ⟨_, loadFromFile_ok hfile (render_ne_nil hne) empty, fun key => ⟨?_, fun value => ?_⟩⟩
    · rw [isExistKey, Option.isSome_iff_exists]
      simp only [hvalue, List.mem_map, Prod.exists, exists_and_right, exists_eq_right]
    · rw [getValue_eq_ok, hvalue]

/-- The entries `ip = 127.0.0.1` and `port = 80`. -/
def sampleEntries : List (List UInt8 × List UInt8) :=
  [([105, 112], [49, 50, 55, 46, 48, 46, 48, 46, 49]), ([112, 111, 114, 116], [56, 48])]

theorem config_grammar_sample : ∃ config,
    empty.loadFromFile (fun _ => some (render sampleEntries)) "ppcnn.conf" = .ok config ∧
      config.getValue [112, 111, 114, 116] = .ok [56, 48] ∧ config.isExistKey [112] = false ∧
      FirstEntry ((render sampleEntries).splitOn 10) [112, 111, 114, 116] [56, 48] := by
  have hplain : ∀ e ∈ sampleEntries, IsPlain e.1 ∧ IsPlain e.2 := by
    rw [sampleEntries, List.forall_mem_cons, List.forall_mem_singleton]
    exact ⟨⟨isPlain_of_all (by decide) rfl, isPlain_of_all (by decide) rfl⟩,
      isPlain_of_all (by decide) rfl, isPlain_of_all (by decide) rfl⟩
  obtain ⟨-, hload, hrender⟩ := config_grammar (fun _ => some (render sampleEntries)) "ppcnn.conf"
  obtain ⟨config, hconfig, hlines⟩ := hload _ (render_ne_nil (List.cons_ne_nil _ _)) rfl
  obtain ⟨config', hconfig', hentries⟩ :=
    hrender sampleEntries (List.cons_ne_nil _ _) (by decide) hplain rfl
  obtain rfl := Except.ok.inj (hconfig.symm.trans hconfig')
  have hport : config.getValue [112, 111, 114, 116] = .ok [56, 48] :=
    ((hentries _).2 _).2 (List.mem_cons_of_mem _ (List.mem_singleton_self _))
  have hunknown : ¬config.isExistKey [112] = true := by
    rw [(hentries [112]).1]
    decide
  exact ⟨config, hconfig, hport, by simpa using hunknown, ((hlines _).2 _).1 hport⟩

end Config

end Share
