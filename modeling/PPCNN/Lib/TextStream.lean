import Mathlib.Data.Nat.Digits.Defs
import Mathlib.Tactic.Ring

/-!
# Text streams

Formatted output and input of integers and words, as the streams of C++ do it in the C locale. A `TextIn`
is what is left to read, with the state of failure.

* `NumFormat α`: how a type of integers is written, and what a number of the text is taken for. A number
  is read back if no digit follows it (`read_text`).
* `Behind k is`: there are not `k` numbers left to read, or the stream has failed. Each read of a number
  takes one away, and the last one leaves its target as it is (`Behind.read`, `Behind.read_last`).
-/

set_option autoImplicit false

namespace Lib

/-! ## Characters -/

/-- `isspace`: the blank and the five control characters from the tab on. -/
def isSpace (c : UInt8) : Bool := c == 32 || (9 ≤ c && c ≤ 13)

def isDigit (c : UInt8) : Bool := 48 ≤ c && c ≤ 57

def digitValue (c : UInt8) : ℕ := c.toNat - 48

def digitChar (d : ℕ) : UInt8 := .ofNat (48 + d)

theorem digitChar_all : ∀ d < 10, isDigit (digitChar d) ∧ digitValue (digitChar d) = d := by decide

theorem not_space_of_digit {c : UInt8} (h : isDigit c = true) : isSpace c = false := by
  simp only [isDigit, isSpace, Bool.and_eq_true, decide_eq_true_eq, Bool.or_eq_false_iff,
    beq_eq_false_iff_ne, ne_eq, Bool.and_eq_false_iff, decide_eq_false_iff_not, UInt8.le_iff_toNat_le,
    ← UInt8.toNat_inj] at h ⊢
  simp only [UInt8.reduceToNat] at h ⊢
  omega

/-! ## Numbers -/

/-- A number in decimal digits. -/
def decimal (n : ℕ) : List UInt8 :=
  if n = 0 then [48] else (Nat.digits 10 n).reverse.map digitChar

/-- The value of a string of digits. -/
def decimalValue (ds : List UInt8) : ℕ := ds.foldl (fun n c => 10 * n + digitValue c) 0

def decimalInt (z : ℤ) : List UInt8 := if z < 0 then 45 :: decimal z.natAbs else decimal z.natAbs

example : decimalInt (-120) = [45, 49, 50, 48] := by decide

theorem decimal_digits (n : ℕ) : ∀ c ∈ decimal n, isDigit c = true := by
  intro c hc
  unfold decimal at hc
  split at hc
  · rw [List.mem_singleton.1 hc]
    decide
  · obtain ⟨d, hd, rfl⟩ := List.mem_map.1 hc
    exact (digitChar_all d (Nat.digits_lt_base (by decide) (List.mem_reverse.1 hd))).1

theorem decimal_ne_nil (n : ℕ) : decimal n ≠ [] := by
  unfold decimal
  split
  · exact List.cons_ne_nil _ _
  · rename_i h
    rw [ne_eq, List.map_eq_nil_iff, List.reverse_eq_nil_iff]
    exact Nat.digits_ne_nil_iff_ne_zero.2 h

theorem mem_decimalInt {z : ℤ} {c : UInt8} (h : c ∈ decimalInt z) : c = 45 ∨ isDigit c = true := by
  unfold decimalInt at h
  split at h
  · exact (List.mem_cons.1 h).imp_right (decimal_digits _ c)
  · exact .inr (decimal_digits _ c h)

theorem decimalValue_decimal (n : ℕ) : decimalValue (decimal n) = n := by
  unfold decimal
  split
  · rename_i h
    rw [h]
    rfl
  · have hfold : ∀ ds : List ℕ, (∀ d ∈ ds, d < 10) →
        decimalValue (ds.reverse.map digitChar) = Nat.ofDigits 10 ds := by
      intro ds
      induction ds with
      | nil => exact fun _ => rfl
      | cons d ds ih =>
        intro h
        have hd := (digitChar_all d (h d List.mem_cons_self)).2
        have hds := ih fun d' hd' => h d' (List.mem_cons_of_mem _ hd')
        rw [decimalValue] at hds ⊢
        rw [List.reverse_cons, List.map_append, List.foldl_append, hds, Nat.ofDigits_cons]
        simp only [List.map_cons, List.map_nil, List.foldl_cons, List.foldl_nil, hd]
        omega
    rw [hfold _ fun d hd => Nat.digits_lt_base (by decide) hd, Nat.ofDigits_digits]

/-! ## Formats -/

/-- A type of integers: the number that is written for a value, and what a number that has been read is
taken for, with whether it was in the range. -/
structure NumFormat (α : Type) where
  toInt : α → ℤ
  convert : ℤ → α × Bool
  convert_toInt : ∀ a, convert (toInt a) = (a, true)

namespace NumFormat

/-- `size_t`: a number with a sign is taken modulo the size of the type, as `strtoull` does. -/
def sizeT : NumFormat UInt64 where
  toInt x := x.toNat
  convert z := if z.natAbs < 2 ^ 64 then (.ofNat (z % 2 ^ 64).toNat, true) else (-1, false)
  convert_toInt x := by
    have hlt := x.toNat_lt
    rw [if_pos (by rw [Int.natAbs_natCast]; exact hlt), Int.emod_eq_of_lt (Int.natCast_nonneg _) (by omega),
      Int.toNat_natCast, UInt64.ofNat_toNat]

/-- `int32_t`: a number out of range becomes the nearest bound. -/
def int32 : NumFormat Int32 where
  toInt := Int32.toInt
  convert z :=
    if z < Int32.minValue.toInt then (Int32.minValue, false)
    else if Int32.maxValue.toInt < z then (Int32.maxValue, false)
    else (.ofInt z, true)
  convert_toInt x := by
    rw [if_neg (not_lt.2 x.minValue_le_toInt), if_neg (not_lt.2 x.toInt_le), Int32.ofInt_toInt]

variable {α : Type} (F : NumFormat α)

def text (a : α) : List UInt8 := decimalInt (F.toInt a)

end NumFormat

/-! ## Input -/

structure TextIn where
  rest : List UInt8
  failed : Bool

namespace TextIn

def ofText (text : List UInt8) : TextIn := ⟨text, false⟩

/-- The sentry of an input operation: it skips space, and something must be left. -/
def sentry (is : TextIn) : TextIn :=
  if is.failed then is
  else
    let rest := is.rest.dropWhile isSpace
    ⟨rest, rest.isEmpty⟩

/-- An optional sign, with whether it is a minus. -/
def scanSign : List UInt8 → Bool × List UInt8
  | 45 :: cs => (true, cs)
  | 43 :: cs => (false, cs)
  | cs => (false, cs)

/-- The number at the front, if there is a digit. -/
def scanInt (cs : List UInt8) : Option ℤ × List UInt8 :=
  let (negative, cs) := scanSign cs
  let ds := cs.takeWhile isDigit
  let value : ℤ := decimalValue ds
  (if ds = [] then none else some (if negative then -value else value), cs.dropWhile isDigit)

/-- `operator>>` for an integer: the value that is stored, if one is. -/
def read {α : Type} (F : NumFormat α) (is : TextIn) : Option α × TextIn :=
  let is := is.sentry
  if is.failed then (none, is)
  else
    match scanInt is.rest with
    | (none, rest) => (some (F.convert 0).1, ⟨rest, true⟩)
    | (some z, rest) => (some (F.convert z).1, ⟨rest, !(F.convert z).2⟩)

/-- `operator>>` for an integer, into an object that has a value. -/
def readInto {α : Type} (F : NumFormat α) (old : α) (is : TextIn) : α × TextIn :=
  ((is.read F).1.getD old, (is.read F).2)

/-- `operator>>` for a string. -/
def readWord (old : List UInt8) (is : TextIn) : List UInt8 × TextIn :=
  let is := is.sentry
  if is.failed then (old, is)
  else (is.rest.takeWhile fun c => !isSpace c, ⟨is.rest.dropWhile fun c => !isSpace c, false⟩)

/-! ## Reading back -/

section

variable {α : Type} {F : NumFormat α} {a : α} {cs ws tail : List UInt8} {is : TextIn}

/-- The characters at the front that have a property, when the next one has not. -/
theorem span_append {p : UInt8 → Bool} (hcs : ∀ c ∈ cs, p c = true) (htail : ∀ c ∈ tail.head?, p c = false) :
    (cs ++ tail).takeWhile p = cs ∧ (cs ++ tail).dropWhile p = tail := by
  rw [List.takeWhile_append_of_pos hcs, List.dropWhile_append_of_pos hcs]
  cases tail with
  | nil => exact ⟨List.append_nil cs, rfl⟩
  | cons c tail =>
    have hc : ¬p c = true := by simpa using htail c rfl
    rw [List.takeWhile_cons_of_neg hc, List.dropWhile_cons_of_neg hc]
    exact ⟨List.append_nil cs, rfl⟩

theorem sentry_of_failed (h : is.failed = true) : is.sentry = is := if_pos h

theorem sentry_skip (hws : ∀ c ∈ ws, isSpace c = true) (hne : cs ≠ [])
    (hcs : ∀ c ∈ cs.head?, isSpace c = false) : sentry ⟨ws ++ cs, false⟩ = ⟨cs, false⟩ := by
  rw [sentry, if_neg Bool.false_ne_true]
  simp only [(span_append hws hcs).2]
  rw [List.isEmpty_eq_false_iff.2 hne]

theorem scanSign_digits (hcs : ∀ c ∈ cs.head?, isDigit c = true) : scanSign cs = (false, cs) := by
  unfold scanSign
  split
  · exact absurd (hcs 45 rfl) (by decide)
  · exact absurd (hcs 43 rfl) (by decide)
  · rfl

theorem head?_append_of_ne_nil (h : cs ≠ []) : (cs ++ tail).head? = cs.head? := by
  rw [List.head?_append, List.head?_eq_some_head h]
  rfl

theorem head?_decimal (n : ℕ) (tail : List UInt8) :
    ∀ c ∈ (decimal n ++ tail).head?, isDigit c = true := by
  rw [head?_append_of_ne_nil (decimal_ne_nil n)]
  exact fun c hc => decimal_digits n c (List.mem_of_mem_head? hc)

theorem scanInt_decimalInt (z : ℤ) (htail : ∀ c ∈ tail.head?, isDigit c = false) :
    scanInt (decimalInt z ++ tail) = (some z, tail) := by
  obtain ⟨htake, hdrop⟩ := span_append (decimal_digits z.natAbs) htail
  by_cases hz : z < 0
  · have hsign : scanSign (45 :: decimal z.natAbs ++ tail) = (true, decimal z.natAbs ++ tail) := rfl
    rw [decimalInt, if_pos hz, scanInt, hsign]
    simp only [htake, hdrop, decimalValue_decimal, if_neg (decimal_ne_nil _), if_true, Prod.mk.injEq,
      Option.some.injEq, and_true]
    omega
  · rw [decimalInt, if_neg hz, scanInt, scanSign_digits (head?_decimal _ _)]
    simp only [htake, hdrop, decimalValue_decimal, if_neg (decimal_ne_nil _), Bool.false_eq_true, if_false,
      Prod.mk.injEq, Option.some.injEq, and_true]
    omega

theorem text_ne_nil (F : NumFormat α) (a : α) : F.text a ≠ [] := by
  unfold NumFormat.text decimalInt
  split
  · exact List.cons_ne_nil _ _
  · exact decimal_ne_nil _

theorem text_not_space (F : NumFormat α) (a : α) : ∀ c ∈ F.text a, isSpace c = false := by
  intro c hc
  rcases mem_decimalInt hc with rfl | hdigit
  · rfl
  · exact not_space_of_digit hdigit

/-- A number is read back if no digit follows. -/
theorem read_text (F : NumFormat α) (a : α) (hws : ∀ c ∈ ws, isSpace c = true)
    (htail : ∀ c ∈ tail.head?, isDigit c = false) :
    read F ⟨ws ++ (F.text a ++ tail), false⟩ = (some a, ⟨tail, false⟩) := by
  have hne : F.text a ++ tail ≠ [] := List.append_ne_nil_of_left_ne_nil (text_ne_nil F a) _
  have hhead : ∀ c ∈ (F.text a ++ tail).head?, isSpace c = false := by
    rw [head?_append_of_ne_nil (text_ne_nil F a)]
    exact fun c hc => text_not_space F a c (List.mem_of_mem_head? hc)
  rw [read, sentry_skip hws hne hhead]
  simp only [Bool.false_eq_true, if_false, NumFormat.text, scanInt_decimalInt _ htail, F.convert_toInt,
    Bool.not_true]

theorem readInto_text (F : NumFormat α) (old a : α) (hws : ∀ c ∈ ws, isSpace c = true)
    (htail : ∀ c ∈ tail.head?, isDigit c = false) :
    readInto F old ⟨ws ++ (F.text a ++ tail), false⟩ = (a, ⟨tail, false⟩) := by
  rw [readInto, read_text F a hws htail]
  rfl

/-- A word is read back if space or nothing follows. -/
theorem readWord_word {word : List UInt8} (old : List UInt8) (hws : ∀ c ∈ ws, isSpace c = true)
    (hne : word ≠ []) (hword : ∀ c ∈ word, isSpace c = false)
    (htail : ∀ c ∈ tail.head?, isSpace c = true) :
    readWord old ⟨ws ++ (word ++ tail), false⟩ = (word, ⟨tail, false⟩) := by
  have hhead : ∀ c ∈ (word ++ tail).head?, isSpace c = false := by
    rw [head?_append_of_ne_nil hne]
    exact fun c hc => hword c (List.mem_of_mem_head? hc)
  have hspan : (word ++ tail).takeWhile (fun c => !isSpace c) = word ∧
      (word ++ tail).dropWhile (fun c => !isSpace c) = tail :=
    span_append (fun c hc => by rw [hword c hc]; rfl) (fun c hc => by rw [htail c hc]; rfl)
  rw [readWord, sentry_skip hws (List.append_ne_nil_of_left_ne_nil hne _) hhead]
  simp only [Bool.false_eq_true, if_false, hspan.1, hspan.2]

end

/-! ## What is left -/

section

variable {α : Type} {F : NumFormat α} {cs ds ns : List UInt8} {is : TextIn}

theorem dropWhile_suffix (p : UInt8 → Bool) (cs : List UInt8) : cs.dropWhile p <:+ cs :=
  ⟨cs.takeWhile p, List.takeWhile_append_dropWhile⟩

theorem sentry_suffix (is : TextIn) : is.sentry.rest <:+ is.rest := by
  unfold sentry
  split
  · exact List.suffix_refl _
  · exact dropWhile_suffix _ _

theorem scanSign_cases (cs : List UInt8) :
    ∃ sign, (∀ c ∈ sign, isDigit c = false) ∧ cs = sign ++ (scanSign cs).2 := by
  unfold scanSign
  split
  · exact ⟨[45], List.forall_mem_singleton.2 rfl, rfl⟩
  · exact ⟨[43], List.forall_mem_singleton.2 rfl, rfl⟩
  · exact ⟨[], by simp, rfl⟩

theorem scanInt_suffix (cs : List UInt8) : (scanInt cs).2 <:+ cs := by
  obtain ⟨sign, -, hcs⟩ := scanSign_cases cs
  exact (dropWhile_suffix _ _).trans ⟨sign, hcs.symm⟩

theorem read_suffix (F : NumFormat α) (is : TextIn) : (is.read F).2.rest <:+ is.rest := by
  unfold read
  dsimp only
  split
  · exact sentry_suffix is
  · have hscan := scanInt_suffix is.sentry.rest
    split
    · rename_i rest heq
      rw [heq] at hscan
      exact hscan.trans (sentry_suffix is)
    · rename_i z rest heq
      rw [heq] at hscan
      exact hscan.trans (sentry_suffix is)

theorem readWord_suffix (old : List UInt8) (is : TextIn) : (is.readWord old).2.rest <:+ is.rest := by
  unfold readWord
  dsimp only
  split
  · exact sentry_suffix is
  · exact (dropWhile_suffix _ _).trans (sentry_suffix is)

theorem mem_readWord {old : List UInt8} {c : UInt8} (h : c ∈ (is.readWord old).1) :
    c ∈ old ∨ c ∈ is.rest := by
  unfold readWord at h
  dsimp only at h
  split at h
  · exact .inl h
  · exact .inr ((sentry_suffix is).subset ((List.takeWhile_prefix _).subset h))

/-! ### Counting the numbers -/

/-- The number of runs of digits, the first of which may have begun before. -/
def runsFrom : Bool → List UInt8 → ℕ
  | _, [] => 0
  | inRun, c :: cs => if isDigit c then (if inRun then 0 else 1) + runsFrom true cs else runsFrom false cs

def digitRuns (cs : List UInt8) : ℕ := runsFrom false cs

theorem runsFrom_digits (hds : ∀ c ∈ ds, isDigit c = true) (cs : List UInt8) :
    runsFrom true (ds ++ cs) = runsFrom true cs := by
  induction ds with
  | nil => rfl
  | cons c ds ih =>
    rw [List.cons_append, runsFrom, if_pos (hds c List.mem_cons_self), if_pos rfl, Nat.zero_add]
    exact ih fun c' hc' => hds c' (List.mem_cons_of_mem _ hc')

theorem digitRuns_digits (hne : ds ≠ []) (hds : ∀ c ∈ ds, isDigit c = true) (cs : List UInt8) :
    digitRuns (ds ++ cs) = 1 + runsFrom true cs := by
  cases ds with
  | nil => exact absurd rfl hne
  | cons c ds =>
    rw [digitRuns, List.cons_append, runsFrom, if_pos (hds c List.mem_cons_self), if_neg Bool.false_ne_true,
      runsFrom_digits fun c' hc' => hds c' (List.mem_cons_of_mem _ hc')]

theorem digitRuns_skip (hns : ∀ c ∈ ns, isDigit c = false) (cs : List UInt8) :
    digitRuns (ns ++ cs) = digitRuns cs := by
  induction ns with
  | nil => rfl
  | cons c ns ih =>
    rw [digitRuns, List.cons_append, runsFrom, if_neg (by rw [hns c List.mem_cons_self]; decide)]
    exact ih fun c' hc' => hns c' (List.mem_cons_of_mem _ hc')

theorem runsFrom_of_head (h : ∀ c ∈ cs.head?, isDigit c = false) : runsFrom true cs = digitRuns cs := by
  cases cs with
  | nil => rfl
  | cons c cs =>
    have hc : ¬isDigit c = true := by simpa using h c rfl
    rw [digitRuns, runsFrom, runsFrom, if_neg hc, if_neg hc]

theorem runsFrom_of_digit {c : UInt8} (hc : isDigit c = true) (cs : List UInt8) :
    runsFrom true (c :: cs) + 1 = digitRuns (c :: cs) := by
  rw [digitRuns, runsFrom, runsFrom, if_pos hc, if_pos hc, if_pos rfl, if_neg Bool.false_ne_true]
  omega

theorem runsFrom_le (cs : List UInt8) : runsFrom true cs ≤ digitRuns cs := by
  cases cs with
  | nil => exact Nat.le_refl _
  | cons c cs =>
    by_cases hc : isDigit c = true
    · have := runsFrom_of_digit hc cs
      omega
    · have hhead : ∀ c' ∈ (c :: cs).head?, isDigit c' = false :=
        fun c' hc' => by simpa [← Option.some.inj hc'] using hc
      exact (runsFrom_of_head hhead).le

theorem digitRuns_decimalInt (z : ℤ) (cs : List UInt8) :
    digitRuns (decimalInt z ++ cs) = 1 + runsFrom true cs := by
  have hdecimal := digitRuns_digits (decimal_ne_nil z.natAbs) (decimal_digits z.natAbs) cs
  unfold decimalInt
  split
  · rw [← List.singleton_append, List.append_assoc, digitRuns_skip (List.forall_mem_singleton.2 rfl)]
    exact hdecimal
  · exact hdecimal

theorem digitRuns_eq_zero (h : digitRuns cs = 0) : ∀ c ∈ cs, isDigit c = false := by
  induction cs with
  | nil => exact fun c hc => absurd hc List.not_mem_nil
  | cons c cs ih =>
    rw [digitRuns, runsFrom] at h
    split at h
    · simp only [Bool.false_eq_true, if_false] at h
      omega
    · rename_i hc
      intro c' hc'
      rcases List.mem_cons.1 hc' with rfl | hc'
      · simpa using hc
      · exact ih h c' hc'

/-- The scanner stops without a number, or takes one. -/
theorem scanInt_cases (cs : List UInt8) :
    (scanInt cs).1 = none ∨ digitRuns cs = 1 + digitRuns (scanInt cs).2 := by
  obtain ⟨sign, hsign, hcs⟩ := scanSign_cases cs
  by_cases hds : (scanSign cs).2.takeWhile isDigit = []
  · exact .inl (if_pos hds)
  · right
    have hdigits : ∀ c ∈ (scanSign cs).2.takeWhile isDigit, isDigit c = true :=
      fun c hc => List.all_eq_true.1 (List.all_takeWhile) c hc
    have hstop : ∀ c ∈ ((scanSign cs).2.dropWhile isDigit).head?, isDigit c = false := by
      intro c hc
      have := List.head?_dropWhile_not isDigit (scanSign cs).2
      rw [hc] at this
      simpa using this
    have hcount := digitRuns_digits hds hdigits ((scanSign cs).2.dropWhile isDigit)
    rw [List.takeWhile_append_dropWhile, runsFrom_of_head hstop] at hcount
    rw [hcs, digitRuns_skip hsign, hcount]
    show _ = 1 + digitRuns ((scanSign (sign ++ (scanSign cs).2)).2.dropWhile isDigit)
    rw [← hcs]

/-! ### Running out of numbers -/

/-- Only space and digits, but for signs that stand before a digit. -/
def Signed : List UInt8 → Prop
  | [] => True
  | c :: cs => (isSpace c = true ∨ isDigit c = true ∨ ∃ d ∈ cs.head?, isDigit d = true) ∧ Signed cs

theorem Signed.suffix {cs' : List UInt8} (h : Signed cs) (hsuffix : cs' <:+ cs) : Signed cs' := by
  obtain ⟨pre, rfl⟩ := hsuffix
  induction pre with
  | nil => exact h
  | cons c pre ih => exact ih h.2

theorem Signed.append {cs' : List UInt8} (h : Signed cs) (h' : Signed cs') : Signed (cs ++ cs') := by
  induction cs with
  | nil => exact h'
  | cons c cs ih =>
    refine ⟨h.1.imp_right (Or.imp_right ?_), ih h.2⟩
    rintro ⟨d, hd, hdigit⟩
    refine ⟨d, ?_, hdigit⟩
    show (cs ++ cs').head? = some d
    rw [List.head?_append, hd]
    rfl

theorem signed_of_all (h : ∀ c ∈ cs, isSpace c = true ∨ isDigit c = true) : Signed cs := by
  induction cs with
  | nil => trivial
  | cons c cs ih =>
    refine ⟨?_, ih fun c' hc' => h c' (List.mem_cons_of_mem _ hc')⟩
    exact (h c List.mem_cons_self).imp_right .inl

theorem signed_decimalInt (z : ℤ) : Signed (decimalInt z) := by
  have hdecimal := signed_of_all fun c hc => .inr (decimal_digits z.natAbs c hc)
  unfold decimalInt
  split
  · refine ⟨.inr (.inr ?_), hdecimal⟩
    refine ⟨_, List.head?_eq_some_head (decimal_ne_nil z.natAbs), ?_⟩
    exact decimal_digits _ _ (List.head_mem _)
  · exact hdecimal

theorem Signed.all_space (h : Signed cs) (hdigits : ∀ c ∈ cs, isDigit c = false) :
    ∀ c ∈ cs, isSpace c = true := by
  induction cs with
  | nil => exact fun c hc => absurd hc List.not_mem_nil
  | cons c cs ih =>
    intro c' hc'
    rcases List.mem_cons.1 hc' with rfl | hc'
    · rcases h.1 with hspace | hdigit | ⟨d, hd, hdigit⟩
      · exact hspace
      · rw [hdigits c' List.mem_cons_self] at hdigit
        cases hdigit
      · rw [hdigits d (List.mem_cons_of_mem _ (List.mem_of_mem_head? hd))] at hdigit
        cases hdigit
    · exact ih h.2 (fun d hd => hdigits d (List.mem_cons_of_mem _ hd)) c' hc'

/-- Fewer than `k` numbers are left. -/
def Behind (k : ℕ) (is : TextIn) : Prop :=
  is.failed = true ∨ digitRuns is.rest < k ∧ Signed is.rest

theorem digitRuns_sentry (is : TextIn) : digitRuns is.sentry.rest = digitRuns is.rest := by
  unfold sentry
  split
  · rfl
  · have hspace : ∀ c ∈ is.rest.takeWhile isSpace, isDigit c = false := by
      intro c hc
      have hc' := List.all_eq_true.1 (List.all_takeWhile) c hc
      by_contra hdigit
      rw [not_space_of_digit (by simpa using hdigit)] at hc'
      cases hc'
    have hskip := digitRuns_skip hspace (is.rest.dropWhile isSpace)
    rw [List.takeWhile_append_dropWhile] at hskip
    exact hskip.symm

/-- A number that is read is no longer left. -/
theorem Behind.read {k : ℕ} (h : Behind (k + 1) is) (F : NumFormat α) : Behind k (is.read F).2 := by
  have hsuffix := read_suffix F is
  unfold TextIn.read at hsuffix ⊢
  dsimp only at hsuffix ⊢
  split
  · rename_i hfailed
    exact .inl hfailed
  · rename_i hgood
    rw [if_neg hgood] at hsuffix
    split
    · exact .inl rfl
    · rename_i z rest heq
      rw [heq] at hsuffix
      have hnotfailed : ¬is.failed = true := fun hf => hgood (by rw [sentry_of_failed hf]; exact hf)
      obtain ⟨hruns, hsigned⟩ := h.resolve_left hnotfailed
      have hcount := (scanInt_cases is.sentry.rest).resolve_left (by rw [heq]; exact Option.some_ne_none z)
      rw [heq, digitRuns_sentry] at hcount
      refine .inr ⟨?_, hsigned.suffix hsuffix⟩
      show digitRuns rest < k
      dsimp only at hcount
      omega

/-- Without a number, the target is left as it is. -/
theorem Behind.read_last (h : Behind 1 is) (F : NumFormat α) : (is.read F).1 = none := by
  have hfailed : is.sentry.failed = true := by
    rcases h with hfailed | ⟨hruns, hsigned⟩
    · rw [sentry_of_failed hfailed]
      exact hfailed
    · have hdigits := digitRuns_eq_zero (Nat.lt_one_iff.1 hruns)
      have hspace := hsigned.all_space hdigits
      unfold sentry
      split
      · assumption
      · show (is.rest.dropWhile isSpace).isEmpty = true
        rw [List.isEmpty_iff, ← List.append_nil is.rest, List.dropWhile_append_of_pos hspace]
        rfl
  unfold TextIn.read
  exact congrArg Prod.fst (if_pos hfailed)

end

end TextIn

end Lib
