import PPCNN.Lib.TextStream
import Mathlib.Algebra.Field.Rat

/-!
# Floating-point numbers in a text (`strtod`)

A `FloatLiteral` is a number as it is written: sign, digits, point, exponent. `strtod` takes a whole text
for a number exactly if the text is a literal (`strtod_eq_some_iff`), and rounds its value.
-/

set_option autoImplicit false

namespace Lib

open TextIn

/-! ## Literals -/

/-- A sign that may stand before digits. -/
inductive Sign where
  | absent | plus | minus
  deriving DecidableEq

namespace Sign

def text : Sign → List UInt8
  | absent => []
  | plus => [43]
  | minus => [45]

def isMinus : Sign → Bool
  | minus => true
  | _ => false

end Sign

structure Exponent where
  upper : Bool
  sign : Sign
  digits : List UInt8
  digits_ne : digits ≠ []
  digits_all : ∀ c ∈ digits, isDigit c = true

def Exponent.text (e : Exponent) : List UInt8 := (if e.upper then 69 else 101) :: (e.sign.text ++ e.digits)

def signed (negative : Bool) (n : ℕ) : ℤ := if negative then -n else n

def Exponent.value (e : Exponent) : ℤ := signed e.sign.isMinus (decimalValue e.digits)

structure FloatLiteral where
  sign : Sign
  int : List UInt8
  point : Bool
  frac : List UInt8
  exponent : Option Exponent
  int_all : ∀ c ∈ int, isDigit c = true
  frac_all : ∀ c ∈ frac, isDigit c = true
  digits_ne : int ++ frac ≠ []
  frac_of_point : point = false → frac = []

/-- The number of some digits, `places` of them behind the point, times a power of ten. -/
def floatValue (negative : Bool) (int frac : List UInt8) (exponent : ℤ) : ℚ :=
  (signed negative (decimalValue (int ++ frac)) : ℚ) * 10 ^ (exponent - frac.length)

namespace FloatLiteral

variable (f : FloatLiteral)

def pointText : List UInt8 := if f.point then 46 :: f.frac else []

def exponentText : List UInt8 := (f.exponent.map Exponent.text).getD []

def text : List UInt8 := f.sign.text ++ (f.int ++ (f.pointText ++ f.exponentText))

def value : ℚ := floatValue f.sign.isMinus f.int f.frac ((f.exponent.map Exponent.value).getD 0)

end FloatLiteral

/-! ## The scanner -/

/-- The digits behind a point. -/
def scanFraction : List UInt8 → List UInt8 × List UInt8
  | 46 :: cs => (cs.takeWhile isDigit, cs.dropWhile isDigit)
  | cs => ([], cs)

/-- The exponent, if there are digits behind its letter and sign. -/
def scanExponent : List UInt8 → ℤ × List UInt8
  | [] => (0, [])
  | c :: cs =>
    if c = 101 ∨ c = 69 then
      let (negative, ds) := scanSign cs
      if ds.takeWhile isDigit = [] then (0, c :: cs)
      else (signed negative (decimalValue (ds.takeWhile isDigit)), ds.dropWhile isDigit)
    else (0, c :: cs)

/-- The longest number at the front, and what is left. -/
def scanFloat (cs : List UInt8) : Option ℚ × List UInt8 :=
  let (negative, ds) := scanSign cs
  let int := ds.takeWhile isDigit
  let (frac, es) := scanFraction (ds.dropWhile isDigit)
  if int ++ frac = [] then (none, cs)
  else
    let (exponent, rest) := scanExponent es
    (some (floatValue negative int frac exponent), rest)

/-- What `strtod` makes of a text of digits, signs, points and exponent letters, if it gets to the end.
`round` gives the `double`, or nothing when it is infinite. -/
def strtod (round : ℚ → Option ℚ) (cs : List UInt8) : Option (Option ℚ) :=
  match scanFloat cs with
  | (some x, []) => some (round x)
  | _ => none

example : strtod some [45, 50, 46, 53, 101, 49] = some (some (-25)) := by decide +kernel

section

variable {cs tail : List UInt8}

/-- The next character is neither a digit nor a sign. -/
theorem scanSign_text (sign : Sign) (hcs : ∀ c ∈ cs.head?, c ≠ 45 ∧ c ≠ 43) :
    scanSign (sign.text ++ cs) = (sign.isMinus, cs) := by
  cases sign with
  | absent =>
    show scanSign cs = (false, cs)
    unfold scanSign
    split
    · exact absurd rfl (hcs 45 rfl).1
    · exact absurd rfl (hcs 43 rfl).2
    · rfl
  | plus => rfl
  | minus => rfl

theorem scanSign_sound (cs : List UInt8) :
    ∃ sign : Sign, cs = sign.text ++ (scanSign cs).2 ∧ (scanSign cs).1 = sign.isMinus := by
  unfold scanSign
  split
  · exact ⟨.minus, rfl, rfl⟩
  · exact ⟨.plus, rfl, rfl⟩
  · exact ⟨.absent, rfl, rfl⟩

theorem digit_ne {c : UInt8} (h : isDigit c = true) : c ≠ 45 ∧ c ≠ 43 := by
  constructor <;> rintro rfl <;> exact absurd h (by decide)

theorem takeWhile_digits (cs : List UInt8) : ∀ c ∈ cs.takeWhile isDigit, isDigit c = true :=
  fun c hc => List.all_eq_true.1 List.all_takeWhile c hc

theorem takeWhile_all {cs : List UInt8} (h : ∀ c ∈ cs, isDigit c = true) :
    cs.takeWhile isDigit = cs ∧ cs.dropWhile isDigit = [] := by
  have hspan : (cs ++ []).takeWhile isDigit = cs ∧ (cs ++ []).dropWhile isDigit = [] :=
    span_append h fun c hc => by cases hc
  rwa [List.append_nil] at hspan

/-! ## Exponents -/

theorem scanExponent_text (e : Option Exponent) :
    scanExponent ((e.map Exponent.text).getD []) = ((e.map Exponent.value).getD 0, []) := by
  cases e with
  | none => rfl
  | some e =>
    have hletter : (if e.upper then 69 else 101 : UInt8) = 101 ∨
        (if e.upper then 69 else 101 : UInt8) = 69 := by
      cases e.upper with
      | false => exact .inl rfl
      | true => exact .inr rfl
    have hsign := scanSign_text e.sign fun c hc =>
      digit_ne (e.digits_all c (List.mem_of_mem_head? hc))
    obtain ⟨htake, hdrop⟩ := takeWhile_all e.digits_all
    simp only [Option.map_some, Option.getD_some, Exponent.text, scanExponent, if_pos hletter, hsign, htake,
      hdrop, if_neg e.digits_ne, Exponent.value]

theorem scanExponent_sound {es : List UInt8} {x : ℤ} (h : scanExponent es = (x, [])) :
    ∃ e : Option Exponent, es = (e.map Exponent.text).getD [] ∧ x = (e.map Exponent.value).getD 0 := by
  unfold scanExponent at h
  split at h
  · cases h
    exact ⟨none, rfl, rfl⟩
  · rename_i c cs
    split at h
    · rename_i hletter
      obtain ⟨sign, hcs, hminus⟩ := scanSign_sound cs
      simp only at h
      split at h
      · cases h
      · rename_i hne
        simp only [Prod.mk.injEq] at h
        obtain ⟨rfl, hrest⟩ := h
        refine ⟨some ⟨decide (c = 69), sign, (scanSign cs).2.takeWhile isDigit, hne, takeWhile_digits _⟩, ?_, ?_⟩
        · have hds := List.takeWhile_append_dropWhile (p := isDigit) (l := (scanSign cs).2)
          rw [hrest, List.append_nil] at hds
          have hc : c = if decide (c = 69) then 69 else 101 := by rcases hletter with rfl | rfl <;> rfl
          exact List.cons_eq_cons.2 ⟨hc, hcs.trans (congrArg _ hds.symm)⟩
        · show signed _ _ = signed _ _
          rw [hminus]
    · cases h

/-! ## Numbers -/

theorem FloatLiteral.head?_pointText (f : FloatLiteral) :
    ∀ c ∈ (f.pointText ++ f.exponentText).head?, isDigit c = false ∧ c ≠ 45 ∧ c ≠ 43 := by
  intro c hc
  unfold pointText at hc
  split at hc
  · cases hc
    decide
  · unfold exponentText at hc
    cases he : f.exponent with
    | none =>
      rw [he] at hc
      cases hc
    | some e =>
      rw [he] at hc
      cases hc
      cases e.upper <;> decide

theorem FloatLiteral.scanFraction_text (f : FloatLiteral) :
    scanFraction (f.pointText ++ f.exponentText) = (f.frac, f.exponentText) := by
  unfold pointText
  split
  · have hletter : ∀ c ∈ f.exponentText.head?, isDigit c = false := by
      intro c hc
      unfold exponentText at hc
      cases he : f.exponent with
      | none =>
        rw [he] at hc
        cases hc
      | some e =>
        rw [he] at hc
        cases hc
        cases e.upper <;> rfl
    have hspan := span_append f.frac_all hletter
    exact Prod.ext hspan.1 hspan.2
  · rename_i hpoint
    rw [f.frac_of_point (by simpa using hpoint), List.nil_append]
    unfold exponentText
    cases f.exponent with
    | none => rfl
    | some e =>
      unfold scanFraction
      split
      · rename_i cs hcs
        have hhead := congrArg List.head? hcs
        cases hupper : e.upper <;> simp [Exponent.text, hupper] at hhead
      · rfl

theorem scanFloat_text (f : FloatLiteral) : scanFloat f.text = (some f.value, []) := by
  have htail := f.head?_pointText
  have hspan := span_append f.int_all fun c hc => (htail c hc).1
  have hsign : scanSign f.text = (f.sign.isMinus, f.int ++ (f.pointText ++ f.exponentText)) := by
    refine scanSign_text f.sign fun c hc => ?_
    cases hint : f.int with
    | nil =>
      rw [hint] at hc
      exact (htail c hc).2
    | cons d int =>
      rw [hint] at hc
      cases hc
      exact digit_ne (f.int_all c (hint ▸ List.mem_cons_self))
  unfold scanFloat
  simp only [hsign, hspan, f.scanFraction_text, if_neg f.digits_ne]
  rw [FloatLiteral.exponentText, scanExponent_text]
  rfl

theorem scanFraction_sound (cs : List UInt8) :
    ∃ point : Bool, cs = (if point then 46 :: (scanFraction cs).1 else []) ++ (scanFraction cs).2 ∧
      (∀ c ∈ (scanFraction cs).1, isDigit c = true) ∧ (point = false → (scanFraction cs).1 = []) := by
  unfold scanFraction
  split
  · rename_i cs
    refine ⟨true, ?_, takeWhile_digits cs, fun h => by cases h⟩
    show 46 :: cs = 46 :: (cs.takeWhile isDigit ++ cs.dropWhile isDigit)
    rw [List.takeWhile_append_dropWhile]
  · exact ⟨false, rfl, fun c hc => absurd hc List.not_mem_nil, fun _ => rfl⟩

theorem scanFloat_sound {x : ℚ} (h : scanFloat cs = (some x, [])) :
    ∃ f : FloatLiteral, f.text = cs ∧ f.value = x := by
  obtain ⟨sign, hcs, hminus⟩ := scanSign_sound cs
  obtain ⟨point, hpoint, hfrac, hnil⟩ := scanFraction_sound ((scanSign cs).2.dropWhile isDigit)
  unfold scanFloat at h
  simp only at h
  split at h
  · cases h
  · rename_i hne
    simp only [Prod.mk.injEq, Option.some.injEq] at h
    obtain ⟨hvalue, hrest⟩ := h
    obtain ⟨e, he, hexp⟩ := scanExponent_sound (Prod.ext rfl hrest)
    refine ⟨⟨sign, (scanSign cs).2.takeWhile isDigit, point, _, e, takeWhile_digits _, hfrac, hne, hnil⟩,
      ?_, ?_⟩
    · show sign.text ++ ((scanSign cs).2.takeWhile isDigit ++ (_ ++ (e.map Exponent.text).getD [])) = cs
      rw [← he]
      exact ((congrArg _ (congrArg _ hpoint.symm)).trans
        (congrArg _ List.takeWhile_append_dropWhile)).trans hcs.symm
    · rw [← hvalue]
      show floatValue _ _ _ _ = floatValue _ _ _ _
      rw [hminus, ← hexp]

/-- A text is taken for a number exactly if it is a literal. -/
theorem strtod_eq_some_iff {round : ℚ → Option ℚ} {y : Option ℚ} :
    strtod round cs = some y ↔ ∃ f : FloatLiteral, f.text = cs ∧ round f.value = y := by
  constructor
  · intro h
    unfold strtod at h
    split at h
    · rename_i x hscan
      obtain ⟨f, htext, hvalue⟩ := scanFloat_sound hscan
      exact ⟨f, htext, hvalue ▸ Option.some.inj h⟩
    · cases h
  · rintro ⟨f, rfl, rfl⟩
    rw [strtod, scanFloat_text]

end

end Lib
