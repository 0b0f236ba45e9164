import PPCNN.Cnn.PicojsonGrammar

/-!
# The errors of the JSON parser

The parser touches its input through `getc` and `ungetc` only, so what these two keep holds at every end of
a parse (`Stable`, `parse_ends`). The line of an error counts the newlines before the place where the parser
stopped (`At`).
-/

set_option autoImplicit false

namespace Picojson

open Lib Cnn

/-! ## Invariants of the input -/

structure Stable (P : Input → Prop) : Prop where
  getc : ∀ i, P i → P i.getc.2
  ungetc : ∀ i, P i → P i.ungetc

/-- The input that a parser leaves, with a value or with a syntax error, has the property `P`, and an overflow
has the reason `Q`. -/
def Ends {α : Type} (P : Input → Prop) (Q : Prop) : Except Stop (α × Input) → Prop
  | .ok result => P result.2
  | .error (.syntaxError i) => P i
  | .error .overflowError => Q
  | .error .outOfFuel => True

theorem Ends.bind {α β : Type} {P : Input → Prop} {Q : Prop} {x : Except Stop (α × Input)}
    {f : α × Input → Except Stop (β × Input)} (hx : Ends P Q x) (hf : ∀ a i, P i → Ends P Q (f (a, i))) :
    Ends P Q (x >>= f) := by
  cases x with
  | error e => cases e <;> exact hx
  | ok result => exact hf result.1 result.2 hx

section

variable {P : Input → Prop} {Q : Prop} (hP : Stable P) {i : Input}

include hP

theorem Stable.of_getc {j : Input} {o : Option UInt8} (h : P i) (hj : i.getc = (o, j)) : P j := by
  have hget := hP.getc i h
  rwa [hj] at hget

theorem Stable.scanLoop {p : UInt8 → Bool} {n : ℕ} {out : List UInt8} (h : P i) :
    P (Input.scanLoop p n out i).2 := by
  induction n generalizing out i with
  | zero => exact hP.ungetc _ (hP.getc _ h)
  | succ n ih =>
    unfold Input.scanLoop
    split
    · rename_i c j hj
      split
      · exact ih (hP.of_getc h hj)
      · exact hP.ungetc _ (hP.of_getc h hj)
    · rename_i j hj
      exact hP.ungetc _ (hP.of_getc h hj)

theorem Stable.expect {c : UInt8} (h : P i) : P (i.expect c).2 := by
  have hskip : P i.skipWs := hP.scanLoop h
  unfold Input.expect
  split
  · rename_i d j hj
    split
    · exact hP.of_getc hskip hj
    · exact hP.ungetc _ (hP.of_getc hskip hj)
  · rename_i j hj
    exact hP.ungetc _ (hP.of_getc hskip hj)

theorem Stable.of_expect {c : UInt8} {b : Bool} {j : Input} (h : P i) (hj : i.expect c = (b, j)) : P j := by
  have hexpect := hP.expect (c := c) h
  rwa [hj] at hexpect

theorem Stable.matchText {pattern : List UInt8} {b : Bool} {j : Input} (h : P i)
    (hj : i.matchText pattern = (b, j)) : P j := by
  induction pattern generalizing i with
  | nil =>
    cases hj
    exact h
  | cons p pattern ih =>
    unfold Input.matchText at hj
    split at hj
    · rename_i c k hk
      split at hj
      · exact ih (hP.of_getc h hk) hj
      · cases hj
        exact hP.ungetc _ (hP.of_getc h hk)
    · rename_i k hk
      cases hj
      exact hP.ungetc _ (hP.of_getc h hk)

theorem Stable.quadhex {n u : ℕ} {o : Option ℕ} {j : Input} (h : P i) (hj : quadhexLoop n u i = (o, j)) :
    P j := by
  induction n generalizing u i with
  | zero =>
    cases hj
    exact h
  | succ n ih =>
    unfold quadhexLoop at hj
    split at hj
    · rename_i k hk
      cases hj
      exact hP.of_getc h hk
    · rename_i c k hk
      split at hj
      · exact ih (hP.of_getc h hk) hj
      · cases hj
        exact hP.ungetc _ (hP.of_getc h hk)

theorem Stable.codepoint {out : List UInt8} (h : P i) : Ends P Q (parseCodepoint out i) := by
  unfold parseCodepoint
  split
  · rename_i j hj
    exact hP.quadhex h hj
  · rename_i uniCh j hj
    have hquad := hP.quadhex h hj
    split
    · split
      · exact hquad
      · split
        · rename_i k hk
          exact hP.matchText hquad hk
        · rename_i k hk
          have hmatch := hP.matchText hquad hk
          split
          · rename_i k1 hk1
            exact hP.quadhex hmatch hk1
          · rename_i second k1 hk1
            split
            · exact hP.quadhex hmatch hk1
            · exact hP.quadhex hmatch hk1
    · exact hquad

theorem Stable.stringLoop {n : ℕ} {out : List UInt8} (h : P i) : Ends P Q (parseStringLoop n out i) := by
  induction n generalizing out i with
  | zero => trivial
  | succ n ih =>
    unfold parseStringLoop
    split
    · rename_i j hj
      exact hP.ungetc _ (hP.of_getc h hj)
    · rename_i c j hj
      have hget := hP.of_getc h hj
      split
      · exact hP.ungetc _ hget
      split
      · exact hget
      split
      · split
        · rename_i k hk
          exact hP.of_getc hget hk
        · rename_i d k hk
          have hescape := hP.of_getc hget hk
          split
          · exact ih hescape
          · split
            · exact (hP.codepoint hescape).bind fun _ _ hcode => ih hcode
            · exact hescape
      · exact ih hget

theorem Stable.parseLiteral {text : List UInt8} {v : JsonValue} (h : P i) : Ends P Q (parseLiteral text v i) := by
  unfold Picojson.parseLiteral
  split
  · rename_i j hj
    exact hP.matchText h hj
  · rename_i j hj
    exact hP.matchText h hj

section Number

variable {round : ℚ → Option ℚ}
  (hover : ∀ (i : Input) (f : FloatLiteral) r, P i → i.rest = f.text ++ r →
    (∀ c ∈ r.head?, isNumberChar c = false) → round f.value = none → Q)

include hover

theorem Stable.parseNumber (h : P i) : Ends P Q (parseNumber round i) := by
  have hscan : P (i.scan isNumberChar).2 := hP.scanLoop h
  unfold Picojson.parseNumber
  simp only [Input.scan_fst]
  split
  · exact hscan
  · rename_i hstrtod
    obtain ⟨f, htext, hvalue⟩ := strtod_eq_some_iff.1 hstrtod
    refine hover i f (i.rest.dropWhile isNumberChar) h ?_ (numberChar_dropWhile i.rest) hvalue
    rw [htext, List.takeWhile_append_dropWhile]
  · exact hscan

end Number

section Item

variable {parseItem : Input → Except Stop (JsonValue × Input)} (hitem : ∀ i, P i → Ends P Q (parseItem i))

include hitem

theorem Stable.parseItems {n : ℕ} {values : List JsonValue} (h : P i) :
    Ends P Q (parseItems parseItem n values i) := by
  induction n generalizing values i with
  | zero => trivial
  | succ n ih =>
    refine (hitem i h).bind fun v j hj => ?_
    simp only
    split
    · rename_i k hk
      exact ih (hP.of_expect hj hk)
    · rename_i k hk
      exact hP.of_expect hj hk

theorem Stable.parseArray (h : P i) : Ends P Q (parseArray parseItem i) := by
  unfold Picojson.parseArray
  split
  · rename_i j hj
    exact hP.of_expect h hj
  · rename_i j hj
    refine (hP.parseItems hitem (hP.of_expect h hj)).bind fun values k hk => ?_
    simp only
    split
    · rename_i k1 hk1
      exact hP.of_expect hk hk1
    · rename_i k1 hk1
      exact hP.of_expect hk hk1

theorem Stable.parseMembers {n : ℕ} {o : JsonObject} (h : P i) : Ends P Q (parseMembers parseItem n o i) := by
  induction n generalizing o i with
  | zero => trivial
  | succ n ih =>
    unfold Picojson.parseMembers
    split
    · rename_i j hj
      exact hP.of_expect h hj
    · rename_i j hj
      refine (hP.stringLoop (hP.of_expect h hj)).bind fun key k hk => ?_
      simp only
      split
      · rename_i k1 hk1
        exact hP.of_expect hk hk1
      · rename_i k1 hk1
        refine (hitem k1 (hP.of_expect hk hk1)).bind fun v k2 hk2 => ?_
        simp only
        split
        · rename_i k3 hk3
          exact ih (hP.of_expect hk2 hk3)
        · rename_i k3 hk3
          exact hP.of_expect hk2 hk3

theorem Stable.parseObject (h : P i) : Ends P Q (parseObject parseItem i) := by
  unfold Picojson.parseObject
  split
  · rename_i j hj
    exact hP.of_expect h hj
  · rename_i j hj
    refine (hP.parseMembers hitem (hP.of_expect h hj)).bind fun values k hk => ?_
    simp only
    split
    · rename_i k1 hk1
      exact hP.of_expect hk hk1
    · rename_i k1 hk1
      exact hP.of_expect hk hk1

theorem Stable.parseSwitch {round : ℚ → Option ℚ}
    (hover : ∀ (i : Input) (f : FloatLiteral) r, P i → i.rest = f.text ++ r →
      (∀ c ∈ r.head?, isNumberChar c = false) → round f.value = none → Q)
    {c : UInt8} (h : P i) : Ends P Q (parseSwitch round parseItem c i) := by
  unfold Picojson.parseSwitch
  repeat' split
  · exact hP.parseLiteral h
  · exact hP.parseLiteral h
  · exact hP.parseLiteral h
  · exact (hP.stringLoop h).bind fun _ _ hj => hj
  · exact hP.parseArray hitem h
  · exact hP.parseObject hitem h
  · exact hP.parseNumber hover (hP.ungetc _ h)
  · exact hP.ungetc _ h

end Item

theorem Stable.parseValue {round : ℚ → Option ℚ}
    (hover : ∀ (i : Input) (f : FloatLiteral) r, P i → i.rest = f.text ++ r →
      (∀ c ∈ r.head?, isNumberChar c = false) → round f.value = none → Q)
    {n : ℕ} (h : P i) : Ends P Q (parseValue round n i) := by
  induction n generalizing i with
  | zero => trivial
  | succ n ih =>
    have hskip : P i.skipWs := hP.scanLoop h
    unfold Picojson.parseValue
    split
    · rename_i j hj
      exact hP.ungetc _ (hP.of_getc hskip hj)
    · rename_i c j hj
      exact hP.parseSwitch (fun _ => ih) hover (hP.of_getc hskip hj)

end

/-! ## The line -/

/-- The line behind a text, an `int`. -/
def lineAfter (pre : List UInt8) : ℤ := Int.bmod (1 + pre.count newline) (2 ^ 32)

/-- The input is at a place of the text, and its line counts the newlines before. -/
def At (s : List UInt8) (i : Input) : Prop := ∃ pre, s = pre ++ i.cur ∧ i.line = lineAfter pre

theorem lineAfter_append_newline (pre : List UInt8) :
    lineAfter (pre ++ [newline]) = Int.bmod (lineAfter pre + 1) (2 ^ 32) := by
  have hcount : (pre ++ [newline]).count newline = pre.count newline + 1 := by
    rw [List.count_append, List.count_singleton_self]
  unfold lineAfter
  rw [hcount, Int.bmod_add_bmod]
  push_cast
  rw [add_assoc]

theorem lineAfter_append_other (pre : List UInt8) {c : UInt8} (hc : c ≠ newline) :
    lineAfter (pre ++ [c]) = lineAfter pre := by
  have hcount : (pre ++ [c]).count newline = pre.count newline := by
    rw [List.count_append, List.count_eq_zero.2 fun h => hc (List.mem_singleton.1 h).symm, add_zero]
  unfold lineAfter
  rw [hcount]

theorem getc_snd (i : Input) : i.getc.2.cur = i.advance.cur ∧ i.getc.2.line = i.advance.line := by
  unfold Input.getc
  split
  · rename_i hcur
    exact ⟨hcur.symm, rfl⟩
  · rename_i c cs hcur
    exact ⟨hcur.symm, rfl⟩

theorem stable_at (s : List UInt8) : Stable (At s) where
  getc i h := by
    obtain ⟨pre, hs, hline⟩ := h
    obtain ⟨hcur, hline'⟩ := getc_snd i
    rw [At, hcur, hline']
    unfold Input.advance
    split
    · rename_i hconsumed
      show ∃ pre, s = pre ++ i.cur.tail ∧
        (if i.cur.head? = some newline then Int.bmod (i.line + 1) (2 ^ 32) else i.line) = lineAfter pre
      cases hi : i.cur with
      | nil => exact absurd hi (i.cur_ne hconsumed)
      | cons c cs =>
        refine ⟨pre ++ [c], by rw [hs, hi, List.append_assoc]; rfl, ?_⟩
        simp only [List.head?_cons, Option.some.injEq]
        split
        · rename_i hc
          rw [hc, lineAfter_append_newline, hline]
        · rename_i hc
          rw [lineAfter_append_other pre hc, hline]
    · exact ⟨pre, hs, hline⟩
  ungetc i h := h

/-- What is left is the end of the text. -/
theorem At.rest_suffix {s : List UInt8} {i : Input} (h : At s i) : ∃ pre, s = pre ++ i.rest := by
  obtain ⟨pre, hs, -⟩ := h
  by_cases hconsumed : i.consumed = true
  · cases hi : i.cur with
    | nil => exact absurd hi (i.cur_ne hconsumed)
    | cons c cs => exact ⟨pre ++ [c], by rw [hs, Input.rest, if_pos hconsumed, hi]; simp⟩
  · exact ⟨pre, by rw [hs, Input.rest, if_neg hconsumed]⟩

/-- How a parse ends: at a place of the text, or at one of its numbers, which is not finite. -/
theorem parse_ends (round : ℚ → Option ℚ) (s : List UInt8) :
    Ends (At s) (∃ (pre : List UInt8) (f : FloatLiteral) (r : List UInt8), s = pre ++ (f.text ++ r) ∧ (∀ c ∈ r.head?, isNumberChar c = false) ∧
      round f.value = none) (Picojson.parse round s) := by
  refine (stable_at s).parseValue (fun i f r hi hrest hr hvalue => ?_) ⟨[], rfl, rfl⟩
  obtain ⟨pre, hs⟩ := hi.rest_suffix
  exact ⟨pre, f, r, hrest ▸ hs, hr, hvalue⟩

/-! ## The text of the error -/

/-- The characters of the first line, without control characters. -/
def visibleLine (s : List UInt8) : List UInt8 := (s.takeWhile (· ≠ newline)).filter (32 ≤ ·)

theorem restOfLine_eq (n : ℕ) (i : Input) (h : i.rest.length ≤ n) : restOfLine n i = visibleLine i.rest := by
  induction n generalizing i with
  | zero =>
    rw [List.eq_nil_of_length_eq_zero (Nat.le_zero.1 h)]
    rfl
  | succ n ih =>
    unfold restOfLine
    split
    · rename_i j hj
      rw [(Input.rest_of_getc_none hj).1]
      rfl
    · rename_i c j hj
      have hrest := (Input.rest_of_getc_some hj).1
      rw [hrest, List.length_cons] at h
      have hj := ih j (by omega)
      rw [hrest]
      unfold visibleLine at hj ⊢
      split
      · rename_i hc
        simp [hc]
      · rename_i hc
        rw [List.takeWhile_cons_of_pos (by simpa using hc), hj]
        split
        · rename_i hvisible
          rw [List.filter_cons_of_pos (by simpa using hvisible)]
        · rename_i hvisible
          rw [List.filter_cons_of_neg (by simpa using hvisible)]

theorem errorText_eq (i : Input) : errorText i =
    bytesOf "syntax error at line " ++ decimalInt i.line ++ bytesOf " near: " ++ visibleLine i.rest := by
  rw [errorText, restOfLine_eq _ _ (Nat.le_refl _)]

end Picojson
