import PPCNN.Cnn.Picojson
import Mathlib.Data.List.DropRight

/-!
# What the JSON parser accepts

`Derives form s r`: the text `s` starts with the form, and `r` follows it. The parser returns a value
exactly if the text derives it, and stops where the derivation stops (`parse_ok_iff`). Numbers are the
literals of `strtod` that start with a digit or a minus, taken as long as possible; a later member of
an object replaces an earlier one with the same key; what follows the value is not looked at.
-/

set_option autoImplicit false

namespace Picojson

open Lib Cnn

/-! ## The grammar -/

def IsWs (w : List UInt8) : Prop := ∀ c ∈ w, isWs c = true

/-- The number of a text of hexadecimal digits behind others. -/
def hexFrom : ℕ → List UInt8 → Option ℕ
  | uniCh, [] => some uniCh
  | uniCh, c :: h => (hexValue c).bind fun hex => hexFrom (uniCh * 16 + hex) h

structure Quadhex (h : List UInt8) (uniCh : ℕ) : Prop where
  length_eq : h.length = 4
  value_eq : hexFrom 0 h = some uniCh

/-- What follows `\u` in a string. -/
inductive Codepoint : List UInt8 → List UInt8 → Prop where
  | single {h : List UInt8} {uniCh : ℕ} : Quadhex h uniCh → ¬(0xd800 ≤ uniCh ∧ uniCh ≤ 0xdfff) →
    Codepoint h (utf8 uniCh)
  | pair {h h' : List UInt8} {first second : ℕ} : Quadhex h first → 0xd800 ≤ first → first < 0xdc00 →
    Quadhex h' second → 0xdc00 ≤ second → second ≤ 0xdfff →
    Codepoint (h ++ ([backslash, letterU] ++ h')) (utf8 (surrogatePair first second))

/-- A text between quotes, and the bytes it stands for. -/
inductive StringText : List UInt8 → List UInt8 → Prop where
  | nil : StringText [] []
  | plain {c : UInt8} {t bytes : List UInt8} : ¬c < 32 → c ≠ quote → c ≠ backslash → StringText t bytes →
    StringText (c :: t) (c :: bytes)
  | escape {c value : UInt8} {t bytes : List UInt8} : escapeValue c = some value → StringText t bytes →
    StringText (backslash :: c :: t) (value :: bytes)
  | codepoint {u t value bytes : List UInt8} : Codepoint u value → StringText t bytes →
    StringText (backslash :: letterU :: (u ++ t)) (value ++ bytes)

/-- What a text can be derived as: a value, the items of an array, or the members of an object. -/
inductive Form where
  | value (v : JsonValue)
  | items (values : List JsonValue)
  | members (entries : List (String × JsonValue))

/-- The members one after the other, in the order of the text. -/
def assignAll (o : JsonObject) (entries : List (String × JsonValue)) : JsonObject :=
  entries.foldl (fun o e => assign o e.1 e.2) o

inductive Derives (round : ℚ → Option ℚ) : Form → List UInt8 → List UInt8 → Prop where
  | null {r : List UInt8} : Derives round (.value .null) (bytesOf "null" ++ r) r
  | boolFalse {r : List UInt8} : Derives round (.value (.boolean false)) (bytesOf "false" ++ r) r
  | boolTrue {r : List UInt8} : Derives round (.value (.boolean true)) (bytesOf "true" ++ r) r
  | string {t bytes r : List UInt8} : StringText t bytes →
    Derives round (.value (.string (byteString bytes))) (quote :: (t ++ quote :: r)) r
  | number {f : FloatLiteral} {x : ℚ} {r : List UInt8} : (∀ c ∈ f.text.head?, startsNumber c = true) →
    round f.value = some x → (∀ c ∈ r.head?, isNumberChar c = false) →
    Derives round (.value (.number x)) (f.text ++ r) r
  | emptyArray {w r : List UInt8} : IsWs w →
    Derives round (.value (.array [])) (openBracket :: (w ++ closeBracket :: r)) r
  | array {s w r : List UInt8} {values : List JsonValue} :
    Derives round (.items values) s (w ++ closeBracket :: r) → IsWs w →
    Derives round (.value (.array values)) (openBracket :: s) r
  | emptyObject {w r : List UInt8} : IsWs w →
    Derives round (.value (.object [])) (openBrace :: (w ++ closeBrace :: r)) r
  | object {s w r : List UInt8} {entries : List (String × JsonValue)} :
    Derives round (.members entries) s (w ++ closeBrace :: r) → IsWs w →
    Derives round (.value (.object (assignAll [] entries))) (openBrace :: s) r
  | lastItem {w s r : List UInt8} {v : JsonValue} : IsWs w → Derives round (.value v) s r →
    Derives round (.items [v]) (w ++ s) r
  | item {w s w' s' r : List UInt8} {v : JsonValue} {values : List JsonValue} : IsWs w →
    Derives round (.value v) s (w' ++ comma :: s') → IsWs w' → Derives round (.items values) s' r →
    Derives round (.items (v :: values)) (w ++ s) r
  | lastMember {w t bytes w' w'' s r : List UInt8} {v : JsonValue} : IsWs w → StringText t bytes →
    IsWs w' → IsWs w'' → Derives round (.value v) s r →
    Derives round (.members [(byteString bytes, v)]) (w ++ quote :: (t ++ quote :: (w' ++ colon :: (w'' ++ s)))) r
  | member {w t bytes w' w'' s w3 s' r : List UInt8} {v : JsonValue}
    {entries : List (String × JsonValue)} : IsWs w → StringText t bytes → IsWs w' → IsWs w'' →
    Derives round (.value v) s (w3 ++ comma :: s') → IsWs w3 → Derives round (.members entries) s' r →
    Derives round (.members ((byteString bytes, v) :: entries))
      (w ++ quote :: (t ++ quote :: (w' ++ colon :: (w'' ++ s)))) r

/-- The text is the value behind space, with `r` after it. -/
def Denotes (round : ℚ → Option ℚ) (s : List UInt8) (v : JsonValue) (r : List UInt8) : Prop :=
  ∃ w s', IsWs w ∧ s = w ++ s' ∧ Derives round (.value v) s' r

/-! ## Characters between the tokens -/

section

variable {i j : Input} {w r : List UInt8} {c : UInt8}

theorem isWs_takeWhile (s : List UInt8) : IsWs (s.takeWhile isWs) :=
  fun c hc => List.all_eq_true.1 List.all_takeWhile c hc

theorem dropWhile_ws (hw : IsWs w) (hr : ∀ c ∈ r.head?, isWs c = false) :
    (w ++ r).dropWhile isWs = r := by
  rw [List.dropWhile_append_of_pos hw]
  cases r with
  | nil => rfl
  | cons c r => exact List.dropWhile_cons_of_neg (by simp [hr c rfl])

theorem expect_true (h : i.expect c = (true, j)) : ∃ w, IsWs w ∧ i.rest = w ++ c :: j.rest := by
  unfold Input.expect at h
  split at h
  · rename_i d k hk
    split at h
    · rename_i hd
      cases h
      obtain ⟨hrest, -⟩ := Input.rest_of_getc_some hk
      rw [Input.rest_skipWs] at hrest
      refine ⟨i.rest.takeWhile isWs, isWs_takeWhile _, ?_⟩
      rw [← hd, ← hrest, List.takeWhile_append_dropWhile]
    · cases h
  · cases h

/-- When the character is not there, the space before is gone. -/
theorem expect_false (h : i.expect c = (false, j)) : ∃ w, IsWs w ∧ i.rest = w ++ j.rest := by
  have hdrop : j.rest = i.rest.dropWhile isWs := by
    unfold Input.expect at h
    split at h
    · rename_i d k hk
      obtain ⟨hrest, hcur⟩ := Input.rest_of_getc_some hk
      rw [Input.rest_skipWs] at hrest
      split at h
      · cases h
      · cases h
        rw [Input.rest_ungetc, hcur, hrest]
    · rename_i k hk
      obtain ⟨hrest, hcur⟩ := Input.rest_of_getc_none hk
      rw [Input.rest_skipWs] at hrest
      cases h
      rw [Input.rest_ungetc, hcur, hrest]
  refine ⟨i.rest.takeWhile isWs, isWs_takeWhile _, ?_⟩
  rw [hdrop, List.takeWhile_append_dropWhile]

theorem expect_hit (h : i.rest.dropWhile isWs = c :: r) : ∃ j, i.expect c = (true, j) ∧ j.rest = r := by
  rw [← Input.rest_skipWs] at h
  obtain ⟨j, hj, hjrest, -⟩ := Input.getc_of_cons h
  refine ⟨j, ?_, hjrest⟩
  unfold Input.expect
  rw [hj]
  exact if_pos rfl

theorem expect_miss (h : i.rest.dropWhile isWs = r) (hr : ∀ d ∈ r.head?, d ≠ c) :
    ∃ j, i.expect c = (false, j) ∧ j.rest = r := by
  rw [← Input.rest_skipWs] at h
  unfold Input.expect
  cases r with
  | nil =>
    obtain ⟨j, hj, -⟩ := Input.getc_of_nil h
    refine ⟨j.ungetc, ?_, (Input.rest_of_getc_none hj).2⟩
    rw [hj]
  | cons d r =>
    obtain ⟨j, hj, -, hcur⟩ := Input.getc_of_cons h
    refine ⟨j.ungetc, ?_, hcur⟩
    rw [hj]
    exact if_neg (hr d rfl)

theorem matchText_true {pattern : List UInt8} (h : i.matchText pattern = (true, j)) :
    i.rest = pattern ++ j.rest := by
  induction pattern generalizing i with
  | nil =>
    cases h
    rfl
  | cons p pattern ih =>
    unfold Input.matchText at h
    split at h
    · rename_i c k hk
      split at h
      · rename_i hc
        rw [(Input.rest_of_getc_some hk).1, ih h, hc]
        rfl
      · cases h
    · cases h

theorem matchText_of_rest {pattern : List UInt8} (h : i.rest = pattern ++ r) :
    ∃ j, i.matchText pattern = (true, j) ∧ j.rest = r := by
  induction pattern generalizing i with
  | nil => exact ⟨i, rfl, h⟩
  | cons p pattern ih =>
    obtain ⟨k, hk, hkrest, -⟩ := Input.getc_of_cons h
    obtain ⟨j, hj, hjrest⟩ := ih hkrest
    refine ⟨j, ?_, hjrest⟩
    unfold Input.matchText
    rw [hk]
    exact (if_pos rfl).trans hj

/-! ## Strings -/

theorem quadhexLoop_some {n u uniCh : ℕ} (h : quadhexLoop n u i = (some uniCh, j)) :
    ∃ t : List UInt8, t.length = n ∧ hexFrom u t = some uniCh ∧ i.rest = t ++ j.rest := by
  induction n generalizing u i with
  | zero =>
    cases h
    exact ⟨[], rfl, rfl, rfl⟩
  | succ n ih =>
    unfold quadhexLoop at h
    split at h
    · cases h
    · rename_i c k hk
      split at h
      · rename_i hex hhex
        obtain ⟨t, hlength, hvalue, hrest⟩ := ih h
        refine ⟨c :: t, by rw [List.length_cons, hlength], ?_, ?_⟩
        · rw [hexFrom, hhex]
          exact hvalue
        · rw [(Input.rest_of_getc_some hk).1, hrest]
          rfl
      · cases h

theorem quadhexLoop_of_rest {t : List UInt8} {u uniCh : ℕ} (ht : hexFrom u t = some uniCh)
    (h : i.rest = t ++ r) : ∃ j, quadhexLoop t.length u i = (some uniCh, j) ∧ j.rest = r := by
  induction t generalizing u i with
  | nil =>
    cases ht
    exact ⟨i, rfl, h⟩
  | cons c t ih =>
    obtain ⟨hex, hhex, ht⟩ := Option.bind_eq_some_iff.1 ht
    obtain ⟨k, hk, hkrest, -⟩ := Input.getc_of_cons h
    obtain ⟨j, hj, hjrest⟩ := ih ht hkrest
    refine ⟨j, ?_, hjrest⟩
    rw [List.length_cons, quadhexLoop, hk]
    simp only [hhex]
    exact hj

theorem parseQuadhex_some {uniCh : ℕ} (h : parseQuadhex i = (some uniCh, j)) :
    ∃ t, Quadhex t uniCh ∧ i.rest = t ++ j.rest := by
  obtain ⟨t, hlength, hvalue, hrest⟩ := quadhexLoop_some h
  exact ⟨t, ⟨hlength, hvalue⟩, hrest⟩

theorem Quadhex.parse {t : List UInt8} {uniCh : ℕ} (ht : Quadhex t uniCh) (h : i.rest = t ++ r) :
    ∃ j, parseQuadhex i = (some uniCh, j) ∧ j.rest = r := by
  have hparse := quadhexLoop_of_rest ht.value_eq h
  rwa [ht.length_eq] at hparse

theorem parseCodepoint_ok {out out' : List UInt8} (h : parseCodepoint out i = .ok (out', j)) :
    ∃ u value, Codepoint u value ∧ i.rest = u ++ j.rest ∧ out' = out ++ value := by
  unfold parseCodepoint at h
  split at h
  · cases h
  · rename_i uniCh k hk
    obtain ⟨t, ht, hrest⟩ := parseQuadhex_some hk
    split at h
    · rename_i hsurrogate
      split at h
      · cases h
      · rename_i hfirst
        split at h
        · cases h
        · rename_i k' hmatch
          split at h
          · cases h
          · rename_i second k'' hk''
            obtain ⟨t', ht', hrest'⟩ := parseQuadhex_some hk''
            split at h
            · rename_i hsecond
              cases h
              refine ⟨_, _, .pair ht hsurrogate.1 (Nat.not_le.1 hfirst) ht' hsecond.1 hsecond.2, ?_, rfl⟩
              rw [hrest, matchText_true hmatch, hrest']
              simp
            · cases h
    · rename_i hsingle
      cases h
      exact ⟨t, _, .single ht hsingle, hrest, rfl⟩

theorem Codepoint.parse {u value : List UInt8} (hu : Codepoint u value) (out : List UInt8)
    (h : i.rest = u ++ r) : ∃ j, parseCodepoint out i = .ok (out ++ value, j) ∧ j.rest = r := by
  cases hu with
  | single ht hsingle =>
    obtain ⟨j, hj, hjrest⟩ := ht.parse h
    refine ⟨j, ?_, hjrest⟩
    unfold parseCodepoint
    rw [hj]
    exact if_neg hsingle
  | @pair t t' first second ht hlow hfirst ht' hsecond hhigh =>
    have hsurrogate : 0xd800 ≤ first ∧ first ≤ 0xdfff := ⟨hlow, by omega⟩
    rw [List.append_assoc, List.append_assoc] at h
    obtain ⟨k, hk, hkrest⟩ := ht.parse h
    obtain ⟨k', hk', hkrest'⟩ := matchText_of_rest hkrest
    obtain ⟨j, hj, hjrest⟩ := ht'.parse hkrest'
    refine ⟨j, ?_, hjrest⟩
    unfold parseCodepoint
    simp only [hk, hk', hj, if_pos hsurrogate, if_neg (Nat.not_le.2 hfirst),
      if_pos (And.intro hsecond hhigh)]

theorem parseCodepoint_fuel {out : List UInt8} : parseCodepoint out i ≠ .error .outOfFuel := by
  unfold parseCodepoint
  repeat' split
  all_goals nofun

theorem backslash_control : (backslash < 32) = False := by decide
theorem backslash_quote : (backslash = quote) = False := by decide
theorem escapeValue_letterU : escapeValue letterU = none := by decide

theorem parseStringLoop_ok {n : ℕ} {out out' : List UInt8} (h : parseStringLoop n out i = .ok (out', j)) :
    ∃ t bytes, StringText t bytes ∧ i.rest = t ++ quote :: j.rest ∧ out' = out ++ bytes := by
  induction n generalizing out i with
  | zero => cases h
  | succ n ih =>
    unfold parseStringLoop at h
    split at h
    · cases h
    · rename_i c k hk
      have hrest := (Input.rest_of_getc_some hk).1
      split at h
      · cases h
      · rename_i hcontrol
        split at h
        · rename_i hquote
          cases h
          refine ⟨[], [], .nil, ?_, (List.append_nil out').symm⟩
          rw [hrest, hquote]
          rfl
        · rename_i hquote
          split at h
          · rename_i hbackslash
            split at h
            · cases h
            · rename_i d k' hk'
              have hrest' := (Input.rest_of_getc_some hk').1
              split at h
              · rename_i value hvalue
                obtain ⟨t, bytes, ht, htrest, hout⟩ := ih h
                refine ⟨backslash :: d :: t, value :: bytes, .escape hvalue ht, ?_, ?_⟩
                · rw [hrest, hbackslash, hrest', htrest]
                  rfl
                · rw [hout, List.append_assoc]
                  rfl
              · split at h
                · rename_i hletter
                  obtain ⟨⟨out1, k1⟩, hcode, h⟩ := bind_eq_ok.1 h
                  obtain ⟨u, value, hu, hurest, hout1⟩ := parseCodepoint_ok hcode
                  obtain ⟨t, bytes, ht, htrest, hout⟩ := ih h
                  refine ⟨backslash :: letterU :: (u ++ t), value ++ bytes, .codepoint hu ht, ?_, ?_⟩
                  · rw [hrest, hbackslash, hrest', hletter, hurest, htrest]
                    simp
                  · rw [hout, hout1, List.append_assoc]
                · cases h
          · rename_i hbackslash
            obtain ⟨t, bytes, ht, htrest, hout⟩ := ih h
            refine ⟨c :: t, c :: bytes, .plain hcontrol hquote hbackslash ht, ?_, ?_⟩
            · rw [hrest, htrest]
              rfl
            · rw [hout, List.append_assoc]
              rfl

theorem StringText.parseLoop {t bytes : List UInt8} (ht : StringText t bytes) {n : ℕ} {out : List UInt8}
    (h : i.rest = t ++ quote :: r) (hn : t.length < n) :
    ∃ j, parseStringLoop n out i = .ok (out ++ bytes, j) ∧ j.rest = r := by
  induction ht generalizing n out i with
  | nil =>
    obtain ⟨j, hj, hjrest, -⟩ := Input.getc_of_cons h
    cases n with
    | zero => cases hn
    | succ n =>
      refine ⟨j, ?_, hjrest⟩
      rw [parseStringLoop, hj, List.append_nil]
      rfl
  | plain hcontrol hquote hbackslash ht ih =>
    obtain ⟨k, hk, hkrest, -⟩ := Input.getc_of_cons h
    cases n with
    | zero => cases hn
    | succ n =>
      obtain ⟨j, hj, hjrest⟩ := ih hkrest (Nat.lt_of_succ_lt_succ hn)
      refine ⟨j, ?_, hjrest⟩
      rw [parseStringLoop, hk]
      simp only [if_neg hcontrol, if_neg hquote, if_neg hbackslash]
      rw [hj, List.append_assoc]
      rfl
  | @escape c value t bytes hvalue ht ih =>
    obtain ⟨k, hk, hkrest, -⟩ := Input.getc_of_cons h
    obtain ⟨k', hk', hkrest', -⟩ := Input.getc_of_cons hkrest
    cases n with
    | zero => cases hn
    | succ n =>
      simp only [List.length_cons] at hn
      have hlt : t.length < n := by omega
      obtain ⟨j, hj, hjrest⟩ := ih hkrest' hlt
      refine ⟨j, ?_, hjrest⟩
      rw [parseStringLoop, hk]
      simp only [backslash_control, backslash_quote, if_false, if_true, hk', hvalue]
      rw [hj, List.append_assoc]
      rfl
  | @codepoint u t value bytes hu ht ih =>
    rw [List.cons_append, List.cons_append, List.append_assoc] at h
    obtain ⟨k, hk, hkrest, -⟩ := Input.getc_of_cons h
    obtain ⟨k', hk', hkrest', -⟩ := Input.getc_of_cons hkrest
    obtain ⟨k1, hk1, hk1rest⟩ := hu.parse out hkrest'
    cases n with
    | zero => cases hn
    | succ n =>
      simp only [List.length_cons, List.length_append] at hn
      have hlt : t.length < n := by omega
      obtain ⟨j, hj, hjrest⟩ := ih hk1rest hlt
      refine ⟨j, ?_, hjrest⟩
      rw [parseStringLoop, hk]
      simp only [backslash_control, backslash_quote, if_false, if_true, hk', escapeValue_letterU, hk1,
        ok_bind]
      rw [hj, List.append_assoc]

theorem parseStringLoop_fuel {n : ℕ} {out : List UInt8} (hn : i.rest.length < n) :
    parseStringLoop n out i ≠ .error .outOfFuel := by
  induction n generalizing out i with
  | zero => cases hn
  | succ n ih =>
    unfold parseStringLoop
    split
    · nofun
    · rename_i c k hk
      rw [(Input.rest_of_getc_some hk).1, List.length_cons] at hn
      split
      · nofun
      · split
        · nofun
        · split
          · split
            · nofun
            · rename_i d k' hk'
              rw [(Input.rest_of_getc_some hk').1, List.length_cons] at hn
              split
              · exact ih (by omega)
              · split
                · intro h
                  cases hcode : parseCodepoint out k' with
                  | error e =>
                    rw [hcode] at h
                    cases h
                    exact parseCodepoint_fuel hcode
                  | ok result =>
                    obtain ⟨out1, k1⟩ := result
                    obtain ⟨u, value, -, hrest, -⟩ := parseCodepoint_ok hcode
                    rw [hrest, List.length_append] at hn
                    rw [hcode] at h
                    exact ih (by omega) h
                · nofun
          · exact ih (by omega)

/-- A string ends at its first quote that no backslash escapes. -/
theorem parseString_ok {bytes : List UInt8} (h : parseString i = .ok (bytes, j)) :
    ∃ t, StringText t bytes ∧ i.rest = t ++ quote :: j.rest := by
  obtain ⟨t, bytes', ht, hrest, rfl⟩ := parseStringLoop_ok h
  exact ⟨t, ht, hrest⟩

theorem StringText.parse {t bytes : List UInt8} (ht : StringText t bytes) (h : i.rest = t ++ quote :: r) :
    ∃ j, parseString i = .ok (bytes, j) ∧ j.rest = r := by
  refine ht.parseLoop h ?_
  rw [h, List.length_append]
  omega

theorem parseString_fuel (i : Input) : parseString i ≠ .error .outOfFuel :=
  parseStringLoop_fuel (Nat.lt_succ_self _)

/-! ## Numbers -/

theorem isNumberChar_of_digit (h : isDigit c = true) : isNumberChar c = true := by
  simp [isNumberChar, h]

theorem isNumberChar_sign (sign : Sign) : ∀ c ∈ sign.text, isNumberChar c = true := by
  intro c hc
  cases sign with
  | absent => exact absurd hc List.not_mem_nil
  | plus | minus =>
    rw [List.mem_singleton.1 hc]
    decide

theorem isNumberChar_literal (f : FloatLiteral) : ∀ c ∈ f.text, isNumberChar c = true := by
  have hpoint : ∀ c ∈ f.pointText, isNumberChar c = true := by
    unfold FloatLiteral.pointText
    split
    · exact List.forall_mem_cons.2 ⟨by decide, fun c hc => isNumberChar_of_digit (f.frac_all c hc)⟩
    · exact fun c hc => absurd hc List.not_mem_nil
  have hexponent : ∀ c ∈ f.exponentText, isNumberChar c = true := by
    unfold FloatLiteral.exponentText
    cases f.exponent with
    | none => exact fun c hc => absurd hc List.not_mem_nil
    | some e =>
      refine List.forall_mem_cons.2 ⟨by cases e.upper <;> decide, ?_⟩
      exact List.forall_mem_append.2
        ⟨isNumberChar_sign e.sign, fun c hc => isNumberChar_of_digit (e.digits_all c hc)⟩
  have hint : ∀ c ∈ f.int, isNumberChar c = true := fun c hc => isNumberChar_of_digit (f.int_all c hc)
  exact List.forall_mem_append.2 ⟨isNumberChar_sign f.sign, List.forall_mem_append.2
    ⟨hint, List.forall_mem_append.2 ⟨hpoint, hexponent⟩⟩⟩

theorem text_ne_nil (f : FloatLiteral) : f.text ≠ [] := by
  intro h
  obtain ⟨-, h⟩ := List.append_eq_nil_iff.1 h
  obtain ⟨hint, h⟩ := List.append_eq_nil_iff.1 h
  obtain ⟨hpoint, -⟩ := List.append_eq_nil_iff.1 h
  unfold FloatLiteral.pointText at hpoint
  split at hpoint
  · cases hpoint
  · rename_i hfalse
    exact f.digits_ne (by rw [hint, f.frac_of_point (by simpa using hfalse)]; rfl)

variable {round : ℚ → Option ℚ}

/-- A number is taken as long as possible. -/
theorem numberChar_dropWhile (s : List UInt8) :
    ∀ c ∈ (s.dropWhile isNumberChar).head?, isNumberChar c = false := by
  intro c hc
  have hnot := List.head?_dropWhile_not isNumberChar s
  rw [hc] at hnot
  simpa using hnot

theorem parseNumber_ok {v : JsonValue} (h : parseNumber round i = .ok (v, j)) :
    ∃ (f : FloatLiteral) (x : ℚ), v = .number x ∧ i.rest = f.text ++ j.rest ∧ round f.value = some x ∧
      ∀ c ∈ j.rest.head?, isNumberChar c = false := by
  unfold parseNumber at h
  simp only [Input.scan_fst] at h
  split at h
  · rename_i x hstrtod
    cases h
    obtain ⟨f, htext, hvalue⟩ := strtod_eq_some_iff.1 hstrtod
    refine ⟨f, x, rfl, ?_, hvalue, ?_⟩
    · rw [htext, Input.rest_scan, List.takeWhile_append_dropWhile]
    · rw [Input.rest_scan]
      exact numberChar_dropWhile i.rest
  · cases h
  · cases h

theorem parseNumber_of_rest {f : FloatLiteral} {x : ℚ} (hx : round f.value = some x)
    (hr : ∀ c ∈ r.head?, isNumberChar c = false) (h : i.rest = f.text ++ r) :
    ∃ j, parseNumber round i = .ok (.number x, j) ∧ j.rest = r := by
  obtain ⟨htake, hdrop⟩ := TextIn.span_append (isNumberChar_literal f) hr
  rw [← h] at htake hdrop
  refine ⟨(i.scan isNumberChar).2, ?_, ?_⟩
  · have hstrtod : strtod round (i.scan isNumberChar).1 = some (some x) := by
      rw [Input.scan_fst, htake, strtod_eq_some_iff]
      exact ⟨f, rfl, hx⟩
    unfold parseNumber
    simp only [hstrtod]
  · rw [Input.rest_scan, hdrop]

/-! ## Arrays and objects -/

theorem IsWs.append {w' : List UInt8} (hw : IsWs w) (hw' : IsWs w') : IsWs (w ++ w') :=
  List.forall_mem_append.2 ⟨hw, hw'⟩

theorem Derives.items_ws {values : List JsonValue} {s : List UInt8} (h : Derives round (.items values) s r)
    (hw : IsWs w) : Derives round (.items values) (w ++ s) r := by
  cases h with
  | lastItem hw' hv =>
    rw [← List.append_assoc]
    exact .lastItem (hw.append hw') hv
  | item hw' hv hcomma hvalues =>
    rw [← List.append_assoc]
    exact .item (hw.append hw') hv hcomma hvalues

theorem Derives.members_ws {entries : List (String × JsonValue)} {s : List UInt8}
    (h : Derives round (.members entries) s r) (hw : IsWs w) :
    Derives round (.members entries) (w ++ s) r := by
  cases h with
  | lastMember hw' ht hcolon hvalue hv =>
    rw [← List.append_assoc]
    exact .lastMember (hw.append hw') ht hcolon hvalue hv
  | member hw' ht hcolon hvalue hv hcomma hentries =>
    rw [← List.append_assoc]
    exact .member (hw.append hw') ht hcolon hvalue hv hcomma hentries

section Sound

variable {parseItem : Input → Except Stop (JsonValue × Input)}
  (hitem : ∀ i v j, parseItem i = .ok (v, j) → Denotes round i.rest v j.rest)

include hitem

theorem parseItems_ok {n : ℕ} {values values' : List JsonValue}
    (h : parseItems parseItem n values i = .ok (values', j)) :
    ∃ items w, values' = values ++ items ∧ IsWs w ∧ Derives round (.items items) i.rest (w ++ j.rest) := by
  induction n generalizing values i with
  | zero => cases h
  | succ n ih =>
    obtain ⟨⟨v, k⟩, hv, h⟩ := bind_eq_ok.1 h
    obtain ⟨w, s, hw, hrest, hderives⟩ := hitem i v k hv
    rw [hrest]
    simp only at h
    split at h
    · rename_i k' hcomma
      obtain ⟨w', hw', hrest'⟩ := expect_true hcomma
      obtain ⟨items, w1, rfl, hw1, hitems⟩ := ih h
      refine ⟨v :: items, w1, by simp, hw1, ?_⟩
      exact .item hw (hrest' ▸ hderives) hw' hitems
    · rename_i k' hcomma
      obtain ⟨w', hw', hrest'⟩ := expect_false hcomma
      cases h
      exact ⟨[v], w', rfl, hw', .lastItem hw (hrest' ▸ hderives)⟩

theorem parseArray_ok {v : JsonValue} (h : parseArray parseItem i = .ok (v, j)) :
    Derives round (.value v) (openBracket :: i.rest) j.rest := by
  unfold parseArray at h
  split at h
  · rename_i k hclose
    obtain ⟨w, hw, hrest⟩ := expect_true hclose
    cases h
    rw [hrest]
    exact .emptyArray hw
  · rename_i k hclose
    obtain ⟨w, hw, hrest⟩ := expect_false hclose
    obtain ⟨⟨values, k1⟩, hvalues, h⟩ := bind_eq_ok.1 h
    obtain ⟨items, w1, rfl, hw1, hitems⟩ := parseItems_ok hitem hvalues
    simp only at h
    split at h
    · rename_i k2 hclose2
      obtain ⟨w2, hw2, hrest2⟩ := expect_true hclose2
      cases h
      rw [hrest2, ← List.append_assoc] at hitems
      rw [hrest]
      exact .array (hitems.items_ws hw) (hw1.append hw2)
    · cases h

theorem parseMembers_ok {n : ℕ} {o o' : JsonObject} (h : parseMembers parseItem n o i = .ok (o', j)) :
    ∃ entries w, o' = assignAll o entries ∧ IsWs w ∧
      Derives round (.members entries) i.rest (w ++ j.rest) := by
  induction n generalizing o i with
  | zero => cases h
  | succ n ih =>
    unfold parseMembers at h
    split at h
    · cases h
    · rename_i k hquote
      obtain ⟨w, hw, hrest⟩ := expect_true hquote
      obtain ⟨⟨key, k1⟩, hkey, h⟩ := bind_eq_ok.1 h
      obtain ⟨t, ht, hrest1⟩ := parseString_ok hkey
      simp only at h
      split at h
      · cases h
      · rename_i k2 hcolon
        obtain ⟨w2, hw2, hrest2⟩ := expect_true hcolon
        obtain ⟨⟨v, k3⟩, hv, h⟩ := bind_eq_ok.1 h
        obtain ⟨w3, s, hw3, hrest3, hderives⟩ := hitem k2 v k3 hv
        rw [hrest, hrest1, hrest2, hrest3]
        simp only at h
        split at h
        · rename_i k4 hcomma
          obtain ⟨w4, hw4, hrest4⟩ := expect_true hcomma
          obtain ⟨entries, w5, rfl, hw5, hentries⟩ := ih h
          refine ⟨(byteString key, v) :: entries, w5, rfl, hw5, ?_⟩
          exact .member hw ht hw2 hw3 (hrest4 ▸ hderives) hw4 hentries
        · rename_i k4 hcomma
          obtain ⟨w4, hw4, hrest4⟩ := expect_false hcomma
          cases h
          exact ⟨[(byteString key, v)], w4, rfl, hw4, .lastMember hw ht hw2 hw3 (hrest4 ▸ hderives)⟩

theorem parseObject_ok {v : JsonValue} (h : parseObject parseItem i = .ok (v, j)) :
    Derives round (.value v) (openBrace :: i.rest) j.rest := by
  unfold parseObject at h
  split at h
  · rename_i k hclose
    obtain ⟨w, hw, hrest⟩ := expect_true hclose
    cases h
    rw [hrest]
    exact .emptyObject hw
  · rename_i k hclose
    obtain ⟨w, hw, hrest⟩ := expect_false hclose
    obtain ⟨⟨o, k1⟩, ho, h⟩ := bind_eq_ok.1 h
    obtain ⟨entries, w1, rfl, hw1, hentries⟩ := parseMembers_ok hitem ho
    simp only at h
    split at h
    · rename_i k2 hclose2
      obtain ⟨w2, hw2, hrest2⟩ := expect_true hclose2
      cases h
      rw [hrest2, ← List.append_assoc] at hentries
      rw [hrest]
      exact .object (hentries.members_ws hw) (hw1.append hw2)
    · cases h

end Sound

theorem parseLiteral_ok {text : List UInt8} {v v' : JsonValue} (h : parseLiteral text v i = .ok (v', j)) :
    v' = v ∧ i.rest = text ++ j.rest := by
  unfold parseLiteral at h
  split at h
  · rename_i k hmatch
    cases h
    exact ⟨rfl, matchText_true hmatch⟩
  · cases h

theorem parseSwitch_ok {parseItem : Input → Except Stop (JsonValue × Input)}
    (hitem : ∀ i v j, parseItem i = .ok (v, j) → Denotes round i.rest v j.rest) {v : JsonValue}
    (hcur : i.cur = c :: i.rest) (h : parseSwitch round parseItem c i = .ok (v, j)) :
    Derives round (.value v) (c :: i.rest) j.rest := by
  unfold parseSwitch at h
  split at h
  · rename_i hc
    obtain ⟨rfl, hrest⟩ := parseLiteral_ok h
    rw [hc, hrest]
    exact .null
  split at h
  · rename_i hc
    obtain ⟨rfl, hrest⟩ := parseLiteral_ok h
    rw [hc, hrest]
    exact .boolFalse
  split at h
  · rename_i hc
    obtain ⟨rfl, hrest⟩ := parseLiteral_ok h
    rw [hc, hrest]
    exact .boolTrue
  split at h
  · rename_i hc
    obtain ⟨⟨bytes, k⟩, hstring, h⟩ := bind_eq_ok.1 h
    obtain ⟨t, ht, hrest⟩ := parseString_ok hstring
    cases h
    rw [hc, hrest]
    exact .string ht
  split at h
  · rename_i hc
    rw [hc]
    exact parseArray_ok hitem h
  split at h
  · rename_i hc
    rw [hc]
    exact parseObject_ok hitem h
  split at h
  · rename_i hc
    obtain ⟨f, x, rfl, hnumber, hx, hr⟩ := parseNumber_ok h
    rw [Input.rest_ungetc, hcur] at hnumber
    rw [hnumber]
    refine .number (fun d hd => ?_) hx hr
    have hhead := congrArg List.head? hnumber
    rw [TextIn.head?_append_of_ne_nil (text_ne_nil f), Option.mem_def.1 hd] at hhead
    cases hhead
    exact hc
  · cases h

/-- What the parser returns is in the text. -/
theorem parseValue_ok {n : ℕ} {v : JsonValue} (h : parseValue round n i = .ok (v, j)) :
    Denotes round i.rest v j.rest := by
  induction n generalizing i v j with
  | zero => cases h
  | succ n ih =>
    unfold parseValue at h
    split at h
    · cases h
    · rename_i c k hk
      obtain ⟨hrest, hcur⟩ := Input.rest_of_getc_some hk
      rw [Input.rest_skipWs] at hrest
      refine ⟨i.rest.takeWhile isWs, c :: k.rest, isWs_takeWhile _, ?_, ?_⟩
      · rw [← hrest, List.takeWhile_append_dropWhile]
      · exact parseSwitch_ok (fun _ _ _ => ih) hcur h

/-! ## Completeness -/

/-- A form is not empty. -/
theorem Derives.length_lt {form : Form} {s r : List UInt8} (h : Derives round form s r) :
    r.length < s.length := by
  induction h with
  | null | boolFalse | boolTrue =>
    rw [List.length_append]
    exact Nat.lt_add_of_pos_left (by decide)
  | string ht | emptyArray hw | emptyObject hw =>
    simp only [List.length_append, List.length_cons]
    omega
  | @number f x r hstart hx hr =>
    have hpos := List.length_pos_of_ne_nil (text_ne_nil f)
    simp only [List.length_append]
    omega
  | array hitems hw ih | object hmembers hw ih =>
    simp only [List.length_append, List.length_cons] at ih ⊢
    omega
  | lastItem hw hv ih | lastMember hw ht hcolon hvalue hv ih =>
    simp only [List.length_append, List.length_cons] at ih ⊢
    omega
  | item hw hv hcomma hvalues ih ih' | member hw ht hcolon hvalue hv hcomma hentries ih ih' =>
    simp only [List.length_append, List.length_cons] at ih ih' ⊢
    omega

theorem startsNumber_ws (h : startsNumber c = true) : isWs c = false ∧ c ≠ closeBracket := by
  refine ⟨?_, by rintro rfl; exact absurd h (by decide)⟩
  by_contra hws
  simp only [Bool.not_eq_false, isWs, Bool.or_eq_true, beq_iff_eq] at hws
  rcases hws with ((rfl | rfl) | rfl) | rfl <;> exact absurd h (by decide)

theorem Derives.value_head {v : JsonValue} {s : List UInt8} (h : Derives round (.value v) s r) :
    ∃ c t, s = c :: t ∧ isWs c = false ∧ c ≠ closeBracket := by
  cases h with
  | null | boolFalse | boolTrue => exact ⟨_, _, rfl, by decide, by decide⟩
  | string ht | emptyArray hw | array hitems hw | emptyObject hw | object hmembers hw =>
    exact ⟨_, _, rfl, by decide, by decide⟩
  | @number f x r hstart hx hr =>
    cases htext : f.text with
    | nil => exact absurd htext (text_ne_nil f)
    | cons c t =>
      rw [htext] at hstart
      exact ⟨c, t ++ r, rfl, startsNumber_ws (hstart c rfl)⟩

theorem Derives.value_drop {v : JsonValue} {s : List UInt8} (h : Derives round (.value v) s r)
    (hw : IsWs w) : (w ++ s).dropWhile isWs = s := by
  obtain ⟨c, t, rfl, hc, -⟩ := h.value_head
  exact dropWhile_ws hw fun d hd => by cases hd; exact hc

theorem Derives.items_head {values : List JsonValue} {s : List UInt8} (h : Derives round (.items values) s r) :
    ∃ c t, s.dropWhile isWs = c :: t ∧ c ≠ closeBracket := by
  cases h with
  | lastItem hw hv | item hw hv hcomma hvalues =>
    obtain ⟨c, t, hs, -, hc⟩ := hv.value_head
    exact ⟨c, t, (hv.value_drop hw).trans hs, hc⟩

theorem Derives.members_head {entries : List (String × JsonValue)} {s : List UInt8}
    (h : Derives round (.members entries) s r) : ∃ t, s.dropWhile isWs = quote :: t := by
  cases h with
  | lastMember hw ht hcolon hvalue hv | member hw ht hcolon hvalue hv hcomma hentries =>
    exact ⟨_, dropWhile_ws hw fun d hd => by cases hd; rfl⟩

theorem parseItems_last {parseItem : Input → Except Stop (JsonValue × Input)} {v : JsonValue} {k : Input}
    (n : ℕ) (values : List JsonValue) (hv : parseItem i = .ok (v, k))
    (hr : ∀ d ∈ (k.rest.dropWhile isWs).head?, d ≠ comma) :
    ∃ j, parseItems parseItem (n + 1) values i = .ok (values ++ [v], j) ∧
      j.rest = k.rest.dropWhile isWs := by
  obtain ⟨j, hj, hjrest⟩ := expect_miss rfl hr
  refine ⟨j, ?_, hjrest⟩
  rw [parseItems, hv, ok_bind]
  simp only [hj]

/-- What the parser does on a text of the form, with this depth and this many rounds of a loop. -/
def Accepts (round : ℚ → Option ℚ) : Form → List UInt8 → List UInt8 → Prop
  | .value v, s, r => ∀ n i, i.rest.dropWhile isWs = s → s.length ≤ n + r.length →
    ∃ j, parseValue round (n + 1) i = .ok (v, j) ∧ j.rest = r
  | .items values, s, r => ∀ n m acc i, i.rest.dropWhile isWs = s.dropWhile isWs →
    s.length ≤ n + r.length → (s.dropWhile isWs).length ≤ m →
    (∀ d ∈ (r.dropWhile isWs).head?, d ≠ comma) →
    ∃ j, parseItems (parseValue round (n + 1)) (m + 1) acc i = .ok (acc ++ values, j) ∧
      j.rest = r.dropWhile isWs
  | .members entries, s, r => ∀ n m acc i, i.rest.dropWhile isWs = s.dropWhile isWs →
    s.length ≤ n + r.length → (s.dropWhile isWs).length ≤ m →
    (∀ d ∈ (r.dropWhile isWs).head?, d ≠ comma) →
    ∃ j, parseMembers (parseValue round (n + 1)) (m + 1) acc i = .ok (assignAll acc entries, j) ∧
      j.rest = r.dropWhile isWs

theorem parseValue_step {t : List UInt8} (h : i.rest.dropWhile isWs = c :: t) :
    ∃ k, k.rest = t ∧ k.cur = c :: t ∧
      ∀ n, parseValue round (n + 1) i = parseSwitch round (parseValue round n) c k := by
  rw [← Input.rest_skipWs] at h
  obtain ⟨k, hk, hkrest, hcur⟩ := Input.getc_of_cons h
  refine ⟨k, hkrest, hcur, fun n => ?_⟩
  rw [parseValue, hk]

theorem parseLiteral_of_rest {text : List UInt8} {v : JsonValue} (h : i.rest = text ++ r) :
    ∃ j, parseLiteral text v i = .ok (v, j) ∧ j.rest = r := by
  obtain ⟨j, hj, hjrest⟩ := matchText_of_rest h
  refine ⟨j, ?_, hjrest⟩
  unfold parseLiteral
  rw [hj]

theorem parseSwitch_number {parseItem : Input → Except Stop (JsonValue × Input)}
    (h : startsNumber c = true) : parseSwitch round parseItem c i = parseNumber round i.ungetc := by
  unfold parseSwitch
  have hne : ∀ d, startsNumber d = false → c ≠ d := by
    rintro d hd rfl
    rw [h] at hd
    cases hd
  rw [if_neg (hne _ (by decide)), if_neg (hne _ (by decide)), if_neg (hne _ (by decide)),
    if_neg (hne _ (by decide)), if_neg (hne _ (by decide)), if_neg (hne _ (by decide)), if_pos h]

theorem parseLiteral_accepts {text : List UInt8} {v : JsonValue}
    (hswitch : ∀ parseItem k, parseSwitch round parseItem c k = parseLiteral text v k) :
    Accepts round (.value v) (c :: (text ++ r)) r := by
  intro n i hi _
  obtain ⟨k, hk, -, hstep⟩ := parseValue_step hi
  obtain ⟨j, hj, hjrest⟩ := parseLiteral_of_rest hk
  exact ⟨j, ((hstep n).trans (hswitch _ k)).trans hj, hjrest⟩

/-- The items of an array up to its bracket. -/
theorem parseArray_accepts {s : List UInt8} {values : List JsonValue}
    (hitems : Derives round (.items values) s (w ++ closeBracket :: r)) (hw : IsWs w)
    (ih : Accepts round (.items values) s (w ++ closeBracket :: r)) :
    Accepts round (.value (.array values)) (openBracket :: s) r := by
  intro n i hi hn
  have hlt := hitems.length_lt
  have hdrop : (w ++ closeBracket :: r).dropWhile isWs = closeBracket :: r :=
    dropWhile_ws hw fun d hd => by cases hd; rfl
  simp only [List.length_append, List.length_cons] at hlt hn
  obtain ⟨n, rfl⟩ : ∃ m, n = m + 1 := ⟨n - 1, by omega⟩
  obtain ⟨k, hk, -, hstep⟩ := parseValue_step hi
  obtain ⟨c, t, hs, hc⟩ := hitems.items_head
  obtain ⟨k1, hk1, hk1rest⟩ := expect_miss (hk ▸ hs) fun d hd => by cases hd; exact hc
  have hsame : k1.rest.dropWhile isWs = s.dropWhile isWs := by
    rw [hk1rest, ← hs, List.dropWhile_idempotent]
  obtain ⟨j, hj, hjrest⟩ := ih n k1.rest.length [] k1 hsame
    (by simp only [List.length_append, List.length_cons]; omega) (by rw [hs, hk1rest])
    (by rw [hdrop]; intro d hd; cases hd; decide)
  have hclose : j.rest.dropWhile isWs = closeBracket :: r := by
    rw [hjrest, List.dropWhile_idempotent, hdrop]
  obtain ⟨j', hj', hjrest'⟩ := expect_hit hclose
  refine ⟨j', (hstep (n + 1)).trans ?_, hjrest'⟩
  show parseArray _ k = _
  rw [parseArray, hk1]
  simp only [hj, ok_bind, hj', List.nil_append]

/-- A member up to its value, and what the loop does then. -/
theorem parseMembers_step {parseItem : Input → Except Stop (JsonValue × Input)} {t bytes w' w'' s : List UInt8}
    {v : JsonValue} (hw : IsWs w) (ht : StringText t bytes) (hw' : IsWs w')
    (hi : i.rest.dropWhile isWs = (w ++ quote :: (t ++ quote :: (w' ++ colon :: (w'' ++ s)))).dropWhile isWs)
    (hs : (w'' ++ s).dropWhile isWs = s)
    (hv : ∀ k, k.rest.dropWhile isWs = s → ∃ j, parseItem k = .ok (v, j) ∧ j.rest = r) :
    ∃ k : Input, k.rest = r ∧ ∀ m o, parseMembers parseItem (m + 1) o i =
      match k.expect comma with
      | (true, i) => parseMembers parseItem m (assign o (byteString bytes) v) i
      | (false, i) => .ok (assign o (byteString bytes) v, i) := by
  rw [dropWhile_ws hw fun d hd => by cases hd; rfl] at hi
  obtain ⟨k, hk, hkrest⟩ := expect_hit hi
  obtain ⟨k1, hk1, hk1rest⟩ := ht.parse hkrest
  have hcolon : k1.rest.dropWhile isWs = colon :: (w'' ++ s) := by
    rw [hk1rest]
    exact dropWhile_ws hw' fun d hd => by cases hd; rfl
  obtain ⟨k2, hk2, hk2rest⟩ := expect_hit hcolon
  obtain ⟨k3, hk3, hk3rest⟩ := hv k2 (by rw [hk2rest, hs])
  refine ⟨k3, hk3rest, fun m o => ?_⟩
  cases hcomma : k3.expect comma with
  | mk hit k4 => cases hit <;> simp only [parseMembers, hk, hk1, ok_bind, hk2, hk3, hcomma]

/-- The members of an object up to its brace. -/
theorem parseObject_accepts {s : List UInt8} {entries : List (String × JsonValue)}
    (hmembers : Derives round (.members entries) s (w ++ closeBrace :: r)) (hw : IsWs w)
    (ih : Accepts round (.members entries) s (w ++ closeBrace :: r)) :
    Accepts round (.value (.object (assignAll [] entries))) (openBrace :: s) r := by
  intro n i hi hn
  have hlt := hmembers.length_lt
  have hdrop : (w ++ closeBrace :: r).dropWhile isWs = closeBrace :: r :=
    dropWhile_ws hw fun d hd => by cases hd; rfl
  simp only [List.length_append, List.length_cons] at hlt hn
  obtain ⟨n, rfl⟩ : ∃ m, n = m + 1 := ⟨n - 1, by omega⟩
  obtain ⟨k, hk, -, hstep⟩ := parseValue_step hi
  obtain ⟨t, hs⟩ := hmembers.members_head
  obtain ⟨k1, hk1, hk1rest⟩ := expect_miss (c := closeBrace) (hk ▸ hs) fun d hd => by cases hd; decide
  have hsame : k1.rest.dropWhile isWs = s.dropWhile isWs := by
    rw [hk1rest, ← hs, List.dropWhile_idempotent]
  obtain ⟨j, hj, hjrest⟩ := ih n k1.rest.length [] k1 hsame
    (by simp only [List.length_append, List.length_cons]; omega) (by rw [hs, hk1rest])
    (by rw [hdrop]; intro d hd; cases hd; decide)
  have hclose : j.rest.dropWhile isWs = closeBrace :: r := by
    rw [hjrest, List.dropWhile_idempotent, hdrop]
  obtain ⟨j', hj', hjrest'⟩ := expect_hit hclose
  refine ⟨j', (hstep (n + 1)).trans ?_, hjrest'⟩
  show parseObject _ k = _
  rw [parseObject, hk1]
  simp only [hj, ok_bind, hj']

/-- What a text derives, the parser accepts. -/
theorem Derives.accepts {form : Form} {s : List UInt8} (h : Derives round form s r) :
    Accepts round form s r := by
  induction h with
  | null => exact parseLiteral_accepts fun _ _ => rfl
  | boolFalse => exact parseLiteral_accepts fun _ _ => rfl
  | boolTrue => exact parseLiteral_accepts fun _ _ => rfl
  | string ht =>
    intro n i hi _
    obtain ⟨k, hk, -, hstep⟩ := parseValue_step hi
    obtain ⟨j, hj, hjrest⟩ := ht.parse hk
    refine ⟨j, (hstep n).trans ?_, hjrest⟩
    show (parseString k >>= fun x => pure (JsonValue.string (byteString x.1), x.2)) = _
    rw [hj]
    rfl
  | @number f x r hstart hx hr =>
    intro n i hi _
    cases htext : f.text with
    | nil => exact absurd htext (text_ne_nil f)
    | cons c t =>
      rw [htext] at hstart hi
      obtain ⟨k, -, hcur, hstep⟩ := parseValue_step hi
      have hrest : k.ungetc.rest = f.text ++ r := by rw [Input.rest_ungetc, hcur, htext]; rfl
      obtain ⟨j, hj, hjrest⟩ := parseNumber_of_rest hx hr hrest
      exact ⟨j, ((hstep n).trans (parseSwitch_number (hstart c rfl))).trans hj, hjrest⟩
  | emptyArray hw =>
    intro n i hi _
    obtain ⟨k, hk, -, hstep⟩ := parseValue_step hi
    obtain ⟨j, hj, hjrest⟩ := expect_hit (c := closeBracket)
      (hk ▸ dropWhile_ws hw fun d hd => by cases hd; rfl)
    refine ⟨j, (hstep n).trans ?_, hjrest⟩
    show parseArray _ k = _
    rw [parseArray, hj]
  | array hitems hw ih => exact parseArray_accepts hitems hw ih
  | emptyObject hw =>
    intro n i hi _
    obtain ⟨k, hk, -, hstep⟩ := parseValue_step hi
    obtain ⟨j, hj, hjrest⟩ := expect_hit (c := closeBrace)
      (hk ▸ dropWhile_ws hw fun d hd => by cases hd; rfl)
    refine ⟨j, (hstep n).trans ?_, hjrest⟩
    show parseObject _ k = _
    rw [parseObject, hj]
  | object hmembers hw ih => exact parseObject_accepts hmembers hw ih
  | @lastItem w s r v hw hv ih =>
    intro n m acc i hi hn _ hr
    simp only [List.length_append] at hn
    obtain ⟨k, hk, hkrest⟩ := ih n i (hi.trans (hv.value_drop hw)) (by omega)
    rw [← hkrest] at hr ⊢
    exact parseItems_last m acc hk hr
  | @item w s w' s' r v values hw hv hw' hvalues ih ih' =>
    intro n m acc i hi hn hm hr
    have hlt := hv.length_lt
    have hlt' := hvalues.length_lt
    have hshort := List.length_dropWhile_le isWs s'
    rw [hv.value_drop hw] at hi hm
    simp only [List.length_append, List.length_cons] at hn hlt
    obtain ⟨m, rfl⟩ : ∃ m', m = m' + 1 := ⟨m - 1, by omega⟩
    obtain ⟨k, hk, hkrest⟩ := ih n i hi (by simp only [List.length_append, List.length_cons]; omega)
    have hcomma : k.rest.dropWhile isWs = comma :: s' := by
      rw [hkrest]
      exact dropWhile_ws hw' fun d hd => by cases hd; rfl
    obtain ⟨k1, hk1, hk1rest⟩ := expect_hit hcomma
    obtain ⟨j, hj, hjrest⟩ := ih' n m (acc ++ [v]) k1 (by rw [hk1rest]) (by omega) (by omega) hr
    refine ⟨j, ?_, hjrest⟩
    rw [parseItems, hk, ok_bind]
    simp only [hk1]
    rw [hj, List.append_assoc]
    rfl
  | @lastMember w t bytes w' w'' s r v hw ht hw' hw'' hv ih =>
    intro n m acc i hi hn _ hr
    simp only [List.length_append, List.length_cons] at hn
    obtain ⟨k, hkrest, hstep⟩ := parseMembers_step hw ht hw' hi (hv.value_drop hw'')
      fun k hk => ih n k hk (by omega)
    rw [← hkrest] at hr ⊢
    obtain ⟨j, hj, hjrest⟩ := expect_miss rfl hr
    refine ⟨j, ?_, hjrest⟩
    rw [hstep, hj]
    rfl
  | @member w t bytes w' w'' s w3 s' r v entries hw ht hw' hw'' hv hw3 hentries ih ih' =>
    intro n m acc i hi hn hm hr
    have hlt := hv.length_lt
    have hlt' := hentries.length_lt
    have hshort := List.length_dropWhile_le isWs s'
    have hquote : (w ++ quote :: (t ++ quote :: (w' ++ colon :: (w'' ++ s)))).dropWhile isWs =
        quote :: (t ++ quote :: (w' ++ colon :: (w'' ++ s))) :=
      dropWhile_ws hw fun d hd => by cases hd; rfl
    rw [hquote] at hm
    simp only [List.length_append, List.length_cons] at hn hm hlt
    obtain ⟨m, rfl⟩ : ∃ m', m = m' + 1 := ⟨m - 1, by omega⟩
    obtain ⟨k, hkrest, hstep⟩ := parseMembers_step hw ht hw' hi (hv.value_drop hw'')
      fun k hk => ih n k hk (by simp only [List.length_append, List.length_cons]; omega)
    have hcomma : k.rest.dropWhile isWs = comma :: s' := by
      rw [hkrest]
      exact dropWhile_ws hw3 fun d hd => by cases hd; rfl
    obtain ⟨k1, hk1, hk1rest⟩ := expect_hit hcomma
    obtain ⟨j, hj, hjrest⟩ := ih' n m (assign acc (byteString bytes) v) k1 (by rw [hk1rest]) (by omega)
      (by omega) hr
    refine ⟨j, ?_, hjrest⟩
    rw [hstep, hk1]
    exact hj

/-! ## Fuel -/

theorem Denotes.length_lt {s : List UInt8} {v : JsonValue} (h : Denotes round s v r) :
    r.length < s.length := by
  obtain ⟨w, s', -, rfl, hs⟩ := h
  have hlt := hs.length_lt
  rw [List.length_append]
  omega

theorem length_expect {b : Bool} (h : i.expect c = (b, j)) : j.rest.length ≤ i.rest.length := by
  cases b with
  | false =>
    obtain ⟨w, -, hrest⟩ := expect_false h
    rw [hrest, List.length_append]
    omega
  | true =>
    obtain ⟨w, -, hrest⟩ := expect_true h
    rw [hrest, List.length_append, List.length_cons]
    omega

section Fuel

variable {parseItem : Input → Except Stop (JsonValue × Input)} {N : ℕ}
  (hitem : ∀ i v j, parseItem i = .ok (v, j) → Denotes round i.rest v j.rest)
  (hfuel : ∀ i : Input, i.rest.length ≤ N → Avoids .outOfFuel (parseItem i))

include hitem hfuel

theorem parseItems_fuel {n : ℕ} {values : List JsonValue} (hn : i.rest.length < n) (hN : i.rest.length ≤ N) :
    Avoids .outOfFuel (parseItems parseItem n values i) := by
  induction n generalizing values i with
  | zero => cases hn
  | succ n ih =>
    refine (hfuel i hN).bind fun a ha => ?_
    obtain ⟨v, k⟩ := a
    have hlt := (hitem i v k ha).length_lt
    simp only
    split
    · rename_i k' hcomma
      have hle := length_expect hcomma
      exact ih (by omega) (by omega)
    · exact avoids_ok _ _

theorem parseArray_fuel (hN : i.rest.length ≤ N) : Avoids .outOfFuel (parseArray parseItem i) := by
  unfold parseArray
  split
  · exact avoids_ok _ _
  · rename_i k hclose
    have hle := length_expect hclose
    refine (parseItems_fuel hitem hfuel (Nat.lt_succ_self _) (by omega)).bind fun a _ => ?_
    simp only
    split
    · exact avoids_ok _ _
    · exact avoids_error nofun

theorem parseMembers_fuel {n : ℕ} {o : JsonObject} (hn : i.rest.length < n) (hN : i.rest.length ≤ N) :
    Avoids .outOfFuel (parseMembers parseItem n o i) := by
  induction n generalizing o i with
  | zero => cases hn
  | succ n ih =>
    unfold parseMembers
    split
    · exact avoids_error nofun
    · rename_i k hquote
      have hle := length_expect hquote
      refine Avoids.bind (parseString_fuel k) fun a ha => ?_
      obtain ⟨key, k1⟩ := a
      obtain ⟨t, -, hrest⟩ := parseString_ok ha
      rw [hrest, List.length_append, List.length_cons] at hle
      simp only
      split
      · exact avoids_error nofun
      · rename_i k2 hcolon
        have hle2 := length_expect hcolon
        refine (hfuel k2 (by omega)).bind fun a ha => ?_
        obtain ⟨v, k3⟩ := a
        have hlt := (hitem k2 v k3 ha).length_lt
        simp only
        split
        · rename_i k4 hcomma
          have hle4 := length_expect hcomma
          exact ih (by omega) (by omega)
        · exact avoids_ok _ _

theorem parseObject_fuel (hN : i.rest.length ≤ N) : Avoids .outOfFuel (parseObject parseItem i) := by
  unfold parseObject
  split
  · exact avoids_ok _ _
  · rename_i k hclose
    have hle := length_expect hclose
    refine (parseMembers_fuel hitem hfuel (Nat.lt_succ_self _) (by omega)).bind fun a _ => ?_
    simp only
    split
    · exact avoids_ok _ _
    · exact avoids_error nofun

theorem parseSwitch_fuel (hN : i.rest.length ≤ N) :
    Avoids .outOfFuel (parseSwitch round parseItem c i) := by
  have hliteral : ∀ text v, Avoids .outOfFuel (parseLiteral text v i) := by
    intro text v
    unfold parseLiteral
    split
    · exact avoids_ok _ _
    · exact avoids_error nofun
  unfold parseSwitch
  repeat' split
  · exact hliteral _ _
  · exact hliteral _ _
  · exact hliteral _ _
  · exact Avoids.bind (parseString_fuel i) fun a _ => avoids_ok _ _
  · exact parseArray_fuel hitem hfuel hN
  · exact parseObject_fuel hitem hfuel hN
  · unfold parseNumber
    simp only
    split
    · exact avoids_ok _ _
    · exact avoids_error nofun
    · exact avoids_error nofun
  · exact avoids_error nofun

end Fuel

theorem parseValue_fuel {n : ℕ} (hn : i.rest.length < n) : Avoids .outOfFuel (parseValue round n i) := by
  induction n generalizing i with
  | zero => cases hn
  | succ n ih =>
    unfold parseValue
    split
    · exact avoids_error nofun
    · rename_i c k hk
      have hrest := (Input.rest_of_getc_some hk).1
      have hle := List.length_dropWhile_le isWs i.rest
      rw [Input.rest_skipWs] at hrest
      rw [hrest, List.length_cons] at hle
      refine parseSwitch_fuel (N := k.rest.length) (fun _ _ _ => parseValue_ok) (fun j hj => ih ?_)
        (Nat.le_refl _)
      omega

/-! ## The parser and the grammar -/

theorem Denotes.parse {s : List UInt8} {v : JsonValue} (h : Denotes round s v r) :
    ∃ j, Picojson.parse round s = .ok (v, j) ∧ j.rest = r := by
  obtain ⟨w, s', hw, rfl, hs⟩ := h
  refine hs.accepts _ _ (hs.value_drop hw) ?_
  rw [List.length_append]
  omega

/-- A text has one value, in one place. -/
theorem Denotes.unique {s r' : List UInt8} {v v' : JsonValue} (h : Denotes round s v r)
    (h' : Denotes round s v' r') : v = v' ∧ r = r' := by
  obtain ⟨j, hj, rfl⟩ := h.parse
  obtain ⟨j', hj', rfl⟩ := h'.parse
  cases hj.symm.trans hj'
  exact ⟨rfl, rfl⟩

theorem denotes_of_parse {s : List UInt8} {v : JsonValue}
    (h : (Picojson.parse round s).toOption.map Prod.fst = some v) : ∃ r, Denotes round s v r := by
  cases hparse : Picojson.parse round s with
  | error e =>
    rw [hparse] at h
    cases h
  | ok result =>
    obtain ⟨v', j⟩ := result
    rw [hparse] at h
    cases h
    exact ⟨j.rest, parseValue_ok hparse⟩

theorem parse_fuel (round : ℚ → Option ℚ) (s : List UInt8) : Avoids .outOfFuel (Picojson.parse round s) :=
  parseValue_fuel (Nat.lt_succ_self _)

/-- The parser returns the value exactly if the text denotes it, and it always gets to an end. -/
theorem parse_exact (round : ℚ → Option ℚ) (s : List UInt8) :
    Picojson.parse round s ≠ .error .outOfFuel ∧
      ∀ v r, (∃ j, Picojson.parse round s = .ok (v, j) ∧ j.rest = r) ↔ Denotes round s v r := by
  refine ⟨parse_fuel round s, fun v r => ⟨?_, Denotes.parse⟩⟩
  rintro ⟨j, hj, rfl⟩
  exact parseValue_ok hj

end

end Picojson
