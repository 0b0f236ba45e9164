import PPCNN.Cnn.Structure
import PPCNN.Lib.Strtod

/-!
# The JSON parser (`picojson.h`)

`parse` on the bytes of a string, with the input object, its line counter and its one character of
pushback. A `return false` is an error that keeps the input, from which `_parse` makes the text of the
error. A `std::string` is a `String` with one character for each byte.

The loops and the recursion have fuel, of which `parse` gives enough (`parse_ne_outOfFuel`).
-/

set_option autoImplicit false

namespace Picojson

open Lib Cnn

/-! ## Characters -/

abbrev newline : UInt8 := 10
abbrev quote : UInt8 := 34
abbrev comma : UInt8 := 44
abbrev colon : UInt8 := 58
abbrev openBracket : UInt8 := 91
abbrev backslash : UInt8 := 92
abbrev closeBracket : UInt8 := 93
abbrev letterF : UInt8 := 102
abbrev letterN : UInt8 := 110
abbrev letterT : UInt8 := 116
abbrev letterU : UInt8 := 117
abbrev openBrace : UInt8 := 123
abbrev closeBrace : UInt8 := 125

/-- The four characters that `skip_ws` skips. -/
def isWs (c : UInt8) : Bool := c == 32 || c == 9 || c == newline || c == 13

/-- The characters of `_parse_number`. -/
def isNumberChar (c : UInt8) : Bool := isDigit c || c == 43 || c == 45 || c == 101 || c == 69 || c == 46

/-- The characters that start a number in `_parse`. -/
def startsNumber (c : UInt8) : Bool := isDigit c || c == 45

def bytesOf (text : String) : List UInt8 := text.toList.map Char.toUInt8

/-- The bytes of a `std::string`. -/
def byteString (bytes : List UInt8) : String := String.ofList (bytes.map Char.ofUInt8)

/-! ## The input -/

/-- `picojson::input`. A character that has been consumed is still the current one. The line is an `int`,
taken to wrap around. -/
structure Input where
  cur : List UInt8
  consumed : Bool
  line : ℤ
  cur_ne : consumed = true → cur ≠ []

namespace Input

def ofString (s : List UInt8) : Input := ⟨s, false, 1, fun h => by cases h⟩

/-- The first part of `getc`, which leaves a consumed character. -/
def advance (i : Input) : Input :=
  if i.consumed then
    ⟨i.cur.tail, false,
      if i.cur.head? = some newline then Int.bmod (i.line + 1) (2 ^ 32) else i.line, fun h => by cases h⟩
  else i

/-- -1 at the end is `none`. -/
def getc (i : Input) : Option UInt8 × Input :=
  match h : i.advance.cur with
  | [] => (none, ⟨[], false, i.advance.line, fun h => by cases h⟩)
  | c :: cs => (some c, ⟨c :: cs, true, i.advance.line, fun _ => List.cons_ne_nil c cs⟩)

def ungetc (i : Input) : Input := ⟨i.cur, false, i.line, fun h => by cases h⟩

/-- What has not been consumed. -/
def rest (i : Input) : List UInt8 := if i.consumed then i.cur.tail else i.cur

/-- Reads the characters that have the property, and the next one, which it puts back. -/
def scanLoop (p : UInt8 → Bool) : ℕ → List UInt8 → Input → List UInt8 × Input
  | 0, out, i => (out, i.getc.2.ungetc)
  | n + 1, out, i =>
    match i.getc with
    | (some c, i) => if p c then scanLoop p n (out ++ [c]) i else (out, i.ungetc)
    | (none, i) => (out, i.ungetc)

def scan (p : UInt8 → Bool) (i : Input) : List UInt8 × Input := scanLoop p i.rest.length [] i

/-- `skip_ws` -/
def skipWs (i : Input) : Input := (i.scan isWs).2

def expect (expected : UInt8) (i : Input) : Bool × Input :=
  match i.skipWs.getc with
  | (some c, i) => if c = expected then (true, i) else (false, i.ungetc)
  | (none, i) => (false, i.ungetc)

/-- `match` -/
def matchText : List UInt8 → Input → Bool × Input
  | [], i => (true, i)
  | p :: pattern, i =>
    match i.getc with
    | (some c, i) => if c = p then matchText pattern i else (false, i.ungetc)
    | (none, i) => (false, i.ungetc)

/-! ### What is left of the input -/

theorem cur_advance (i : Input) : i.advance.cur = i.rest := by
  unfold advance rest
  split <;> rfl

@[simp] theorem rest_ungetc (i : Input) : i.ungetc.rest = i.cur := rfl

theorem getc_of_nil {i : Input} (h : i.rest = []) : ∃ j, i.getc = (none, j) ∧ j.rest = [] := by
  rw [← cur_advance] at h
  unfold getc
  split
  · exact ⟨_, rfl, rfl⟩
  · rename_i hcur
    rw [h] at hcur
    cases hcur

theorem getc_of_cons {i : Input} {c : UInt8} {cs : List UInt8} (h : i.rest = c :: cs) :
    ∃ j, i.getc = (some c, j) ∧ j.rest = cs ∧ j.cur = c :: cs := by
  rw [← cur_advance] at h
  unfold getc
  split
  · rename_i hcur
    rw [h] at hcur
    cases hcur
  · rename_i hcur
    rw [h] at hcur
    cases hcur
    exact ⟨_, rfl, rfl, rfl⟩

theorem rest_of_getc_some {i j : Input} {c : UInt8} (h : i.getc = (some c, j)) :
    i.rest = c :: j.rest ∧ j.cur = c :: j.rest := by
  cases hrest : i.rest with
  | nil =>
    obtain ⟨j', hj, -⟩ := getc_of_nil hrest
    rw [hj] at h
    cases h
  | cons d ds =>
    obtain ⟨j', hj, hjrest, hcur⟩ := getc_of_cons hrest
    rw [hj] at h
    cases h
    rw [hjrest]
    exact ⟨rfl, hcur⟩

theorem rest_of_getc_none {i j : Input} (h : i.getc = (none, j)) : i.rest = [] ∧ j.cur = [] := by
  cases hrest : i.rest with
  | nil =>
    refine ⟨rfl, ?_⟩
    rw [← cur_advance] at hrest
    unfold getc at h
    split at h
    · cases h
      rfl
    · cases h
  | cons d ds =>
    obtain ⟨j', hj, -⟩ := getc_of_cons hrest
    rw [hj] at h
    cases h

theorem scanLoop_spec (p : UInt8 → Bool) (n : ℕ) (out : List UInt8) (i : Input) (h : i.rest.length ≤ n) :
    (scanLoop p n out i).1 = out ++ i.rest.takeWhile p ∧ (scanLoop p n out i).2.rest = i.rest.dropWhile p := by
  induction n generalizing out i with
  | zero =>
    have hnil : i.rest = [] := List.eq_nil_of_length_eq_zero (Nat.le_zero.1 h)
    obtain ⟨j, hj, -⟩ := getc_of_nil hnil
    have hcur := (rest_of_getc_none hj).2
    simp [scanLoop, hj, hnil, hcur]
  | succ n ih =>
    unfold scanLoop
    split
    · rename_i c j hj
      obtain ⟨hrest, hcur⟩ := rest_of_getc_some hj
      rw [hrest] at h ⊢
      split
      · rename_i hp
        obtain ⟨htake, hdrop⟩ := ih (out ++ [c]) j (by simpa using h)
        rw [htake, hdrop, List.takeWhile_cons_of_pos hp, List.dropWhile_cons_of_pos hp]
        simp
      · rename_i hp
        rw [List.takeWhile_cons_of_neg hp, List.dropWhile_cons_of_neg hp, rest_ungetc, hcur]
        simp
    · rename_i j hj
      obtain ⟨hrest, hcur⟩ := rest_of_getc_none hj
      simp [hrest, hcur]

@[simp] theorem scan_fst (p : UInt8 → Bool) (i : Input) : (i.scan p).1 = i.rest.takeWhile p :=
  (scanLoop_spec p _ [] i (Nat.le_refl _)).1

@[simp] theorem rest_scan (p : UInt8 → Bool) (i : Input) : (i.scan p).2.rest = i.rest.dropWhile p :=
  (scanLoop_spec p _ [] i (Nat.le_refl _)).2

@[simp] theorem rest_skipWs (i : Input) : i.skipWs.rest = i.rest.dropWhile isWs := rest_scan isWs i

end Input

/-! ## The parser -/

/-- What ends a parse without a value. -/
inductive Stop where
  /-- a `return false`, with the input at this time -/
  | syntaxError (i : Input)
  /-- the `std::overflow_error` of the constructor for a number that is not finite -/
  | overflowError
  | outOfFuel

/-- The value of a hexadecimal digit. -/
def hexValue (c : UInt8) : Option ℕ :=
  if 48 ≤ c ∧ c ≤ 57 then some (c.toNat - 48)
  else if 65 ≤ c ∧ c ≤ 70 then some (c.toNat - 65 + 10)
  else if 97 ≤ c ∧ c ≤ 102 then some (c.toNat - 97 + 10)
  else none

def quadhexLoop : ℕ → ℕ → Input → Option ℕ × Input
  | 0, uniCh, i => (some uniCh, i)
  | n + 1, uniCh, i =>
    match i.getc with
    | (none, i) => (none, i)
    | (some c, i) =>
      match hexValue c with
      | some hex => quadhexLoop n (uniCh * 16 + hex) i
      | none => (none, i.ungetc)

/-- `_parse_quadhex`; -1 is `none`. -/
def parseQuadhex (i : Input) : Option ℕ × Input := quadhexLoop 4 0 i

/-- The bytes that `_parse_codepoint` pushes. -/
def utf8 (uniCh : ℕ) : List UInt8 :=
  if uniCh < 0x80 then [.ofNat uniCh]
  else if uniCh < 0x800 then [.ofNat (0xc0 ||| uniCh >>> 6), .ofNat (0x80 ||| uniCh &&& 0x3f)]
  else if uniCh < 0x10000 then
    [.ofNat (0xe0 ||| uniCh >>> 12), .ofNat (0x80 ||| (uniCh >>> 6) &&& 0x3f),
      .ofNat (0x80 ||| uniCh &&& 0x3f)]
  else
    [.ofNat (0xf0 ||| uniCh >>> 18), .ofNat (0x80 ||| (uniCh >>> 12) &&& 0x3f),
      .ofNat (0x80 ||| (uniCh >>> 6) &&& 0x3f), .ofNat (0x80 ||| uniCh &&& 0x3f)]

/-- The code point of a surrogate pair. -/
def surrogatePair (first second : ℕ) : ℕ :=
  ((first - 0xd800) <<< 10 ||| (second - 0xdc00) &&& 0x3ff) + 0x10000

/-- `_parse_codepoint` -/
def parseCodepoint (out : List UInt8) (i : Input) : Except Stop (List UInt8 × Input) :=
  match parseQuadhex i with
  | (none, i) => .error (.syntaxError i)
  | (some uniCh, i) =>
    if 0xd800 ≤ uniCh ∧ uniCh ≤ 0xdfff then
      if 0xdc00 ≤ uniCh then .error (.syntaxError i)
      else
        match i.matchText [backslash, letterU] with
        | (false, i) => .error (.syntaxError i)
        | (true, i) =>
          match parseQuadhex i with
          | (none, i) => .error (.syntaxError i)
          | (some second, i) =>
            if 0xdc00 ≤ second ∧ second ≤ 0xdfff then .ok (out ++ utf8 (surrogatePair uniCh second), i)
            else .error (.syntaxError i)
    else .ok (out ++ utf8 uniCh, i)

/-- The character that a letter behind a backslash stands for. -/
def escapeValue (c : UInt8) : Option UInt8 :=
  if c = quote then some quote
  else if c = backslash then some backslash
  else if c = 47 then some 47
  else if c = 98 then some 8
  else if c = 102 then some 12
  else if c = 110 then some 10
  else if c = 114 then some 13
  else if c = 116 then some 9
  else none

/-- The loop of `_parse_string`. -/
def parseStringLoop : ℕ → List UInt8 → Input → Except Stop (List UInt8 × Input)
  | 0, _, _ => .error .outOfFuel
  | n + 1, out, i =>
    match i.getc with
    | (none, i) => .error (.syntaxError i.ungetc)
    | (some c, i) =>
      if c < 32 then .error (.syntaxError i.ungetc)
      else if c = quote then .ok (out, i)
      else if c = backslash then
        match i.getc with
        | (none, i) => .error (.syntaxError i)
        | (some c, i) =>
          match escapeValue c with
          | some value => parseStringLoop n (out ++ [value]) i
          | none =>
            if c = letterU then do
              let (out, i) ← parseCodepoint out i
              parseStringLoop n out i
            else .error (.syntaxError i)
      else parseStringLoop n (out ++ [c]) i

/-- `_parse_string` -/
def parseString (i : Input) : Except Stop (List UInt8 × Input) := parseStringLoop (i.rest.length + 1) [] i

/-- The `do` loop of `_parse_array`, on the items so far. -/
def parseItems (parseItem : Input → Except Stop (JsonValue × Input)) :
    ℕ → List JsonValue → Input → Except Stop (List JsonValue × Input)
  | 0, _, _ => .error .outOfFuel
  | n + 1, values, i => do
    let (value, i) ← parseItem i
    match i.expect comma with
    | (true, i) => parseItems parseItem n (values ++ [value]) i
    | (false, i) => .ok (values ++ [value], i)

/-- `_parse_array` behind the bracket. -/
def parseArray (parseItem : Input → Except Stop (JsonValue × Input)) (i : Input) :
    Except Stop (JsonValue × Input) :=
  match i.expect closeBracket with
  | (true, i) => .ok (.array [], i)
  | (false, i) => do
    let (values, i) ← parseItems parseItem (i.rest.length + 1) [] i
    match i.expect closeBracket with
    | (true, i) => .ok (.array values, i)
    | (false, i) => .error (.syntaxError i)

/-- `o[key] = value` on the entries of a `std::map`. -/
def assign : JsonObject → String → JsonValue → JsonObject
  | [], key, value => [(key, value)]
  | (k, v) :: o, key, value =>
    if key = k then (k, value) :: o
    else if key < k then (key, value) :: (k, v) :: o
    else (k, v) :: assign o key value

/-- The `do` loop of `_parse_object`, on the entries so far. -/
def parseMembers (parseItem : Input → Except Stop (JsonValue × Input)) :
    ℕ → JsonObject → Input → Except Stop (JsonObject × Input)
  | 0, _, _ => .error .outOfFuel
  | n + 1, o, i =>
    match i.expect quote with
    | (false, i) => .error (.syntaxError i)
    | (true, i) => do
      let (key, i) ← parseString i
      match i.expect colon with
      | (false, i) => .error (.syntaxError i)
      | (true, i) => do
        let (value, i) ← parseItem i
        match i.expect comma with
        | (true, i) => parseMembers parseItem n (assign o (byteString key) value) i
        | (false, i) => .ok (assign o (byteString key) value, i)

/-- `_parse_object` behind the brace. -/
def parseObject (parseItem : Input → Except Stop (JsonValue × Input)) (i : Input) :
    Except Stop (JsonValue × Input) :=
  match i.expect closeBrace with
  | (true, i) => .ok (.object [], i)
  | (false, i) => do
    let (o, i) ← parseMembers parseItem (i.rest.length + 1) [] i
    match i.expect closeBrace with
    | (true, i) => .ok (.object o, i)
    | (false, i) => .error (.syntaxError i)

/-- The rest of a literal, and its value. -/
def parseLiteral (text : List UInt8) (value : JsonValue) (i : Input) : Except Stop (JsonValue × Input) :=
  match i.matchText text with
  | (true, i) => .ok (value, i)
  | (false, i) => .error (.syntaxError i)

/-- The branch of `_parse` for a number, and `value(double)`. -/
def parseNumber (round : ℚ → Option ℚ) (i : Input) : Except Stop (JsonValue × Input) :=
  let (numStr, i) := i.scan isNumberChar
  match strtod round numStr with
  | some (some x) => .ok (.number x, i)
  | some none => .error .overflowError
  | none => .error (.syntaxError i)

/-- The `switch` of `_parse` on a character that has been read. -/
def parseSwitch (round : ℚ → Option ℚ) (parseItem : Input → Except Stop (JsonValue × Input)) (c : UInt8)
    (i : Input) : Except Stop (JsonValue × Input) :=
  if c = letterN then parseLiteral (bytesOf "ull") .null i
  else if c = letterF then parseLiteral (bytesOf "alse") (.boolean false) i
  else if c = letterT then parseLiteral (bytesOf "rue") (.boolean true) i
  else if c = quote then do
    let (s, i) ← parseString i
    return (.string (byteString s), i)
  else if c = openBracket then parseArray parseItem i
  else if c = openBrace then parseObject parseItem i
  else if startsNumber c then parseNumber round i.ungetc
  else .error (.syntaxError i.ungetc)

/-- `_parse`, to a depth of arrays and objects. -/
def parseValue (round : ℚ → Option ℚ) : ℕ → Input → Except Stop (JsonValue × Input)
  | 0, _ => .error .outOfFuel
  | n + 1, i =>
    match i.skipWs.getc with
    | (none, i) => .error (.syntaxError i.ungetc)
    | (some c, i) => parseSwitch round (parseValue round n) c i

/-- `parse` on a string. -/
def parse (round : ℚ → Option ℚ) (s : List UInt8) : Except Stop (JsonValue × Input) :=
  parseValue round (s.length + 1) (.ofString s)

/-! ## The error -/

/-- The characters up to the end of the line. -/
def restOfLine : ℕ → Input → List UInt8
  | 0, _ => []
  | n + 1, i =>
    match i.getc with
    | (none, _) => []
    | (some c, i) =>
      if c = newline then []
      else if 32 ≤ c then c :: restOfLine n i
      else restOfLine n i

/-- The text that `_parse` writes to `err`. -/
def errorText (i : Input) : List UInt8 :=
  bytesOf "syntax error at line " ++ decimalInt i.line ++ bytesOf " near: " ++ restOfLine i.rest.length i

/-! ## Comparison -/

mutual

/-- `operator==` -/
def equals : JsonValue → JsonValue → Bool
  | .null, .null => true
  | .boolean a, .boolean b => a == b
  | .number x, .number y => x == y
  | .string s, .string t => s == t
  | .array values, .array values' => equalValues values values'
  | .object fields, .object fields' => equalFields fields fields'
  | _, _ => false

def equalValues : List JsonValue → List JsonValue → Bool
  | [], [] => true
  | v :: values, v' :: values' => equals v v' && equalValues values values'
  | _, _ => false

def equalFields : JsonObject → JsonObject → Bool
  | [], [] => true
  | (key, v) :: fields, (key', v') :: fields' => key == key' && equals v v' && equalFields fields fields'
  | _, _ => false

end

mutual

theorem equals_iff : ∀ v v' : JsonValue, equals v v' = true ↔ v = v'
  | .null, v' => by cases v' <;> simp [equals]
  | .boolean b, v' => by cases v' <;> simp [equals]
  | .number x, v' => by cases v' <;> simp [equals]
  | .string s, v' => by cases v' <;> simp [equals]
  | .array values, v' => by cases v' <;> simp [equals, equalValues_iff values]
  | .object fields, v' => by cases v' <;> simp [equals, equalFields_iff fields]

theorem equalValues_iff : ∀ values values' : List JsonValue, equalValues values values' = true ↔ values = values'
  | [], values' => by cases values' <;> simp [equalValues]
  | v :: values, values' => by cases values' <;> simp [equalValues, equals_iff v, equalValues_iff values]

theorem equalFields_iff : ∀ fields fields' : JsonObject, equalFields fields fields' = true ↔ fields = fields'
  | [], fields' => by cases fields' <;> simp [equalFields]
  | (key, v) :: fields, fields' => by
    cases fields' with
    | nil => simp [equalFields]
    | cons e fields' => simp [equalFields, equals_iff v, equalFields_iff fields, Prod.ext_iff]

end

instance : DecidableEq JsonValue := fun v v' => decidable_of_iff _ (equals_iff v v')

end Picojson
