import PPCNN.Share.ParamsText

/-!
# Records one after the other (`ppcnn_cli2srvparam.cpp`, `ppcnn_srv2cliparam.cpp`)

Two things spoil what has been written. A `Srv2CliParam` ends without a newline, and its size goes on in
the next number: then fewer numbers are left than are asked for, and the last one keeps what its target
held (`exists_targets_behind`). A query is copied without its NUL, and its arrays keep what stood behind it
(`exists_targets_query`). Otherwise the records are read back (`roundTrips_iff`).
-/

set_option autoImplicit false

namespace Share

open Lib

namespace Record

/-! ## Records that run into each other -/

section

variable {r r' : Record} {is is' : TextIn} {t ts : List UInt8} {rs rs' : List Record}

/-- How many numbers a record has. -/
def numbers : Record → ℕ
  | .c2sEnckey _ => 4
  | .c2sQuery _ => 8
  | .c2sResreq _ => 1
  | .srv2Cli _ => 2

theorem srv2Cli_read_ok {p p' : Srv2CliParam} (h : p.read is = .ok (p', is')) :
    is' = ((is.read NumFormat.int32).2.read NumFormat.sizeT).2 ∧
      p'.encResultsStreamSz =
        ((is.read NumFormat.int32).2.read NumFormat.sizeT).1.getD p.encResultsStreamSz := by
  unfold Srv2CliParam.read at h
  dsimp only at h
  split at h
  · cases h
    exact ⟨rfl, rfl⟩
  · cases h

theorem behind_read {k : ℕ} (hquery : ∀ param, r ≠ .c2sQuery param) (h : is.Behind (k + r.numbers))
    (hread : r.read is = .ok (r', is')) : is'.Behind k := by
  cases r with
  | c2sEnckey p =>
    cases hread
    exact (((h.read _).read _).read _).read _
  | c2sQuery p => exact absurd rfl (hquery p)
  | c2sResreq p =>
    cases hread
    exact h.read _
  | srv2Cli p =>
    obtain ⟨⟨p', is1⟩, hp, heq⟩ := map_eq_ok.1 hread
    cases heq
    obtain ⟨rfl, -⟩ := srv2Cli_read_ok hp
    exact (h.read _).read _

theorem exists_other {α : Type} [DecidableEq α] {a b : α} (hab : a ≠ b) (x : α) : ∃ v, x ≠ v := by
  by_cases hx : x = a
  · exact ⟨b, hx ▸ hab⟩
  · exact ⟨a, hx⟩

/-- A target that shows that the last number was not there. -/
theorem exists_target_behind (hquery : ∀ param, r ≠ .c2sQuery param) :
    ∃ target, SameKind r target ∧ ∀ is r' is', is.Behind r.numbers → target.read is = .ok (r', is') →
      ¬Same r r' := by
  cases r with
  | c2sEnckey p =>
    obtain ⟨v, hv⟩ := exists_other (show (0 : UInt64) ≠ 1 by decide) p.relinkeyStreamSz
    refine ⟨.c2sEnckey { p with relinkeyStreamSz := v }, .c2sEnckey _ _, fun is r' is' h hread hsame => ?_⟩
    cases hread
    have hlast := (((h.read NumFormat.int32).read NumFormat.sizeT).read NumFormat.sizeT).read_last
      NumFormat.sizeT
    refine hv (hsame.2.2.2.trans ?_)
    show Option.getD (TextIn.read NumFormat.sizeT _).1 v = v
    rw [hlast]
    rfl
  | c2sQuery p => exact absurd rfl (hquery p)
  | c2sResreq p =>
    obtain ⟨v, hv⟩ := exists_other (show (0 : Int32) ≠ 1 by decide) p.queryId
    refine ⟨.c2sResreq ⟨v⟩, .c2sResreq _ _, fun is r' is' h hread hsame => ?_⟩
    cases hread
    refine hv (hsame.trans ?_)
    show Option.getD (TextIn.read NumFormat.int32 _).1 v = v
    rw [h.read_last]
    rfl
  | srv2Cli p =>
    obtain ⟨v, hv⟩ := exists_other (show (0 : UInt64) ≠ 1 by decide) p.encResultsStreamSz
    refine ⟨.srv2Cli { p with encResultsStreamSz := v }, .srv2Cli _ _, fun is r' is' h hread hsame => ?_⟩
    obtain ⟨⟨p', is1⟩, hp, heq⟩ := map_eq_ok.1 hread
    cases heq
    refine hv (hsame.2.trans ?_)
    rw [(srv2Cli_read_ok hp).2, (h.read _).read_last]
    rfl

theorem sameKind_refl (r : Record) : SameKind r r := by
  cases r with
  | c2sEnckey p => exact .c2sEnckey p p
  | c2sQuery p => exact .c2sQuery p p
  | c2sResreq p => exact .c2sResreq p p
  | srv2Cli p => exact .srv2Cli p p

theorem readAll_cons {targets : List Record} (h : readAll (r :: targets) is = .ok rs') :
    ∃ r' is' rs'', r.read is = .ok (r', is') ∧ readAll targets is' = .ok rs'' ∧ rs' = r' :: rs'' := by
  obtain ⟨⟨r', is'⟩, hread, h⟩ := bind_eq_ok.1 h
  obtain ⟨rs'', hreads, h⟩ := bind_eq_ok.1 h
  exact ⟨r', is', rs'', hread, hreads, (Except.ok.inj h).symm⟩

theorem exists_targets_behind (hne : rs ≠ []) (hquery : ∀ param, .c2sQuery param ∉ rs) :
    ∃ targets, List.Forall₂ SameKind rs targets ∧ ∀ is rs', is.Behind (rs.map numbers).sum →
      readAll targets is = .ok rs' → ¬List.Forall₂ Same rs rs' := by
  induction rs with
  | nil => exact absurd rfl hne
  | cons r rs ih =>
    obtain ⟨hhead, hquery'⟩ := noQuery_cons hquery
    by_cases hrs : rs = []
    · subst hrs
      obtain ⟨target, hkind, hbehind⟩ := exists_target_behind hhead
      refine ⟨[target], .cons hkind .nil, fun is rs' h hall hsames => ?_⟩
      obtain ⟨r', is', rs'', hread, -, rfl⟩ := readAll_cons hall
      rw [List.map_singleton, List.sum_singleton] at h
      exact hbehind is r' is' h hread (List.forall₂_cons.1 hsames).1
    · obtain ⟨targets, hkinds, hbehind⟩ := ih hrs hquery'
      refine ⟨r :: targets, .cons (sameKind_refl r) hkinds, fun is rs' h hall hsames => ?_⟩
      obtain ⟨r', is', rs'', hread, hreads, rfl⟩ := readAll_cons hall
      rw [List.map_cons, List.sum_cons, Nat.add_comm] at h
      exact hbehind is' rs'' (behind_read hhead h hread) hreads (List.forall₂_cons.1 hsames).2

/-! ### Counting what is written -/

theorem digitRuns_line {α : Type} (F : NumFormat α) (a : α) (cs : List UInt8) :
    TextIn.digitRuns (line (F.text a) ++ cs) = 1 + TextIn.digitRuns cs := by
  rw [line, NumFormat.text, List.append_assoc, TextIn.digitRuns_decimalInt,
    TextIn.runsFrom_of_head (newline_not_digit cs), TextIn.digitRuns_skip (List.forall_mem_singleton.2 rfl)]

theorem signed_line {α : Type} (F : NumFormat α) (a : α) : TextIn.Signed (line (F.text a)) :=
  (TextIn.signed_decimalInt _).append (TextIn.signed_of_all (List.forall_mem_singleton.2 (.inl rfl)))

/-- A record is as many numbers, but the last one may go on in what follows a `Srv2CliParam`. -/
theorem digitRuns_text (hquery : ∀ param, r ≠ .c2sQuery param) (ht : r.text = .ok t) (cs : List UInt8) :
    TextIn.Signed t ∧ TextIn.digitRuns (t ++ cs) ≤ r.numbers + TextIn.digitRuns cs ∧
      ∀ param, r = .srv2Cli param → TextIn.digitRuns (t ++ cs) = r.numbers + TextIn.runsFrom true cs := by
  cases r with
  | c2sEnckey p =>
    cases ht
    have hruns : TextIn.digitRuns (p.text ++ cs) = 4 + TextIn.digitRuns cs := by
      simp only [C2SEnckeyParam.text, List.append_assoc, digitRuns_line]
      omega
    refine ⟨?_, hruns.le, fun _ he => by cases he⟩
    exact (signed_line _ _).append ((signed_line _ _).append ((signed_line _ _).append (signed_line _ _)))
  | c2sQuery p => exact absurd rfl (hquery p)
  | c2sResreq p =>
    cases ht
    exact ⟨signed_line _ _, (digitRuns_line _ _ _).le, fun _ he => by cases he⟩
  | srv2Cli p =>
    cases ht
    have hruns : TextIn.digitRuns (p.text ++ cs) = 2 + TextIn.runsFrom true cs := by
      rw [Srv2CliParam.text, List.append_assoc, digitRuns_line, NumFormat.text, TextIn.digitRuns_decimalInt]
      omega
    refine ⟨(signed_line _ _).append (TextIn.signed_decimalInt _), ?_, fun _ _ => hruns⟩
    rw [hruns]
    exact Nat.add_le_add_left (TextIn.runsFrom_le cs) 2

theorem not_separated_cons (h : ¬Separated (r :: rs)) :
    ¬Separated rs ∨ ∃ p r' rs', r = .srv2Cli p ∧ rs = r' :: rs' ∧ ¬r'.first < 0 := by
  cases r with
  | srv2Cli p =>
    cases rs with
    | nil => exact absurd trivial h
    | cons r' rs =>
      by_cases hfirst : r'.first < 0
      · exact .inl fun hrs => h ⟨hfirst, hrs⟩
      · exact .inr ⟨p, r', rs, rfl, rfl, hfirst⟩
  | _ => exact .inl h

/-- Not separated, records are fewer numbers than they were. -/
theorem digitRuns_textAll (hquery : ∀ param, .c2sQuery param ∉ rs) (hts : textAll rs = .ok ts) :
    TextIn.Signed ts ∧ TextIn.digitRuns ts ≤ (rs.map numbers).sum ∧
      (¬Separated rs → TextIn.digitRuns ts < (rs.map numbers).sum) := by
  induction rs generalizing ts with
  | nil =>
    cases hts
    exact ⟨trivial, Nat.le_refl _, fun h => absurd trivial h⟩
  | cons r rs ih =>
    obtain ⟨t, ts', ht, hts', rfl⟩ := textAll_cons hts
    obtain ⟨hhead, hquery'⟩ := noQuery_cons hquery
    obtain ⟨hsigned, hle, hlt⟩ := ih hquery' hts'
    obtain ⟨hsigned', hle', hsrv⟩ := digitRuns_text hhead ht ts'
    rw [List.map_cons, List.sum_cons]
    refine ⟨hsigned'.append hsigned, by omega, fun hnot => ?_⟩
    rcases not_separated_cons hnot with hnot | ⟨p, r', rs', rfl, rfl, hfirst⟩
    · have := hlt hnot
      omega
    · obtain ⟨t', ts'', ht', -, rfl⟩ := textAll_cons hts'
      obtain ⟨c, cs, rfl, hc⟩ := exists_digit_text ht' hfirst
      have hshort := TextIn.runsFrom_of_digit hc (cs ++ ts'')
      have hcount := hsrv p rfl
      rw [List.cons_append] at hcount hle ⊢
      omega

theorem not_roundTrips_of_not_separated (hquery : ∀ param, .c2sQuery param ∉ rs) (h : ¬Separated rs) :
    ¬RoundTrips rs := by
  rintro ⟨ts, hts, hback⟩
  have hne : rs ≠ [] := by
    rintro rfl
    exact h trivial
  obtain ⟨hsigned, -, hlt⟩ := digitRuns_textAll hquery hts
  obtain ⟨targets, hkinds, hbehind⟩ := exists_targets_behind hne hquery
  obtain ⟨rs', hread, hsames⟩ := hback targets hkinds
  exact hbehind (.ofText ts) rs' (.inr ⟨hlt h, hsigned⟩) hread hsames

end

end Record

/-! ## Queries -/

section

variable {n : ℕ} {array array' : Vector UInt8 n} {str : List UInt8} {count : ℕ}

theorem cString_of_not_mem (h : 0 ∉ array.toList) : cString array = .error .outOfBuffer := if_neg h

/-- Copying brings no NUL. -/
theorem zero_not_mem_copyTo (h : copyTo str array count = .ok array') (hstr : 0 ∉ str)
    (harray : 0 ∉ array.toList) : 0 ∉ array'.toList := by
  unfold copyTo at h
  split at h
  · cases h
    intro hmem
    rw [Vector.toList_ofFn, List.mem_ofFn] at hmem
    obtain ⟨i, hi⟩ := hmem
    rw [List.getD_eq_getElem?_getD] at hi
    cases hget : (str.take count)[i.val]? with
    | none =>
      rw [hget, Option.getD_none] at hi
      exact harray (hi ▸ Vector.mem_toList_iff.2 (Vector.getElem_mem i.isLt))
    | some c =>
      rw [hget, Option.getD_some] at hi
      exact hstr (hi ▸ List.mem_of_mem_take (List.mem_of_getElem? hget))
  · cases h

end

section

variable {is is' : TextIn}

/-- The dataset is the first word, copied over what was there. -/
theorem ComputationParams.read_ok {params params' : ComputationParams}
    (h : params.read is = .ok (params', is')) :
    is'.rest <:+ is.rest ∧ ∃ word, (∀ c ∈ word, c ∈ is.rest) ∧
      copyTo word params.dataset word.length = .ok params'.dataset := by
  unfold ComputationParams.read at h
  dsimp only at h
  obtain ⟨datasetArray, hdataset, h⟩ := bind_eq_ok.1 h
  obtain ⟨modelArray, hmodel, h⟩ := bind_eq_ok.1 h
  cases h
  have hlabels := (TextIn.read_suffix NumFormat.sizeT _).trans ((TextIn.read_suffix NumFormat.sizeT _).trans
    ((TextIn.read_suffix NumFormat.sizeT _).trans (TextIn.read_suffix NumFormat.sizeT is)))
  refine ⟨?_, _, fun c hc => ?_, hdataset⟩
  · exact (TextIn.read_suffix NumFormat.int32 _).trans ((TextIn.read_suffix NumFormat.int32 _).trans
      ((TextIn.readWord_suffix [] _).trans ((TextIn.readWord_suffix [] _).trans hlabels)))
  · rcases TextIn.mem_readWord hc with hnone | hrest
    · cases hnone
    · exact hlabels.subset hrest

end

namespace Record

section

variable {r r' : Record} {is is' : TextIn} {t ts : List UInt8} {rs rs' : List Record}

theorem read_suffix (h : r.read is = .ok (r', is')) : is'.rest <:+ is.rest := by
  cases r with
  | c2sEnckey p =>
    cases h
    exact (TextIn.read_suffix NumFormat.sizeT _).trans ((TextIn.read_suffix NumFormat.sizeT _).trans
      ((TextIn.read_suffix NumFormat.sizeT _).trans (TextIn.read_suffix NumFormat.int32 is)))
  | c2sQuery p =>
    obtain ⟨⟨p', is1⟩, hp, heq⟩ := map_eq_ok.1 h
    cases heq
    obtain ⟨⟨compParams, is2⟩, hcomp, hp⟩ := bind_eq_ok.1 hp
    cases hp
    exact (TextIn.read_suffix NumFormat.int32 _).trans ((TextIn.read_suffix NumFormat.sizeT is2).trans
      (ComputationParams.read_ok hcomp).1)
  | c2sResreq p =>
    cases h
    exact TextIn.read_suffix NumFormat.int32 is
  | srv2Cli p =>
    obtain ⟨⟨p', is1⟩, hp, heq⟩ := map_eq_ok.1 h
    cases heq
    obtain ⟨rfl, -⟩ := srv2Cli_read_ok hp
    exact (TextIn.read_suffix NumFormat.sizeT _).trans (TextIn.read_suffix NumFormat.int32 is)

theorem zero_not_mem_number {α : Type} (F : NumFormat α) (a : α) : 0 ∉ F.text a := by
  intro h
  rcases mem_decimalInt h with h | h
  · cases h
  · cases h

theorem zero_not_mem_line {text : List UInt8} (h : 0 ∉ text) : 0 ∉ line text := by
  intro hmem
  rcases List.mem_append.1 hmem with hmem | hmem
  · exact h hmem
  · cases List.mem_singleton.1 hmem

theorem zero_not_mem_text (ht : r.text = .ok t) : 0 ∉ t := by
  have hnumber : ∀ {α : Type} (F : NumFormat α) (a : α), 0 ∉ line (F.text a) :=
    fun F a => zero_not_mem_line (zero_not_mem_number F a)
  cases r with
  | c2sEnckey p =>
    cases ht
    simp only [C2SEnckeyParam.text, List.mem_append, hnumber, or_self, not_false_eq_true]
  | c2sQuery p =>
    obtain ⟨dataset, model, hdataset, hmodel, rfl⟩ := C2SQueryParam.text_cases ht
    have hdataset' := zero_not_mem_line (zero_not_mem_cString hdataset)
    have hmodel' := zero_not_mem_line (zero_not_mem_cString hmodel)
    simp only [List.mem_append, hnumber, hdataset', hmodel', or_self, not_false_eq_true]
  | c2sResreq p =>
    cases ht
    exact hnumber _ _
  | srv2Cli p =>
    cases ht
    simp only [Srv2CliParam.text, List.mem_append, hnumber, zero_not_mem_number, or_self,
      not_false_eq_true]

theorem zero_not_mem_textAll (hts : textAll rs = .ok ts) : 0 ∉ ts := by
  induction rs generalizing ts with
  | nil =>
    cases hts
    exact List.not_mem_nil
  | cons r rs ih =>
    obtain ⟨t, ts', ht, hts', rfl⟩ := textAll_cons hts
    rw [List.mem_append]
    rintro (h | h)
    · exact zero_not_mem_text ht h
    · exact ih hts' h

/-- An array without a NUL. -/
def filled : Vector UInt8 1024 := .replicate 1024 120

theorem zero_not_mem_filled : 0 ∉ filled.toList := by
  rw [filled, Vector.toList_replicate, List.mem_replicate]
  rintro ⟨-, h⟩
  cases h

/-- A query is not read back into arrays without a NUL. -/
theorem read_filled {p : C2SQueryParam} (ht : (c2sQuery p).text = .ok t) (his : 0 ∉ is.rest)
    (hread : (c2sQuery { p with compParams := { p.compParams with dataset := filled } }).read is =
      .ok (r', is')) : ¬Same (.c2sQuery p) r' := by
  intro hsame
  obtain ⟨dataset, -, hdataset, -⟩ := C2SQueryParam.text_cases ht
  obtain ⟨⟨p', is1⟩, hp, heq⟩ := map_eq_ok.1 hread
  cases heq
  obtain ⟨⟨compParams, is2⟩, hcomp, hp⟩ := bind_eq_ok.1 hp
  cases hp
  obtain ⟨-, word, hword, hcopy⟩ := ComputationParams.read_ok hcomp
  have hzero := zero_not_mem_copyTo hcopy (fun h => his (hword 0 h)) zero_not_mem_filled
  have hequal := hsame.2.2.2.2.1
  rw [hdataset] at hequal
  cases hequal.trans (cString_of_not_mem hzero)

theorem exists_targets_query {p : C2SQueryParam} (hmem : .c2sQuery p ∈ rs) (hts : textAll rs = .ok ts) :
    ∃ targets, List.Forall₂ SameKind rs targets ∧ ∀ is rs', 0 ∉ is.rest →
      readAll targets is = .ok rs' → ¬List.Forall₂ Same rs rs' := by
  induction rs generalizing ts with
  | nil => cases hmem
  | cons r rs ih =>
    obtain ⟨t, ts', ht, hts', rfl⟩ := textAll_cons hts
    rcases List.mem_cons.1 hmem with rfl | hmem
    · refine ⟨.c2sQuery { p with compParams := { p.compParams with dataset := filled } } :: rs,
        .cons (.c2sQuery _ _) (List.forall₂_same.2 fun r _ => sameKind_refl r),
        fun is rs' his hall hsames => ?_⟩
      obtain ⟨r', is', rs'', hread, -, rfl⟩ := readAll_cons hall
      exact read_filled ht his hread (List.forall₂_cons.1 hsames).1
    · obtain ⟨targets, hkinds, hnot⟩ := ih hmem hts'
      refine ⟨r :: targets, .cons (sameKind_refl r) hkinds, fun is rs' his hall hsames => ?_⟩
      obtain ⟨r', is', rs'', hread, hreads, rfl⟩ := readAll_cons hall
      exact hnot is' rs'' (fun h => his ((read_suffix hread).subset h)) hreads
        (List.forall₂_cons.1 hsames).2

theorem not_roundTrips_of_query {p : C2SQueryParam} (hmem : .c2sQuery p ∈ rs) : ¬RoundTrips rs := by
  rintro ⟨ts, hts, hback⟩
  obtain ⟨targets, hkinds, hnot⟩ := exists_targets_query hmem hts
  obtain ⟨rs', hread, hsames⟩ := hback targets hkinds
  exact hnot (.ofText ts) rs' (zero_not_mem_textAll hts) hread hsames

end

/-- Records written to one stream are read back into any targets exactly if none of them is a query, and
what follows each `Srv2CliParam` begins with a minus. -/
theorem roundTrips_iff (rs : List Record) :
    RoundTrips rs ↔ (∀ param, .c2sQuery param ∉ rs) ∧ Separated rs := by
  constructor
  · intro h
    have hquery : ∀ param, .c2sQuery param ∉ rs := fun param hmem => not_roundTrips_of_query hmem h
    refine ⟨hquery, ?_⟩
    by_contra hseparated
    exact not_roundTrips_of_not_separated hquery hseparated h
  · rintro ⟨hquery, hseparated⟩
    exact roundTrips_of_separated hquery hseparated

section Sample

/-- Two responses with the sizes 5 and 7. -/
def sampleResponses : List Record :=
  [.srv2Cli ⟨kServerCalcResultSuccess, .replicate 4 0, 5⟩,
    .srv2Cli ⟨kServerCalcResultSuccess, .replicate 4 0, 7⟩]

/-- The dataset is `mnist` and the model `HCNN`. -/
def sampleQuery : C2SQueryParam where
  compParams :=
    ⟨28, 28, 1, 10, padded 1024 [109, 110, 105, 115, 116], padded 1024 [72, 67, 78, 78], 1, 0⟩
  encInputsStreamSz := 100
  keyId := 1
  padding := .replicate 4 0

/-- The first size is read as 50, and the second response as the result 7 with its old size. The query is
not read back either. -/
theorem roundTrips_iff_differs :
    (∃ text, textAll sampleResponses = .ok text ∧ readAll sampleResponses (.ofText text) =
      .ok [.srv2Cli ⟨0, .replicate 4 0, 50⟩, .srv2Cli ⟨7, .replicate 4 0, 7⟩]) ∧
    ¬RoundTrips sampleResponses ∧
    (∃ dataset model, cString sampleQuery.compParams.dataset = .ok dataset ∧ IsWord dataset ∧
      cString sampleQuery.compParams.model = .ok model ∧ IsWord model) ∧
    ¬RoundTrips [.c2sQuery sampleQuery] := by
  refine ⟨⟨[48, 10, 53, 48, 10, 55], rfl, rfl⟩, ?_, ?_, ?_⟩
  · refine not_roundTrips_of_not_separated (fun param => ?_) ?_
    · simp [sampleResponses]
    · exact fun h => absurd h.1 (by decide)
  · have hdataset : IsWord [109, 110, 105, 115, 116] := ⟨List.cons_ne_nil _ _, by simp [isSpace]⟩
    have hmodel : IsWord [72, 67, 78, 78] := ⟨List.cons_ne_nil _ _, by simp [isSpace]⟩
    exact ⟨_, _, cString_padded (by decide) (by decide), hdataset,
      cString_padded (by decide) (by decide), hmodel⟩
  · exact not_roundTrips_of_query (List.mem_singleton_self _)

end Sample

end Record

end Share
