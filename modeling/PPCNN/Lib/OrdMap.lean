import Mathlib.Data.List.Sort

/-!
# Maps in the order of their keys

`OrdMap K V` is a finite map whose entries stand in the strict order of the keys, as the iterators
of an ordered container visit them. Inserting and removing are stated as permutations of the
entries, so that a collection spread over several maps can be followed as one list.
-/

set_option autoImplicit false

namespace Lib

structure OrdMap (K V : Type) [LinearOrder K] where
  entries : List (K × V)
  sorted : entries.Pairwise fun a b => a.1 < b.1

namespace OrdMap

variable {K V : Type} [LinearOrder K] (m : OrdMap K V)

def empty : OrdMap K V := ⟨[], .nil⟩

def keys : List K := m.entries.map Prod.fst

instance (k : K) : Decidable (k ∈ m.keys) := inferInstanceAs (Decidable (k ∈ m.entries.map Prod.fst))

def find? (k : K) : Option V := (m.entries.find? fun e => e.1 = k).map Prod.snd

def erase (k : K) : OrdMap K V := ⟨m.entries.filter fun e => e.1 ≠ k, m.sorted.filter _⟩

theorem keys_nodup : m.keys.Nodup :=
  List.pairwise_map.2 (m.sorted.imp fun h => ne_of_lt h)

theorem sorted_insert {k : K} (v : V) (h : k ∉ m.keys) :
    (m.entries.orderedInsert (fun a b => a.1 ≤ b.1) (k, v)).Pairwise fun a b => a.1 < b.1 := by
  let r : K × V → K × V → Prop := fun a b => a.1 ≤ b.1
  have : IsTrans (K × V) r := ⟨fun _ _ _ => le_trans⟩
  have : Std.Total r := ⟨fun a b => le_total a.1 b.1⟩
  have hle := List.Pairwise.orderedInsert (r := r) (k, v) m.entries (m.sorted.imp fun h => h.le)
  have hne : ((m.entries.orderedInsert r (k, v)).map Prod.fst).Nodup :=
    ((List.perm_orderedInsert r (k, v) m.entries).map Prod.fst).nodup_iff.2
      (List.nodup_cons.2 ⟨h, m.keys_nodup⟩)
  exact hle.imp₂ (fun _ _ => lt_of_le_of_ne) (List.pairwise_map.1 hne)

/-- Inserts the entry unless the key is there. -/
def emplace (k : K) (v : V) : OrdMap K V :=
  if h : k ∈ m.keys then m
  else ⟨m.entries.orderedInsert (fun a b => a.1 ≤ b.1) (k, v), m.sorted_insert v h⟩

variable {m}

@[simp] theorem entries_empty : (empty : OrdMap K V).entries = [] := rfl

theorem emplace_perm {k : K} (v : V) (h : k ∉ m.keys) :
    (m.emplace k v).entries.Perm ((k, v) :: m.entries) := by
  rw [emplace, dif_neg h]
  exact List.perm_orderedInsert _ _ _

theorem orderedInsert_of_lt {k : K} (v : V) {l : List (K × V)} (h : ∀ e ∈ l, e.1 < k) :
    l.orderedInsert (fun a b => a.1 ≤ b.1) (k, v) = l ++ [(k, v)] := by
  induction l with
  | nil => rfl
  | cons e l ih =>
    rw [List.orderedInsert_cons, if_neg (not_le.2 (h e List.mem_cons_self)),
      ih fun e' he => h e' (List.mem_cons_of_mem _ he), List.cons_append]

/-- A key behind all others goes to the end. -/
theorem entries_emplace_of_lt {k : K} (v : V) (h : ∀ k' ∈ m.keys, k' < k) :
    (m.emplace k v).entries = m.entries ++ [(k, v)] := by
  have hnot : k ∉ m.keys := fun hk => lt_irrefl k (h k hk)
  rw [emplace, dif_neg hnot]
  exact orderedInsert_of_lt v fun e he => h e.1 (List.mem_map.2 ⟨e, he, rfl⟩)

theorem mem_keys_iff {k : K} : k ∈ m.keys ↔ ∃ v, (k, v) ∈ m.entries := by
  simp [keys]

theorem entry_unique {k : K} {v w : V} (hv : (k, v) ∈ m.entries) (hw : (k, w) ∈ m.entries) :
    v = w :=
  congrArg Prod.snd (List.inj_on_of_nodup_map m.keys_nodup hv hw rfl)

theorem find?_eq_some {k : K} {v : V} : m.find? k = some v ↔ (k, v) ∈ m.entries := by
  constructor
  · intro h
    obtain ⟨⟨k', v'⟩, he, rfl⟩ := Option.map_eq_some_iff.1 h
    obtain rfl : k' = k := by simpa using List.find?_some he
    exact List.mem_of_find?_eq_some he
  · intro h
    cases hf : m.entries.find? fun e => e.1 = k with
    | none => exact absurd (List.find?_eq_none.1 hf _ h) (by simp)
    | some e =>
      obtain ⟨k', v'⟩ := e
      obtain rfl : k' = k := by simpa using List.find?_some hf
      rw [find?, hf, Option.map_some, entry_unique (List.mem_of_find?_eq_some hf) h]

theorem erase_perm {k : K} {v : V} (h : (k, v) ∈ m.entries) :
    m.entries.Perm ((k, v) :: (m.erase k).entries) := by
  refine (List.perm_ext_iff_of_nodup m.keys_nodup.of_map ?_).2 fun e => ?_
  · exact List.nodup_cons.2
      ⟨by simp [erase], m.keys_nodup.of_map.filter _⟩
  · obtain ⟨k', v'⟩ := e
    simp only [erase, List.mem_cons, List.mem_filter, decide_eq_true_eq]
    constructor
    · intro he
      by_cases hk : k' = k
      · subst hk
        exact .inl (by rw [entry_unique he h])
      · exact .inr ⟨he, hk⟩
    · rintro (he | he)
      · exact he ▸ h
      · exact he.1

theorem find?_eq_none {k : K} : m.find? k = none ↔ k ∉ m.keys := by
  rw [mem_keys_iff, Option.eq_none_iff_forall_ne_some]
  simp only [ne_eq, find?_eq_some, not_exists]

theorem emplace_of_mem {k : K} (v : V) (h : k ∈ m.keys) : m.emplace k v = m := by
  rw [emplace, dif_pos h]

/-- The first value under a key stays. -/
theorem find?_emplace_self (k : K) (v : V) : (m.emplace k v).find? k = some ((m.find? k).getD v) := by
  by_cases h : k ∈ m.keys
  · rw [emplace_of_mem v h]
    obtain ⟨w, hw⟩ := mem_keys_iff.1 h
    rw [find?_eq_some.2 hw]
    rfl
  · rw [find?_eq_none.2 h, find?_eq_some]
    exact (emplace_perm v h).mem_iff.2 List.mem_cons_self

theorem find?_emplace_ne {k k' : K} (v : V) (h : k' ≠ k) :
    (m.emplace k v).find? k' = m.find? k' := by
  by_cases hk : k ∈ m.keys
  · rw [emplace_of_mem v hk]
  · refine Option.ext fun w => ?_
    rw [find?_eq_some, find?_eq_some, (emplace_perm v hk).mem_iff, List.mem_cons]
    simp [h]

end OrdMap

end Lib
