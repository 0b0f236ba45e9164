import PPCNN.Lib.OrdMap

/-!
# `ppcnn_concurrent_mapqueue.hpp`

The map behind a queue is a `std::map`. Each function is one step: the lock is not part of the
model.
-/

set_option autoImplicit false

namespace Share

open Lib

variable {Tk Tv : Type} [LinearOrder Tk]

abbrev ConcurrentMapQueue (Tk Tv : Type) [LinearOrder Tk] := OrdMap Tk Tv

namespace ConcurrentMapQueue

def count (q : ConcurrentMapQueue Tk Tv) (key : Tk) : ℕ := if key ∈ q.keys then 1 else 0

def size (q : ConcurrentMapQueue Tk Tv) : ℕ := q.entries.length

def push (q : ConcurrentMapQueue Tk Tv) (key : Tk) (val : Tv) :
    Except String (ConcurrentMapQueue Tk Tv) :=
  if q.count key = 0 then .ok (q.emplace key val) else .error "key has already exist."

/-- `pop(Tk& key, Tv& val)`: the entry with the least key. -/
def pop (q : ConcurrentMapQueue Tk Tv) : Option ((Tk × Tv) × ConcurrentMapQueue Tk Tv) :=
  match q.entries with
  | [] => none
  | front :: _ => some (front, q.erase front.1)

/-- `pop(const Tk& key, Tv& val)`. -/
def popKey (q : ConcurrentMapQueue Tk Tv) (key : Tk) : Option (Tv × ConcurrentMapQueue Tk Tv) :=
  (q.find? key).map fun val => (val, q.erase key)

def get (q : ConcurrentMapQueue Tk Tv) (key : Tk) : Option Tv := q.find? key

variable {q q' : ConcurrentMapQueue Tk Tv} {key : Tk} {val : Tv}

theorem count_eq_zero : q.count key = 0 ↔ key ∉ q.keys := by
  unfold count
  split <;> simp_all

theorem push_eq_ok : q.push key val = .ok q' ↔ key ∉ q.keys ∧ q' = q.emplace key val := by
  unfold push
  by_cases h : q.count key = 0
  · simp [h, count_eq_zero.1 h, eq_comm]
  · simp [h, mt count_eq_zero.2 h]

theorem push_perm (h : q.push key val = .ok q') : q'.entries.Perm ((key, val) :: q.entries) := by
  obtain ⟨hkey, rfl⟩ := push_eq_ok.1 h
  exact OrdMap.emplace_perm val hkey

theorem pop_perm {e : Tk × Tv} (h : q.pop = some (e, q')) : q.entries.Perm (e :: q'.entries) := by
  unfold pop at h
  split at h
  · cases h
  · rename_i front rest hq
    cases h
    exact OrdMap.erase_perm (by rw [hq]; exact List.mem_cons_self)

theorem pop_entries {e : Tk × Tv} (h : q.pop = some (e, q')) : q.entries = e :: q'.entries := by
  unfold pop at h
  split at h
  · cases h
  · rename_i rest hq
    cases h
    have hsorted := q.sorted
    rw [hq, List.pairwise_cons] at hsorted
    have hrest : (q.erase e.1).entries = rest := by
      rw [OrdMap.erase]
      dsimp only
      rw [hq, List.filter_cons_of_neg (by simp)]
      exact List.filter_eq_self.2 fun e' he => by simpa using (hsorted.1 e' he).ne'
    rw [hrest, hq]

theorem popKey_perm (h : q.popKey key = some (val, q')) :
    q.entries.Perm ((key, val) :: q'.entries) := by
  obtain ⟨v, hv, he⟩ := Option.map_eq_some_iff.1 h
  cases he
  exact OrdMap.erase_perm (OrdMap.find?_eq_some.1 hv)

end ConcurrentMapQueue

end Share
