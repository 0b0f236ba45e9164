import PPCNN.Lib.System
import PPCNN.Share.ConcurrentMapQueue

/-!
# Pushes at the same time (`ppcnn_concurrent_mapqueue.hpp`)

`push` looks for the key before it takes the lock, so a call is two steps with steps of other callers
between them, and `emplace` says nothing when the key has come in the meantime. A run drops a value
exactly if one of its insertions finds the key in the map (`nothingDropped_iff`).

* `Accounted s`: kept by every step. What is in the map or popped was brought by a call that returned, and
  no value is in two places.
* `Dropped s`: a call returned without its value. No later step repairs it.
-/

set_option autoImplicit false

namespace Share

open Lib

/-- A value with the number of the call that brings it. No step decides by the number. -/
structure Pushed (Tv : Type) where
  call : ℕ
  val : Tv
  deriving DecidableEq

inductive PushPhase where
  /-- the key was not in the map -/
  | checked
  | returned
  | raised (what : String)
  deriving DecidableEq

/-- A call of `push`. -/
structure PushCall (Tk Tv : Type) where
  key : Tk
  val : Tv
  phase : PushPhase
  deriving DecidableEq

/-- A queue that several threads use, with the calls of `push` so far and what `pop` has returned. -/
structure SharedQueue (Tk Tv : Type) [LinearOrder Tk] where
  queue : ConcurrentMapQueue Tk (Pushed Tv)
  pushes : List (PushCall Tk Tv)
  popped : List (Tk × Pushed Tv)

inductive QueueAction (Tk Tv : Type) where
  /-- a new call of `push`, to its check -/
  | check (key : Tk) (val : Tv)
  /-- the locked part of a call -/
  | insert (call : ℕ)
  | pop
  | popKey (key : Tk)
  | get (key : Tk)

variable {Tk Tv : Type} [LinearOrder Tk]

namespace SharedQueue

/-! ## Steps -/

def empty : SharedQueue Tk Tv := ⟨OrdMap.empty, [], []⟩

variable (s : SharedQueue Tk Tv)

/-- `push`, the check of the key. -/
def check (key : Tk) (val : Tv) : SharedQueue Tk Tv :=
  if s.queue.count key = 0 then { s with pushes := s.pushes ++ [⟨key, val, .checked⟩] }
  else { s with pushes := s.pushes ++ [⟨key, val, .raised "key has already exist."⟩] }

/-- `push`, the insertion under the lock. -/
def insert (i : ℕ) : Option (SharedQueue Tk Tv) :=
  match s.pushes[i]? with
  | some ⟨key, val, .checked⟩ =>
    some { s with
      queue := s.queue.emplace key ⟨i, val⟩
      pushes := s.pushes.set i ⟨key, val, .returned⟩ }
  | _ => none

/-- `pop(Tk& key, Tv& val)`; without an entry it returns false. -/
def pop : SharedQueue Tk Tv :=
  match s.queue.pop with
  | some (entry, queue) => { s with queue, popped := entry :: s.popped }
  | none => s

/-- `pop(const Tk& key, Tv& val)` -/
def popKey (key : Tk) : SharedQueue Tk Tv :=
  match s.queue.popKey key with
  | some (val, queue) => { s with queue, popped := (key, val) :: s.popped }
  | none => s

def step : QueueAction Tk Tv → Option (SharedQueue Tk Tv)
  | .check key val => some (s.check key val)
  | .insert call => s.insert call
  | .pop => some s.pop
  | .popKey key => some (s.popKey key)
  | .get _ => some s

variable (Tk Tv) in
def system : System (SharedQueue Tk Tv) (QueueAction Tk Tv) where
  init s := s = empty
  step := step

/-! ## What is asked of a run -/

/-- The values inserted so far, each in the map until a `pop` returns it. -/
def places : List (Tk × Pushed Tv) := s.queue.entries ++ s.popped

structure Accounted : Prop where
  /-- no value is popped twice, or popped and in the map -/
  once : (s.places.map fun e => e.2.call).Nodup
  own : ∀ e ∈ s.places, s.pushes[e.2.call]? = some ⟨e.1, e.2.val, .returned⟩
  raised : ∀ (i : ℕ) (key : Tk) (val : Tv) what, s.pushes[i]? = some ⟨key, val, .raised what⟩ →
    what = "key has already exist."

/-- Every call that returned has inserted its value. -/
structure NothingDropped : Prop extends Accounted s where
  inserted : ∀ (i : ℕ) (key : Tk) (val : Tv), s.pushes[i]? = some ⟨key, val, .returned⟩ →
    (key, ⟨i, val⟩) ∈ s.places

def Dropped : Prop :=
  ∃ (i : ℕ) (key : Tk) (val : Tv), s.pushes[i]? = some ⟨key, val, .returned⟩ ∧ (key, ⟨i, val⟩) ∉ s.places

/-- The key of an insertion is not in the map. -/
def KeyAbsent : QueueAction Tk Tv → Prop
  | .insert i => ∀ call ∈ s.pushes[i]?, call.key ∉ s.queue.keys
  | _ => True

instance (l : QueueAction Tk Tv) : Decidable (s.KeyAbsent l) :=
  match l with
  | .insert i => inferInstanceAs (Decidable (∀ call ∈ s.pushes[i]?, call.key ∉ s.queue.keys))
  | .check _ _ | .pop | .popKey _ | .get _ => isTrue trivial

/-! ## What a step does -/

variable {s} {s' : SharedQueue Tk Tv} {l : QueueAction Tk Tv}

theorem check_cases (s : SharedQueue Tk Tv) (key : Tk) (val : Tv) :
    ∃ phase, (phase = .checked ∨ phase = .raised "key has already exist.") ∧
      s.check key val = { s with pushes := s.pushes ++ [⟨key, val, phase⟩] } := by
  unfold check
  split
  · exact ⟨_, .inl rfl, rfl⟩
  · exact ⟨_, .inr rfl, rfl⟩

theorem insert_cases {i : ℕ} (h : s.insert i = some s') :
    ∃ key val, s.pushes[i]? = some ⟨key, val, .checked⟩ ∧ s' = { s with
      queue := s.queue.emplace key ⟨i, val⟩
      pushes := s.pushes.set i ⟨key, val, .returned⟩ } := by
  unfold insert at h
  split at h
  · rename_i key val hi
    exact ⟨key, val, hi, (Option.some.inj h).symm⟩
  · cases h

theorem pop_cases (s : SharedQueue Tk Tv) : s.pop.places.Perm s.places ∧ s.pop.pushes = s.pushes := by
  unfold pop
  split
  · rename_i entry queue hpop
    refine ⟨?_, rfl⟩
    show (queue.entries ++ entry :: s.popped).Perm (s.queue.entries ++ s.popped)
    exact List.perm_middle.trans ((ConcurrentMapQueue.pop_perm hpop).symm.append_right s.popped)
  · exact ⟨.refl _, rfl⟩

theorem popKey_cases (s : SharedQueue Tk Tv) (key : Tk) :
    (s.popKey key).places.Perm s.places ∧ (s.popKey key).pushes = s.pushes := by
  unfold popKey
  split
  · rename_i val queue hpop
    refine ⟨?_, rfl⟩
    show (queue.entries ++ (key, val) :: s.popped).Perm (s.queue.entries ++ s.popped)
    exact List.perm_middle.trans ((ConcurrentMapQueue.popKey_perm hpop).symm.append_right s.popped)
  · exact ⟨.refl _, rfl⟩

/-- A step adds a call, ends a call, or moves values to the popped ones. -/
theorem step_cases (h : s.step l = some s') :
    (∃ key val phase, (phase = .checked ∨ phase = .raised "key has already exist.") ∧
      s' = { s with pushes := s.pushes ++ [⟨key, val, phase⟩] } ∧ ∀ i, l ≠ .insert i) ∨
    (∃ i key val, l = .insert i ∧ s.pushes[i]? = some ⟨key, val, .checked⟩ ∧ s' = { s with
      queue := s.queue.emplace key ⟨i, val⟩
      pushes := s.pushes.set i ⟨key, val, .returned⟩ }) ∨
    (s'.places.Perm s.places ∧ s'.pushes = s.pushes ∧ ∀ i, l ≠ .insert i) := by
  cases l with
  | check key val =>
    cases h
    obtain ⟨phase, hphase, hcheck⟩ := check_cases s key val
    exact .inl ⟨key, val, phase, hphase, hcheck, fun _ he => by cases he⟩
  | insert i =>
    obtain ⟨key, val, hi, hs⟩ := insert_cases h
    exact .inr (.inl ⟨i, key, val, rfl, hi, hs⟩)
  | pop =>
    cases h
    exact .inr (.inr ⟨(pop_cases s).1, (pop_cases s).2, fun _ he => by cases he⟩)
  | popKey key =>
    cases h
    exact .inr (.inr ⟨(popKey_cases s key).1, (popKey_cases s key).2, fun _ he => by cases he⟩)
  | get key =>
    cases h
    exact .inr (.inr ⟨.refl _, rfl, fun _ he => by cases he⟩)

/-- Without a step of another caller between its two, a call is the sequential `push`. -/
theorem check_insert (s : SharedQueue Tk Tv) (key : Tk) (val : Tv) :
    (∀ queue, s.queue.push key ⟨s.pushes.length, val⟩ = .ok queue →
      (s.check key val).insert s.pushes.length =
        some ⟨queue, s.pushes ++ [⟨key, val, .returned⟩], s.popped⟩) ∧
    ∀ what, s.queue.push key ⟨s.pushes.length, val⟩ = .error what →
      s.check key val = { s with pushes := s.pushes ++ [⟨key, val, .raised what⟩] } := by
  by_cases hcount : s.queue.count key = 0
  · have hcheck : s.check key val = { s with pushes := s.pushes ++ [⟨key, val, .checked⟩] } :=
      if_pos hcount
    have hpush : s.queue.push key ⟨s.pushes.length, val⟩ =
        .ok (s.queue.emplace key ⟨s.pushes.length, val⟩) := if_pos hcount
    refine ⟨fun queue hqueue => ?_, fun what hwhat => ?_⟩
    · obtain rfl := Except.ok.inj (hpush.symm.trans hqueue)
      rw [hcheck]
      simp [insert]
    · cases hpush.symm.trans hwhat
  · have hcheck : s.check key val =
        { s with pushes := s.pushes ++ [⟨key, val, .raised "key has already exist."⟩] } := if_neg hcount
    have hpush : s.queue.push key ⟨s.pushes.length, val⟩ = .error "key has already exist." :=
      if_neg hcount
    refine ⟨fun queue hqueue => ?_, fun what hwhat => ?_⟩
    · cases hpush.symm.trans hqueue
    · cases hpush.symm.trans hwhat
      exact hcheck

/-! ## What holds in every run -/

theorem getElem?_concat {α : Type} {l : List α} {a b : α} {i : ℕ} (h : (l ++ [b])[i]? = some a) :
    l[i]? = some a ∨ a = b := by
  rw [List.getElem?_append] at h
  split at h
  · exact .inl h
  · right
    exact List.mem_singleton.1 (List.mem_of_getElem? h)

theorem getElem?_concat_of {α : Type} {l : List α} {a : α} {i : ℕ} (h : l[i]? = some a) (b : α) :
    (l ++ [b])[i]? = some a := by
  rw [List.getElem?_append_left (List.getElem?_eq_some_iff.1 h).1]
  exact h

theorem accounted_empty : (empty : SharedQueue Tk Tv).Accounted where
  once := .nil
  own _ he := by cases he
  raised i key val what h := by cases h

theorem Accounted.of_perm (h : s.Accounted) (hplaces : s'.places.Perm s.places)
    (hpushes : s'.pushes = s.pushes) : s'.Accounted where
  once := (hplaces.map _).nodup_iff.2 h.once
  own e he := by
    rw [hpushes]
    exact h.own e (hplaces.mem_iff.1 he)
  raised i key val what hi := h.raised i key val what (hpushes ▸ hi)

/-- The value of a call is in no place before it is inserted. -/
theorem Accounted.call_ne (h : s.Accounted) {i : ℕ} {key : Tk} {val : Tv}
    (hi : s.pushes[i]? = some ⟨key, val, .checked⟩) {e : Tk × Pushed Tv} (he : e ∈ s.places) :
    i ≠ e.2.call := by
  rintro rfl
  cases hi.symm.trans (h.own e he)

theorem places_emplace {key : Tk} (hkey : key ∉ s.queue.keys)
    (pushes : List (PushCall Tk Tv)) (i : ℕ) (val : Tv) :
    (places { s with queue := s.queue.emplace key ⟨i, val⟩, pushes }).Perm
      ((key, ⟨i, val⟩) :: s.places) :=
  (OrdMap.emplace_perm _ hkey).append_right s.popped

theorem places_emplace_of_mem {key : Tk} (hkey : key ∈ s.queue.keys)
    (pushes : List (PushCall Tk Tv)) (i : ℕ) (val : Tv) :
    places { s with queue := s.queue.emplace key ⟨i, val⟩, pushes } = s.places := by
  rw [places, places, OrdMap.emplace_of_mem _ hkey]

theorem Accounted.insert (h : s.Accounted) {i : ℕ} {key : Tk} {val : Tv}
    (hi : s.pushes[i]? = some ⟨key, val, .checked⟩) :
    Accounted { s with
      queue := s.queue.emplace key ⟨i, val⟩
      pushes := s.pushes.set i ⟨key, val, .returned⟩ } := by
  obtain ⟨hlt, -⟩ := List.getElem?_eq_some_iff.1 hi
  have hown : ∀ e ∈ s.places, (s.pushes.set i ⟨key, val, .returned⟩)[e.2.call]? =
      some ⟨e.1, e.2.val, .returned⟩ := by
    intro e he
    rw [List.getElem?_set_ne (h.call_ne hi he)]
    exact h.own e he
  have hraised : ∀ (j : ℕ) (key' : Tk) (val' : Tv) what,
      (s.pushes.set i ⟨key, val, .returned⟩)[j]? = some ⟨key', val', .raised what⟩ →
      what = "key has already exist." := by
    intro j key' val' what hj
    by_cases hij : i = j
    · subst hij
      rw [List.getElem?_set_self hlt] at hj
      cases hj
    · rw [List.getElem?_set_ne hij] at hj
      exact h.raised j key' val' what hj
  by_cases hkey : key ∈ s.queue.keys
  · have hplaces := places_emplace_of_mem hkey (s.pushes.set i ⟨key, val, .returned⟩) i val
    refine ⟨?_, ?_, hraised⟩
    · rw [hplaces]
      exact h.once
    · rw [hplaces]
      exact hown
  · have hplaces := places_emplace hkey (s.pushes.set i ⟨key, val, .returned⟩) i val
    refine ⟨?_, fun e he => ?_, hraised⟩
    · rw [(hplaces.map _).nodup_iff, List.map_cons, List.nodup_cons]
      refine ⟨fun hmem => ?_, h.once⟩
      obtain ⟨e, he, hcall⟩ := List.mem_map.1 hmem
      exact h.call_ne hi he hcall.symm
    · rcases List.mem_cons.1 (hplaces.mem_iff.1 he) with rfl | he
      · exact List.getElem?_set_self hlt
      · exact hown e he

theorem Accounted.step (h : s.Accounted) (hs : s.step l = some s') : s'.Accounted := by
  rcases step_cases hs with ⟨key, val, phase, hphase, rfl, -⟩ | ⟨i, key, val, -, hi, rfl⟩ | hmoved
  · refine ⟨h.once, fun e he => getElem?_concat_of (h.own e he) _, fun i key' val' what hi => ?_⟩
    rcases getElem?_concat hi with hi | hnew
    · exact h.raised i key' val' what hi
    · rcases hphase with rfl | rfl
      · cases hnew
      · cases hnew
        rfl
  · exact h.insert hi
  · exact h.of_perm hmoved.1 hmoved.2.1

/-! ## When nothing is dropped -/

theorem nothingDropped_empty : (empty : SharedQueue Tk Tv).NothingDropped where
  toAccounted := accounted_empty
  inserted i key val h := by cases h

theorem NothingDropped.not_dropped (h : s.NothingDropped) : ¬s.Dropped := by
  rintro ⟨i, key, val, hi, hnot⟩
  exact hnot (h.inserted i key val hi)

theorem NothingDropped.step (h : s.NothingDropped) (hok : s.KeyAbsent l) (hs : s.step l = some s') :
    s'.NothingDropped := by
  refine ⟨h.toAccounted.step hs, fun j key' val' hj => ?_⟩
  rcases step_cases hs with ⟨key, val, phase, hphase, rfl, -⟩ | ⟨i, key, val, rfl, hi, rfl⟩ | hmoved
  · rcases getElem?_concat hj with hj | hnew
    · exact h.inserted j key' val' hj
    · rcases hphase with rfl | rfl
      · cases hnew
      · cases hnew
  · obtain ⟨hlt, -⟩ := List.getElem?_eq_some_iff.1 hi
    rw [(places_emplace (hok _ hi) _ i val).mem_iff, List.mem_cons]
    by_cases hij : i = j
    · subst hij
      cases (List.getElem?_set_self hlt).symm.trans hj
      exact .inl rfl
    · rw [List.getElem?_set_ne hij] at hj
      exact .inr (h.inserted j key' val' hj)
  · rw [hmoved.1.mem_iff]
    exact h.inserted j key' val' (hmoved.2.1 ▸ hj)

theorem keyAbsent_of_ne_insert (hl : ∀ i, l ≠ .insert i) : s.KeyAbsent l := by
  cases l with
  | insert i => exact absurd rfl (hl i)
  | _ => exact trivial

/-- An insertion that finds its key drops its value. -/
theorem Accounted.drops (h : s.Accounted) (hok : ¬s.KeyAbsent l) (hs : s.step l = some s') :
    s'.Dropped := by
  rcases step_cases hs with ⟨_, _, _, -, -, hl⟩ | ⟨i, key, val, rfl, hi, rfl⟩ | ⟨-, -, hl⟩
  · exact absurd (keyAbsent_of_ne_insert hl) hok
  · obtain ⟨hlt, -⟩ := List.getElem?_eq_some_iff.1 hi
    have hkey : key ∈ s.queue.keys := by
      by_contra hkey
      refine hok fun call hcall => ?_
      obtain rfl := Option.some.inj (hi.symm.trans hcall)
      exact hkey
    refine ⟨i, key, val, List.getElem?_set_self hlt, fun hmem => ?_⟩
    rw [places_emplace_of_mem hkey] at hmem
    exact h.call_ne hi hmem rfl
  · exact absurd (keyAbsent_of_ne_insert hl) hok

/-- A dropped value stays dropped. -/
theorem Dropped.step (h : s.Dropped) (hs : s.step l = some s') : s'.Dropped := by
  obtain ⟨j, key', val', hj, hnot⟩ := h
  rcases step_cases hs with ⟨key, val, phase, -, rfl, -⟩ | ⟨i, key, val, -, hi, rfl⟩ | hmoved
  · exact ⟨j, key', val', getElem?_concat_of hj _, hnot⟩
  · have hij : i ≠ j := by
      rintro rfl
      cases hi.symm.trans hj
    refine ⟨j, key', val', by rw [List.getElem?_set_ne hij]; exact hj, fun hmem => hnot ?_⟩
    by_cases hkey : key ∈ s.queue.keys
    · rw [places_emplace_of_mem hkey] at hmem
      exact hmem
    · rcases List.mem_cons.1 ((places_emplace hkey _ i val).mem_iff.1 hmem) with heq | hmem
      · cases heq
        exact absurd rfl hij
      · exact hmem
  · refine ⟨j, key', val', hmoved.2.1 ▸ hj, ?_⟩
    rw [hmoved.1.mem_iff]
    exact hnot

/-- After any run, every push that returned has inserted its value, and no value is lost or popped twice,
exactly if each insertion of the run was made with its key not in the map. -/
theorem nothingDropped_iff {s : SharedQueue Tk Tv} {actions : List (QueueAction Tk Tv)}
    (hrun : (system Tk Tv).run System.anyStep empty actions = some s) :
    s.NothingDropped ↔ (system Tk Tv).run KeyAbsent empty actions = some s :=
  System.run_iff (fun _ _ _ h hok hs => h.step hok hs) (fun _ _ _ h hok hs => h.toAccounted.drops hok hs)
    (fun _ _ _ h hs => h.step hs) (fun _ h => h.not_dropped) nothingDropped_empty hrun

/-- Two calls with one key, both checked before either inserts. -/
def sameKey : List (QueueAction ℕ ℕ) := [.check 5 7, .check 5 8, .insert 0, .insert 1, .pop]

/-- Both calls return, and the value of the second is nowhere. -/
theorem nothingDropped_iff_differs : ∃ s, (system ℕ ℕ).run System.anyStep empty sameKey = some s ∧
    s.pushes = [⟨5, 7, .returned⟩, ⟨5, 8, .returned⟩] ∧ s.places = [(5, ⟨0, 7⟩)] ∧ ¬s.NothingDropped := by
  have hrun : ((system ℕ ℕ).run System.anyStep empty sameKey).map (fun s => (s.pushes, s.places)) =
      some ([⟨5, 7, .returned⟩, ⟨5, 8, .returned⟩], [(5, ⟨0, 7⟩)]) := by decide
  obtain ⟨s, hs, hvalues⟩ := Option.map_eq_some_iff.1 hrun
  obtain ⟨hpushes, hplaces⟩ := Prod.mk.inj hvalues
  refine ⟨s, hs, hpushes, hplaces, fun hnothing => ?_⟩
  have hmem := hnothing.inserted 1 5 8 (by rw [hpushes]; rfl)
  rw [hplaces] at hmem
  exact absurd hmem (by decide)

/-- Calls with two keys, and a third one whose key is there. -/
def twoKeys : List (QueueAction ℕ ℕ) :=
  [.check 5 7, .check 4 8, .insert 1, .insert 0, .check 5 9, .pop, .popKey 5]

theorem nothingDropped_iff_sample :
    ∃ s, (system ℕ ℕ).run System.anyStep empty twoKeys = some s ∧
      s.popped = [(5, ⟨0, 7⟩), (4, ⟨1, 8⟩)] ∧ s.NothingDropped := by
  have hrun : ((system ℕ ℕ).run KeyAbsent empty twoKeys).map (fun s => s.popped) =
      some [(5, ⟨0, 7⟩), (4, ⟨1, 8⟩)] := by decide
  obtain ⟨s, hs, hpopped⟩ := Option.map_eq_some_iff.1 hrun
  have hany := System.run_any hs
  exact ⟨s, hany, hpopped, (nothingDropped_iff hany).2 hs⟩

end SharedQueue

end Share
