import Mathlib.Logic.Function.Basic

/-!
# Systems that take steps

A system has initial states and a guarded step function: `step s l` is `none` where the action `l`
is not enabled. Reachability takes a condition `ok` on the steps of a run, so that one definition
serves for all runs (`fun _ _ => True`) and for the runs whose steps meet a condition.
-/

set_option autoImplicit false

namespace Lib

structure System (S L : Type) where
  init : S → Prop
  step : S → L → Option S

namespace System

variable {S L : Type} (sys : System S L)

/-- Reachable by steps that meet `ok` in the state they start in. -/
inductive Reachable (ok : S → L → Prop) : S → Prop
  | init {s : S} : sys.init s → Reachable ok s
  | step {s s' : S} {l : L} : Reachable ok s → ok s l → sys.step s l = some s' → Reachable ok s'

/-- The condition that every step meets. -/
def anyStep (_ : S) (_ : L) : Prop := True

instance (s : S) (l : L) : Decidable (anyStep s l) := inferInstanceAs (Decidable True)

variable {sys} {ok : S → L → Prop}

/-- What holds initially and is kept by every step holds in every reachable state. -/
theorem Reachable.invariant {I : S → Prop} (h0 : ∀ s, sys.init s → I s)
    (hstep : ∀ s l s', I s → ok s l → sys.step s l = some s' → I s') {s : S}
    (h : sys.Reachable ok s) : I s := by
  induction h with
  | init hs => exact h0 _ hs
  | step _ hok hs ih => exact hstep _ _ _ ih hok hs

theorem Reachable.mono {ok' : S → L → Prop} (hok : ∀ s l, ok s l → ok' s l) {s : S}
    (h : sys.Reachable ok s) : sys.Reachable ok' s := by
  induction h with
  | init hs => exact .init hs
  | step _ hl hs ih => exact .step ih (hok _ _ hl) hs

variable (sys) in
/-- The state after a list of actions, `none` if one is not enabled or does not meet `ok`. -/
def run (ok : S → L → Prop) [∀ s l, Decidable (ok s l)] (s : S) : List L → Option S
  | [] => some s
  | l :: actions => if ok s l then (sys.step s l).bind fun s' => run ok s' actions else none

theorem Reachable.run [∀ s l, Decidable (ok s l)] {s s' : S} {actions : List L}
    (h : sys.Reachable ok s) (hrun : sys.run ok s actions = some s') : sys.Reachable ok s' := by
  induction actions generalizing s with
  | nil => exact Option.some.inj hrun ▸ h
  | cons l actions ih =>
    rw [System.run] at hrun
    split at hrun
    · rename_i hok
      obtain ⟨s1, hs1, hrun⟩ := Option.bind_eq_some_iff.1 hrun
      exact ih (h.step hok hs1) hrun
    · cases hrun

theorem run_cons_any (s : S) (l : L) (actions : List L) :
    sys.run anyStep s (l :: actions) = (sys.step s l).bind fun s' => sys.run anyStep s' actions :=
  if_pos trivial

theorem run_any [∀ s l, Decidable (ok s l)] {s s' : S} {actions : List L}
    (h : sys.run ok s actions = some s') : sys.run anyStep s actions = some s' := by
  induction actions generalizing s with
  | nil => exact h
  | cons l actions ih =>
    rw [System.run] at h
    split at h
    · obtain ⟨s1, hs1, hrun⟩ := Option.bind_eq_some_iff.1 h
      rw [run_cons_any, hs1]
      exact ih hrun
    · cases h

theorem run_keeps {I : S → Prop} (hstep : ∀ s l s', I s → sys.step s l = some s' → I s') {s s' : S}
    {actions : List L} (h : I s) (hrun : sys.run anyStep s actions = some s') : I s' := by
  induction actions generalizing s with
  | nil => exact Option.some.inj hrun ▸ h
  | cons l actions ih =>
    rw [run_cons_any] at hrun
    obtain ⟨s1, hs1, hrun⟩ := Option.bind_eq_some_iff.1 hrun
    exact ih (hstep s l s1 h hs1) hrun

/-- If steps that meet `ok` keep `good`, all others lead to `bad`, and `bad` is never left, then a run ends
in `good` exactly if all its steps meet `ok`. -/
theorem run_iff [∀ s l, Decidable (ok s l)] {good bad : S → Prop}
    (hgood : ∀ s l s', good s → ok s l → sys.step s l = some s' → good s')
    (hbreak : ∀ s l s', good s → ¬ok s l → sys.step s l = some s' → bad s')
    (hbad : ∀ s l s', bad s → sys.step s l = some s' → bad s') (hne : ∀ s, good s → ¬bad s) {s s' : S}
    {actions : List L} (h : good s) (hrun : sys.run anyStep s actions = some s') :
    good s' ↔ sys.run ok s actions = some s' := by
  induction actions generalizing s with
  | nil =>
    obtain rfl := Option.some.inj hrun
    exact ⟨fun _ => rfl, fun _ => h⟩
  | cons l actions ih =>
    rw [run_cons_any] at hrun
    obtain ⟨s1, hs1, hrun⟩ := Option.bind_eq_some_iff.1 hrun
    rw [System.run]
    by_cases hok : ok s l
    · rw [if_pos hok, hs1, Option.bind_some]
      exact ih (hgood s l s1 h hok hs1) hrun
    · rw [if_neg hok]
      have hend := run_keeps hbad (hbreak s l s1 h hok hs1) hrun
      exact ⟨fun hg => absurd hend (hne s' hg), fun hnone => by cases hnone⟩

/-! ## Simulation -/

variable {S' L' : Type}

/-- In the states of an invariant, `f` takes each step of one system to a step of the other, or to none. -/
structure Simulates (sys : System S L) (sys' : System S' L') (ok : S → L → Prop) (ok' : S' → L' → Prop)
    (I : S → Prop) (f : S → S') : Prop where
  init : ∀ s, sys.init s → I s ∧ sys'.init (f s)
  step : ∀ s l s', I s → ok s l → sys.step s l = some s' →
    I s' ∧ (f s' = f s ∨ ∃ l', ok' (f s) l' ∧ sys'.step (f s) l' = some (f s'))

/-- So the image of a reachable state is reachable. -/
theorem Simulates.reachable {sys' : System S' L'} {ok' : S' → L' → Prop} {I : S → Prop} {f : S → S'}
    (h : Simulates sys sys' ok ok' I f) {s : S} (hs : sys.Reachable ok s) :
    I s ∧ sys'.Reachable ok' (f s) := by
  induction hs with
  | init hs => exact ⟨(h.init _ hs).1, .init (h.init _ hs).2⟩
  | step _ hl hs ih =>
    obtain ⟨hI, hreach⟩ := ih
    obtain ⟨hI', heq | ⟨l', hl', hs'⟩⟩ := h.step _ _ _ hI hl hs
    · exact ⟨hI', heq ▸ hreach⟩
    · exact ⟨hI', hreach.step hl' hs'⟩

end System

end Lib
