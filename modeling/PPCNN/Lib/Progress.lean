import PPCNN.Lib.System
import Mathlib.Data.List.Count

/-!
# Work that runs out

Some actions of a system do work (`works l`), the others may bring more of it. `work` measures what is
left and `brought` what has come in so far. If a step that does work lowers the measure, and no step raises
it by more than it brings, then a run has only as many working steps as its work pays for
(`run_countP_le`), and working alone comes to a state in which nothing is left to do (`exists_settled`).
-/

set_option autoImplicit false

namespace Lib

namespace System

variable {S L : Type} (sys : System S L) {works : L → Bool} {work brought : S → ℕ}

/-- No working step that meets `ok` is enabled. -/
def Settled (ok : S → L → Prop) (works : L → Bool) (s : S) : Prop :=
  ∀ l, works l = true → ok s l → sys.step s l = none

/-- A working step takes one unit of work, and a step brings what it adds. -/
def PaysFor (works : L → Bool) (work brought : S → ℕ) : Prop :=
  ∀ s l s', sys.step s l = some s' → (works l).toNat + work s' + brought s ≤ work s + brought s'

variable {sys}

theorem run_countP_le (hpays : sys.PaysFor works work brought) {s s' : S} {actions : List L}
    (hrun : sys.run anyStep s actions = some s') :
    actions.countP works + work s' + brought s ≤ work s + brought s' := by
  induction actions generalizing s with
  | nil =>
    obtain rfl := Option.some.inj hrun
    simp
  | cons l actions ih =>
    rw [run_cons_any] at hrun
    obtain ⟨s1, hs1, hrun⟩ := Option.bind_eq_some_iff.1 hrun
    have hstep := hpays s l s1 hs1
    have hrest := ih hrun
    rw [List.countP_cons]
    cases hw : works l <;> simp only [hw, Bool.toNat_false, Bool.toNat_true] at hstep <;> simp <;> omega

variable {ok : S → L → Prop} [∀ s l, Decidable (ok s l)]

theorem run_cons {s s1 : S} {l : L} (hok : ok s l) (hstep : sys.step s l = some s1) (actions : List L) :
    sys.run ok s (l :: actions) = sys.run ok s1 actions := by
  rw [System.run, if_pos hok, hstep, Option.bind_some]

/-- Where every working step lowers the work, working steps alone settle. -/
theorem exists_settled
    (hlower : ∀ s l s', works l = true → sys.step s l = some s' → work s' < work s) (s : S) :
    ∃ actions s', (∀ l ∈ actions, works l = true) ∧ sys.run ok s actions = some s' ∧
      sys.Settled ok works s' := by
  induction hn : work s using Nat.strongRecOn generalizing s with
  | ind n ih =>
    by_cases hsettled : sys.Settled ok works s
    · exact ⟨[], s, by simp, rfl, hsettled⟩
    · simp only [Settled, not_forall] at hsettled
      obtain ⟨l, hworks, hok, hstep⟩ := hsettled
      obtain ⟨s1, hs1⟩ := Option.ne_none_iff_exists'.1 hstep
      obtain ⟨actions, s', hall, hrun, hend⟩ := ih (work s1) (hn ▸ hlower s l s1 hworks hs1) s1 rfl
      refine ⟨l :: actions, s', ?_, ?_, hend⟩
      · simpa using ⟨hworks, hall⟩
      · rw [run_cons hok hs1]
        exact hrun

end System

end Lib
