import Mathlib.Data.Fin.Tuple.Basic
import Mathlib.Data.List.FinRange

/-!
# Fallible computations and their loops

`Except ε α` as the result type of code that may throw. Two rules carry the proofs about loops:

* `seqFin` runs one computation for each index of an array and collects the results; it succeeds
  with `g` exactly when every index `i` succeeds with `g i` (`seqFin_eq_ok`).
* `foldlM_invariant`: a loop over a list keeps an invariant that speaks of the part of the list
  already visited, and succeeds when every iteration does.
-/

set_option autoImplicit false

namespace Lib

variable {ε α β γ δ ι : Type}

/-! ## Bind -/

@[simp] theorem ok_bind (a : α) (f : α → Except ε β) : (Except.ok a >>= f) = f a := rfl
@[simp] theorem error_bind (e : ε) (f : α → Except ε β) :
    (Except.error e >>= f) = Except.error e := rfl
@[simp] theorem pure_eq_ok (a : α) : (pure a : Except ε α) = .ok a := rfl
@[simp] theorem throw_eq_error (e : ε) : (throw e : Except ε α) = .error e := rfl
@[simp] theorem map_ok (f : α → β) (a : α) : f <$> (.ok a : Except ε α) = .ok (f a) := rfl

theorem bind_eq_ok {x : Except ε α} {f : α → Except ε β} {b : β} :
    (x >>= f) = .ok b ↔ ∃ a, x = .ok a ∧ f a = .ok b := by
  cases x with
  | error e => simp
  | ok a => simp

theorem map_eq_ok {x : Except ε α} {f : α → β} {b : β} :
    f <$> x = .ok b ↔ ∃ a, x = .ok a ∧ f a = b := by
  cases x with
  | error e => simp
  | ok a => simp

theorem bind_of_ok {x : Except ε α} {a : α} (h : x = .ok a) (f : α → Except ε β) :
    (x >>= f) = f a := by
  rw [h, ok_bind]

/-! ## Success -/

def Succeeds (x : Except ε α) : Prop := ∃ a, x = .ok a

theorem succeeds_ok (a : α) : Succeeds (.ok a : Except ε α) := ⟨a, rfl⟩

theorem Succeeds.bind {x : Except ε α} {f : α → Except ε β} (h : Succeeds x)
    (hf : ∀ a, x = .ok a → Succeeds (f a)) : Succeeds (x >>= f) := by
  obtain ⟨a, ha⟩ := h
  obtain ⟨b, hb⟩ := hf a ha
  exact ⟨b, (bind_of_ok ha f).trans hb⟩

/-! ## Errors that do not occur -/

/-- The computation does not end with the error. -/
def Avoids (e : ε) (x : Except ε α) : Prop := x ≠ .error e

@[simp] theorem avoids_ok (e : ε) (a : α) : Avoids e (.ok a : Except ε α) := by
  intro h
  cases h

theorem avoids_error_iff {e e' : ε} : Avoids e (.error e' : Except ε α) ↔ e' ≠ e := by
  rw [Avoids, ne_eq, Except.error.injEq]

theorem avoids_error {e e' : ε} (h : e' ≠ e) : Avoids e (.error e' : Except ε α) :=
  avoids_error_iff.2 h

theorem Avoids.bind {e : ε} {x : Except ε α} {f : α → Except ε β} (h : Avoids e x)
    (hf : ∀ a, x = .ok a → Avoids e (f a)) : Avoids e (x >>= f) := by
  cases x with
  | error e' => exact avoids_error fun he => h (congrArg Except.error he)
  | ok a => exact hf a rfl

/-! ## Two computations -/

/-- Both computations throw, or both return and the results are related. -/
def Agree (R : α → β → Prop) (x : Except ε α) (y : Except ε β) : Prop :=
  match x, y with
  | .ok a, .ok b => R a b
  | .error _, .error _ => True
  | _, _ => False

theorem Agree.bind {R : α → β → Prop} {S : γ → δ → Prop} {x : Except ε α} {y : Except ε β}
    {f : α → Except ε γ} {g : β → Except ε δ} (h : Agree R x y)
    (hf : ∀ a b, x = .ok a → R a b → Agree S (f a) (g b)) : Agree S (x >>= f) (y >>= g) := by
  cases x with
  | error e =>
    cases y with
    | error e' => trivial
    | ok b => exact absurd h id
  | ok a =>
    cases y with
    | error e' => exact absurd h id
    | ok b => exact hf a b rfl h

theorem Agree.bind_same {S : γ → δ → Prop} {x : Except ε α} {f : α → Except ε γ}
    {g : α → Except ε δ} (h : ∀ a, x = .ok a → Agree S (f a) (g a)) :
    Agree S (x >>= f) (x >>= g) := by
  cases x with
  | error e => trivial
  | ok a => exact h a rfl

/-- A computation that throws in the end agrees with one that throws. -/
theorem Agree.bind_error {S : γ → δ → Prop} {x : Except ε α} {f : α → Except ε γ} {e : ε}
    (h : ∀ a, Agree S (f a) (.error e)) : Agree S (x >>= f) (.error e) := by
  cases x with
  | error e' => trivial
  | ok a => exact h a

theorem Agree.imp {R S : α → β → Prop} {x : Except ε α} {y : Except ε β} (h : Agree R x y)
    (hRS : ∀ a b, x = .ok a → y = .ok b → R a b → S a b) : Agree S x y := by
  cases x with
  | error e => cases y <;> exact h
  | ok a =>
    cases y with
    | error e' => exact h
    | ok b => exact hRS a b rfl rfl h

/-- Both computations throw the same error, or both return and the results are related. -/
def Alike (R : α → β → Prop) (x : Except ε α) (y : Except ε β) : Prop :=
  match x, y with
  | .ok a, .ok b => R a b
  | .error e, .error e' => e = e'
  | _, _ => False

theorem Alike.bind {R : α → β → Prop} {S : γ → δ → Prop} {x : Except ε α} {y : Except ε β}
    {f : α → Except ε γ} {g : β → Except ε δ} (h : Alike R x y)
    (hf : ∀ a b, x = .ok a → R a b → Alike S (f a) (g b)) : Alike S (x >>= f) (y >>= g) := by
  cases x with
  | error e =>
    cases y with
    | error e' => exact h
    | ok b => exact absurd h id
  | ok a =>
    cases y with
    | error e' => exact absurd h id
    | ok b => exact hf a b rfl h

theorem Alike.bind_same {S : γ → δ → Prop} {x : Except ε α} {f : α → Except ε γ}
    {g : α → Except ε δ} (h : ∀ a, x = .ok a → Alike S (f a) (g a)) :
    Alike S (x >>= f) (x >>= g) := by
  cases x with
  | error e => rfl
  | ok a => exact h a rfl

theorem Alike.refl {R : α → α → Prop} {x : Except ε α} (h : ∀ a, x = .ok a → R a a) : Alike R x x := by
  cases x with
  | error e => rfl
  | ok a => exact h a rfl

theorem Alike.exists_ok {R : α → β → Prop} {a : α} {y : Except ε β} (h : Alike R (.ok a) y) :
    ∃ b, y = .ok b ∧ R a b := by
  cases y with
  | error e => exact absurd h id
  | ok b => exact ⟨b, rfl, h⟩

theorem Alike.eq_error {R : α → β → Prop} {x : Except ε α} {e : ε} (h : Alike R x (.error e : Except ε β)) :
    x = .error e := by
  cases x with
  | error e' => exact congrArg Except.error h
  | ok a => exact absurd h id

theorem Alike.exists_ok_left {R : α → β → Prop} {x : Except ε α} {b : β} (h : Alike R x (.ok b)) :
    ∃ a, x = .ok a ∧ R a b := by
  cases x with
  | error e => exact absurd h id
  | ok a => exact ⟨a, rfl, h⟩

theorem Alike.trans {R : α → β → Prop} {S : β → γ → Prop} {T : α → γ → Prop} {x : Except ε α}
    {y : Except ε β} {z : Except ε γ} (hT : ∀ a b c, R a b → S b c → T a c) (hxy : Alike R x y)
    (hyz : Alike S y z) : Alike T x z := by
  cases y with
  | error e =>
    rw [hxy.eq_error]
    cases z with
    | error e' => exact hyz
    | ok c => exact absurd hyz id
  | ok b =>
    obtain ⟨a, rfl, hab⟩ := hxy.exists_ok_left
    obtain ⟨c, rfl, hbc⟩ := hyz.exists_ok
    exact hT a b c hab hbc

theorem Alike.eq {x y : Except ε α} (h : Alike Eq x y) : x = y := by
  cases x with
  | error e =>
    cases y with
    | error e' => exact congrArg Except.error h
    | ok b => exact absurd h id
  | ok a =>
    cases y with
    | error e' => exact absurd h id
    | ok b => exact congrArg Except.ok h

/-! ## One computation for each index -/

/-- Runs `f` at `0, 1, …, n - 1` in order and collects the results. -/
def seqFin : {n : ℕ} → (Fin n → Except ε α) → Except ε (Fin n → α)
  | 0, _ => .ok Fin.elim0
  | _ + 1, f => do
    let x ← f 0
    let xs ← seqFin fun i => f i.succ
    return Fin.cons x xs

theorem seqFin_eq_ok : ∀ {n : ℕ} {f : Fin n → Except ε α} {g : Fin n → α},
    seqFin f = .ok g ↔ ∀ i, f i = .ok (g i)
  | 0, f, g => by
    simp only [seqFin, Except.ok.injEq]
    exact ⟨fun _ i => i.elim0, fun _ => funext fun i => i.elim0⟩
  | n + 1, f, g => by
    simp only [seqFin, bind_eq_ok, pure_eq_ok, Except.ok.injEq]
    constructor
    · rintro ⟨x, hx, xs, hxs, rfl⟩ i
      rw [seqFin_eq_ok] at hxs
      cases i using Fin.cases with
      | zero => simpa using hx
      | succ i => simpa using hxs i
    · intro h
      exact ⟨g 0, h 0, fun i => g i.succ, seqFin_eq_ok.2 fun i => h i.succ, Fin.cons_self_tail g⟩

theorem seqFin_ok {n : ℕ} {f : Fin n → Except ε α} {P : Fin n → α → Prop}
    (h : ∀ i, ∃ x, f i = .ok x ∧ P i x) : ∃ g, seqFin f = .ok g ∧ ∀ i, P i (g i) := by
  choose g hg hP using h
  exact ⟨g, seqFin_eq_ok.2 hg, hP⟩

theorem succeeds_seqFin {n : ℕ} {f : Fin n → Except ε α} (h : ∀ i, Succeeds (f i)) :
    Succeeds (seqFin f) := by
  choose g hg using h
  exact ⟨g, seqFin_eq_ok.2 hg⟩

@[simp] theorem seqFin_pure {n : ℕ} (g : Fin n → α) :
    seqFin (fun i => (.ok (g i) : Except ε α)) = .ok g :=
  seqFin_eq_ok.2 fun _ => rfl

/-- Functions on the results may be applied in the end. -/
theorem seqFin_map : ∀ {n : ℕ} (f : Fin n → Except ε α) (g : Fin n → α → β),
    seqFin (fun i => g i <$> f i) = (fun xs i => g i (xs i)) <$> seqFin f
  | 0, f, g => congrArg Except.ok (funext fun i => i.elim0)
  | n + 1, f, g => by
    rw [seqFin, seqFin]
    cases f 0 with
    | error e => rfl
    | ok x =>
      simp only [map_ok, ok_bind, seqFin_map (fun i => f i.succ) fun i => g i.succ]
      cases seqFin fun i : Fin n => f i.succ with
      | error e => rfl
      | ok xs =>
        refine congrArg Except.ok (funext fun i => ?_)
        cases i using Fin.cases <;> rfl

theorem seqFin_error {n : ℕ} {f : Fin n → Except ε α} {e : ε} (hn : 0 < n)
    (h : ∀ i, f i = .error e) : seqFin f = .error e := by
  obtain ⟨k, rfl⟩ : ∃ k, n = k + 1 := ⟨n - 1, by omega⟩
  rw [seqFin, h 0, error_bind]

theorem avoids_seqFin {e : ε} : ∀ {n : ℕ} {f : Fin n → Except ε α}, (∀ i, Avoids e (f i)) →
    Avoids e (seqFin f)
  | 0, _, _ => avoids_ok e _
  | _ + 1, _, h => (h 0).bind fun _ _ =>
    (avoids_seqFin fun i => h i.succ).bind fun _ _ => avoids_ok e _

/-! ## Loops over a list -/

theorem avoids_foldlM {e : ε} {f : β → ι → Except ε β} (h : ∀ b i, Avoids e (f b i)) (l : List ι)
    (b : β) : Avoids e (l.foldlM f b) := by
  induction l generalizing b with
  | nil => exact avoids_ok e b
  | cons i l ih => exact (h b i).bind fun b' _ => ih b'

/-- A loop that succeeds has succeeded at every element. -/
theorem foldlM_eq_ok_mem {f : β → ι → Except ε β} {l : List ι} {b b' : β} (h : l.foldlM f b = .ok b')
    {i : ι} (hi : i ∈ l) : ∃ c c', f c i = .ok c' := by
  induction l generalizing b with
  | nil => cases hi
  | cons j l ih =>
    rw [List.foldlM_cons] at h
    obtain ⟨c, hc, hrest⟩ := bind_eq_ok.1 h
    rcases List.mem_cons.1 hi with rfl | hi
    · exact ⟨b, c, hc⟩
    · exact ih hrest hi

/-- What every iteration that succeeds preserves holds of the result. -/
theorem foldlM_preserves {P : β → Prop} {f : β → ι → Except ε β} {l : List ι} {b b' : β} (h0 : P b)
    (hstep : ∀ b i b', P b → f b i = .ok b' → P b') (h : l.foldlM f b = .ok b') : P b' := by
  induction l generalizing b with
  | nil => cases h; exact h0
  | cons i l ih =>
    rw [List.foldlM_cons] at h
    obtain ⟨c, hc, hrest⟩ := bind_eq_ok.1 h
    exact ih (hstep b i c h0 hc) hrest

/-- Loop rule: every iteration succeeds and extends the invariant by the element it visited. -/
theorem foldlM_invariant {I : List ι → β → Prop} {f : β → ι → Except ε β} {l : List ι} {b : β}
    (h0 : I [] b) (hstep : ∀ pre x post b, l = pre ++ x :: post → I pre b →
      ∃ b', f b x = .ok b' ∧ I (pre ++ [x]) b') :
    ∃ b', l.foldlM f b = .ok b' ∧ I l b' := by
  suffices h : ∀ (post pre : List ι) (b : β), l = pre ++ post → I pre b →
      ∃ b', post.foldlM f b = .ok b' ∧ I l b' from h l [] b rfl h0
  intro post
  induction post with
  | nil =>
    intro pre b hl hI
    exact ⟨b, rfl, by simpa [hl] using hI⟩
  | cons x post ih =>
    intro pre b hl hI
    obtain ⟨b1, hb1, hI1⟩ := hstep pre x post b hl hI
    obtain ⟨b2, hb2, hI2⟩ := ih (pre ++ [x]) b1 (by simp [hl]) hI1
    exact ⟨b2, by rw [List.foldlM_cons, hb1]; exact hb2, hI2⟩

/-- A function that commutes with every iteration commutes with the loop. -/
theorem foldlM_map {f : β → ι → Except ε β} {g : γ → ι → Except ε γ} {φ : β → γ}
    (h : ∀ b i, g (φ b) i = φ <$> f b i) (l : List ι) (b : β) :
    l.foldlM g (φ b) = φ <$> l.foldlM f b := by
  induction l generalizing b with
  | nil => rfl
  | cons i l ih =>
    rw [List.foldlM_cons, List.foldlM_cons, h]
    cases f b i with
    | error e => rfl
    | ok b' => exact ih b'

/-- The element of `0, 1, …, n - 1` after a prefix is the prefix's length. -/
theorem finRange_split {n : ℕ} {pre post : List (Fin n)} {x : Fin n}
    (h : List.finRange n = pre ++ x :: post) : x.val = pre.length := by
  have hx : (List.finRange n)[pre.length]? = some x := by rw [h]; simp
  obtain ⟨hlt, hval⟩ := List.getElem?_eq_some_iff.1 hx
  rw [← hval]
  simp

end Lib
