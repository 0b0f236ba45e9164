import PPCNN.Cnn.Proof.Step
import Mathlib.RingTheory.SimpleRing.Basic
import Mathlib.Tactic.NormNum
import Mathlib.Data.Rat.Sqrt
import Mathlib.Algebra.Order.Ring.Rat

/-!
# Activations

The constructor of `Activation` chooses a polynomial by the name in the model or by the override of
the computation, `activate` chooses again, by the name alone. `activation_iff` says for which pairs
of a name and an override both choose the polynomial the override asks for.
-/

set_option autoImplicit false

namespace Cnn

open Lib Keras Proof

variable {K V : Type} [Field K] [CommRing V] [Algebra K V]

/-! ## Polynomials -/

def mish (t : MishCoeffs K) (x : V) : V :=
  t.a • x ^ 4 + t.b • x ^ 3 + t.c • x ^ 2 + t.d • x + algebraMap K V t.e

inductive ActivationPoly (K : Type) where
  | square
  | swish (t : SwishCoeffs K)
  | mish (t : MishCoeffs K)

/-- What an activation has to return: its polynomial, a swish without its leading coefficient if
activations are optimised. -/
def ActivationPoly.required (optimize : Bool) (p : ActivationPoly K) (x : V) : V :=
  match p with
  | .square => x ^ 2
  | .swish t => if optimize then (1 / t.a) • Keras.swish t x else Keras.swish t x
  | .mish t => Cnn.mish t x

/-- The polynomial of the override, or the one of the name. -/
def specified (c : Define K) : EActivation → String → ActivationPoly K
  | .default, activation =>
    if activation = squareName then .square
    else if activation = swishRg4Deg4Name then .swish c.swishRg4Deg4
    else .swish c.swishRg6Deg4
  | .square, _ => .square
  | .swishRg4Deg4, _ => .swish c.swishRg4Deg4
  | .swishRg6Deg4, _ => .swish c.swishRg6Deg4
  | .mishRg4Deg4, _ => .mish mishRg4Deg4
  | .mishRg6Deg4, _ => .mish mishRg6Deg4

/-- The polynomial `activate` evaluates with the coefficients of the constructor. -/
def dispatched (c : Define K) (act : EActivation) (activation : String) : ActivationPoly K :=
  if activation = squareName then .square
  else if activation = swishRg4Deg4Name ∨ act = .swishRg4Deg4 then .swish c.swishRg4Deg4
  else .swish c.swishRg6Deg4

/-- The pairs for which the two choices are the one the override asks for. -/
def Coincides : EActivation → String → Prop
  | .default, _ => True
  | .square, activation => activation = squareName
  | .swishRg4Deg4, activation => activation ≠ squareName
  | .swishRg6Deg4, activation => activation ≠ squareName ∧ activation ≠ swishRg4Deg4Name
  | .mishRg4Deg4, _ | .mishRg6Deg4, _ => False

theorem storedActivation_dispatched {c : Define K} (h4 : c.swishRg4Deg4.Exact)
    (h6 : c.swishRg6Deg4.Exact) (o : OptOption K) (activation : String) (x : V) :
    storedActivation c o activation x =
      (dispatched c o.activation activation).required o.enableOptimizeActivation x := by
  have hopt : ∀ t : SwishCoeffs K, t.Exact →
      x ^ 4 + t.b' • x ^ 2 + t.c' • x + algebraMap K V t.d' = (1 / t.a) • Keras.swish t x := by
    intro t ht
    rw [← swish_exact ht, smul_smul, one_div_mul_cancel ht.ne_zero, one_smul]
  unfold storedActivation dispatched swishTable
  by_cases hsq : activation = squareName
  · rw [if_pos hsq, if_pos hsq]
    exact (sq x).symm
  · rw [if_neg hsq, if_neg hsq]
    split
    · simp only [hopt _ h4, ActivationPoly.required]
    · simp only [hopt _ h6, ActivationPoly.required]

theorem dispatched_of_coincides {c : Define K} {act : EActivation} {activation : String}
    (h : Coincides act activation) : dispatched c act activation = specified c act activation := by
  cases act with
  | default => simp [dispatched, specified]
  | square => exact if_pos h
  | swishRg4Deg4 => simp [dispatched, specified, show activation ≠ squareName from h]
  | swishRg6Deg4 => simp [dispatched, specified, h.1, h.2]
  | mishRg4Deg4 => exact absurd h id
  | mishRg6Deg4 => exact absurd h id

/-! ## Different polynomials -/

/-- The value at zero. -/
def ActivationPoly.atZero (optimize : Bool) : ActivationPoly K → K
  | .square => 0
  | .swish t => if optimize then t.d / t.a else t.d
  | .mish t => t.e

theorem required_zero (optimize : Bool) (p : ActivationPoly K) :
    p.required optimize (0 : V) = algebraMap K V (p.atZero optimize) := by
  cases p with
  | square => simp [ActivationPoly.required, ActivationPoly.atZero]
  | swish t =>
    cases optimize with
    | true => simp [ActivationPoly.required, ActivationPoly.atZero, Keras.swish, Algebra.smul_def, div_eq_inv_mul]
    | false => simp [ActivationPoly.required, ActivationPoly.atZero, Keras.swish]
  | mish t => simp [ActivationPoly.required, ActivationPoly.atZero, Cnn.mish]

/-- The tables differ at zero, so the choices that do not coincide do. -/
theorem coincides_of_atZero [CharZero K] (sqrt : K → K) (optimize : Bool) {act : EActivation}
    {activation : String}
    (h : (dispatched (Define.source sqrt).exactTables act activation).atZero optimize =
      (specified (Define.source sqrt).exactTables act activation).atZero optimize) :
    Coincides act activation := by
  unfold dispatched at h
  cases act with
  | default => trivial
  | square =>
    by_contra hsq
    rw [if_neg (show activation ≠ squareName from hsq)] at h
    split at h <;> cases optimize <;>
      norm_num [ActivationPoly.atZero, specified, Define.exactTables, Define.source, SwishCoeffs.exact] at h
  | swishRg4Deg4 =>
    intro hsq
    rw [if_pos hsq] at h
    cases optimize <;>
      norm_num [ActivationPoly.atZero, specified, Define.exactTables, Define.source, SwishCoeffs.exact] at h
  | swishRg6Deg4 =>
    constructor
    · intro hsq
      rw [if_pos hsq] at h
      cases optimize <;>
        norm_num [ActivationPoly.atZero, specified, Define.exactTables, Define.source, SwishCoeffs.exact] at h
    · rintro rfl
      rw [if_neg (by decide), if_pos (.inl rfl)] at h
      cases optimize <;>
        norm_num [ActivationPoly.atZero, specified, Define.exactTables, Define.source, SwishCoeffs.exact] at h
  | mishRg4Deg4 =>
    split at h
    · norm_num [ActivationPoly.atZero, specified, mishRg4Deg4] at h
    · split at h <;> cases optimize <;>
        norm_num [ActivationPoly.atZero, specified, mishRg4Deg4, Define.exactTables, Define.source,
          SwishCoeffs.exact] at h
  | mishRg6Deg4 =>
    split at h
    · norm_num [ActivationPoly.atZero, specified, mishRg6Deg4] at h
    · split at h <;> cases optimize <;>
        norm_num [ActivationPoly.atZero, specified, mishRg6Deg4, Define.exactTables, Define.source,
          SwishCoeffs.exact] at h

/-! ## The constructor and `activate` -/

omit [Field K] in
/-- Without coefficients `activate` returns nothing, unless it squares. -/
theorem activate_ne_ok {Pt Ct : Type} {ev : Evaluator K Pt Ct} {l : Activation Pt} {o : OptOption K}
    (hl : l.plainPolyCoeffs = []) (hsq : l.activation ≠ squareName) (x y : Ct) :
    l.activate ev o x ≠ .ok y := by
  intro h
  have hread : ∀ i, readVector l.plainPolyCoeffs i = .error .outOfRange := fun i => by rw [hl]; rfl
  simp only [Activation.activate, if_neg hsq] at h
  split at h
  · simp [Activation.swishDeg4Opt, bind_eq_ok, hread] at h
  · simp [Activation.swishDeg4, bind_eq_ok, hread] at h

variable [LinearOrder K] [IsStrictOrderedRing K] [Nontrivial V]

/-- An activation whose constructor does not throw evaluates its polynomial, on every ciphertext of
the level the constructor found and with the levels it counted, exactly if name and override
coincide. -/
theorem activation_iff (sqrt : K → K) (ch : Chain K) (name activation : String) (o o' : OptOption K)
    (l : Activation (Leveled K K))
    (hnew : Activation.new (.leveled V ch) (Define.source sqrt).exactTables name activation o =
      .ok (l, o')) (hchain : o'.consumedLevel ≤ ch.length) :
    (∀ x : Leveled K V, x.level = o.consumedLevel → ∃ y, l.activate (.leveled V ch) o x = .ok y ∧
      y.level = o'.consumedLevel ∧
      y.value = (specified (Define.source sqrt).exactTables o.activation activation).required
        o.enableOptimizeActivation x.value) ↔
      Coincides o.activation activation := by
  have h4 : (Define.source sqrt).exactTables.swishRg4Deg4.Exact :=
    SwishCoeffs.exact_exact (by norm_num [Define.source])
  have h6 : (Define.source sqrt).exactTables.swishRg6Deg4.Exact :=
    SwishCoeffs.exact_exact (by norm_num [Define.source])
  obtain ⟨hl, hb, rfl⟩ := activationNew_ok
    (E := ⟨.leveled V ch, .unbounded, (Define.source sqrt).exactTables⟩) hnew
  have hactivate : Dispatches o activation → ∀ x : Leveled K V, x.level = o.consumedLevel →
      ∃ y, l.activate (.leveled V ch) o x = .ok y ∧
        y.level = o.consumedLevel + activationDepth o activation ∧
        y.value = (dispatched (Define.source sqrt).exactTables o.activation activation).required
          o.enableOptimizeActivation x.value := by
    intro hdisp x hx
    obtain ⟨σ', h⟩ := activate_rep (I := leveledInterp V ch) hl hb hdisp rfl
      (fun i hi => lt_of_lt_of_le (Nat.add_lt_add_left hi _) hchain) x.scale
    obtain ⟨y, hy, rfl⟩ := h x x.value (by rw [← hx]; rfl)
    exact ⟨_, hy, rfl, storedActivation_dispatched h4 h6 o activation x.value⟩
  constructor
  · intro h
    obtain ⟨y, hy, -, hvalue⟩ := h ⟨o.consumedLevel, 1, 0⟩ rfl
    by_cases hdisp : Dispatches o activation
    · obtain ⟨y', hy', -, hvalue'⟩ := hactivate hdisp ⟨o.consumedLevel, 1, 0⟩ rfl
      cases hy.symm.trans hy'
      rw [hvalue', required_zero, required_zero] at hvalue
      exact coincides_of_atZero sqrt _ ((algebraMap K V).injective hvalue)
    · unfold Dispatches at hdisp
      push Not at hdisp
      unfold CoeffsBuilt at hb
      rw [if_pos (.inr hdisp.2)] at hb
      exact absurd hy (activate_ne_ok hb (hl ▸ hdisp.1) _ _)
  · intro hco x hx
    have hdisp : Dispatches o activation := by
      unfold Dispatches
      cases hact : o.activation <;> simp [hact, Coincides] at hco ⊢
      exact hco
    rw [← dispatched_of_coincides hco]
    exact hactivate hdisp x hx

section Sample

/-- A chain for four rescalings. -/
def activationChain : Chain ℚ := ⟨4, fun i => 1000 + i, 1000⟩

theorem activation_iff_sample : ∃ l o',
    Activation.new (.leveled ℚ activationChain) (Define.source Rat.sqrt).exactTables "activation"
      swishRg4Deg4Name (OptOption.new .optActivation .default) = .ok (l, o') ∧
    ((∀ x : Leveled ℚ ℚ, x.level = 0 → ∃ y,
        l.activate (.leveled ℚ activationChain) (OptOption.new .optActivation .default) x = .ok y ∧
        y.level = o'.consumedLevel ∧
        y.value = (specified (Define.source Rat.sqrt).exactTables .default swishRg4Deg4Name).required
          true x.value) ↔
      Coincides .default swishRg4Deg4Name) := by
  have hlevel : (Activation.new (.leveled ℚ activationChain) (Define.source Rat.sqrt).exactTables
      "activation" swishRg4Deg4Name (OptOption.new .optActivation .default)).map
        (fun p => p.2.consumedLevel) = .ok 2 := by
    decide +kernel
  cases hnew : Activation.new (.leveled ℚ activationChain) (Define.source Rat.sqrt).exactTables
      "activation" swishRg4Deg4Name (OptOption.new .optActivation .default) with
  | error e =>
    rw [hnew] at hlevel
    cases hlevel
  | ok p =>
    obtain ⟨l, o'⟩ := p
    rw [hnew] at hlevel
    have ho : o'.consumedLevel = 2 := Except.ok.inj hlevel
    exact ⟨l, o', rfl, activation_iff Rat.sqrt activationChain "activation" swishRg4Deg4Name
      (OptOption.new .optActivation .default) o' l hnew (ho ▸ by decide)⟩

/-- The override "square" with a swish activation in the model: the constructor encodes no
coefficients, `activate` reads the first one. -/
theorem activate_reads_outOfRange : ∃ l o',
    Activation.new (.leveled ℚ activationChain) (Define.source Rat.sqrt).exactTables "activation"
      swishRg4Deg4Name (OptOption.new .noOpt .square) = .ok (l, o') ∧
    o'.consumedLevel ≤ activationChain.length ∧
    l.activate (.leveled ℚ activationChain) (OptOption.new .noOpt .square) ⟨0, 1000, 1⟩ =
      .error .outOfRange :=
  ⟨_, _, rfl, by decide, by decide +kernel⟩

end Sample

end Cnn
