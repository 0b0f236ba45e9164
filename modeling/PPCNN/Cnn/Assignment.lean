import PPCNN.Cnn.BuildLoop

/-!
# Definite assignment of the file-scope variables

A structure file assigns before it reads if each call of `buildLayer` reads only such file-scope variables
as the calls before it have written, whatever they build (`assigns`). Then the values that other models have
left are not looked at, as long as no other thread writes: the thread stays on its own values
(`Building.Assigns.step`).
-/

set_option autoImplicit false

namespace Cnn

open Lib Proof

variable {K Pt Ct : Type}

/-- The variables that the calls of a model have written. -/
structure Assigned where
  /-- the extents, with the channels -/
  image : Bool
  units : Bool

namespace Assigned

/-- They are all that the call reads. -/
def covers (k : Assigned) : BuildCall → Bool
  | .single (.conv2D info) | .conv2DFusedBN info _ => info.batchInputShape.isSome || k.image
  | .single (.averagePooling2D _) | .single (.flatten _) | .single (.globalAveragePooling2D _) => k.image
  | .single (.batchNormalization _) => k.image && k.units
  | .single (.dense _) | .denseFusedBN _ _ => k.units
  | .single (.activation _ _) | .single (.other _) => true

/-- With those that the call writes. -/
def after (k : Assigned) : BuildCall → Assigned
  | .single (.conv2D _) | .conv2DFusedBN _ _ | .single (.averagePooling2D _) => { k with image := true }
  | .single (.flatten _) | .single (.globalAveragePooling2D _) | .single (.dense _) | .denseFusedBN _ _ =>
    { k with units := true }
  | _ => k

/-- The values agree on the variables. -/
def SameOn (k : Assigned) (a b : NextLayer) : Prop :=
  (k.image = true → SameImage a b) ∧ (k.units = true → a.inUnits = b.inUnits)

variable {k : Assigned} {a b : NextLayer} {call : BuildCall}

theorem sameOn_none (a b : NextLayer) : SameOn ⟨false, false⟩ a b := ⟨nofun, nofun⟩

theorem SameOn.agrees (h : k.SameOn a b) (hcovers : k.covers call = true) : Agrees a b call := by
  obtain ⟨himage, hunits⟩ := h
  cases call with
  | conv2DFusedBN info bn =>
    intro hnone
    apply himage
    simpa [covers, hnone] using hcovers
  | denseFusedBN info bn => exact hunits hcovers
  | single layer =>
    cases layer with
    | conv2D info =>
      intro hnone
      apply himage
      simpa [covers, hnone] using hcovers
    | averagePooling2D info => exact himage hcovers
    | batchNormalization name =>
      simp only [covers, Bool.and_eq_true] at hcovers
      obtain ⟨hh, hw, hc⟩ := himage hcovers.1
      simp only [Agrees, NextLayer.bnDim, hunits hcovers.2, hc]
    | flatten name => exact himage hcovers
    | dense info => exact hunits hcovers
    | activation name activation => trivial
    | globalAveragePooling2D name => exact himage hcovers
    | other className => trivial

/-- Both sides take what the call writes from the same values. -/
theorem SameOn.carry (h : k.SameOn a b) (written : NextLayer) (call : BuildCall) :
    (k.after call).SameOn (Proof.carry written a call) (Proof.carry written b call) := by
  obtain ⟨himage, hunits⟩ := h
  cases call with
  | conv2DFusedBN info bn => exact ⟨fun _ => ⟨rfl, rfl, rfl⟩, hunits⟩
  | denseFusedBN info bn => exact ⟨himage, fun _ => rfl⟩
  | single layer =>
    cases layer with
    | conv2D info => exact ⟨fun _ => ⟨rfl, rfl, rfl⟩, hunits⟩
    | averagePooling2D info => exact ⟨fun _ => ⟨rfl, rfl, rfl⟩, hunits⟩
    | batchNormalization name => exact ⟨himage, hunits⟩
    | flatten name => exact ⟨himage, fun _ => rfl⟩
    | dense info => exact ⟨himage, fun _ => rfl⟩
    | activation name activation => exact ⟨himage, hunits⟩
    | globalAveragePooling2D name => exact ⟨himage, fun _ => rfl⟩
    | other className => exact ⟨himage, hunits⟩

end Assigned

/-! ## Structure files -/

/-- Each call that the rest of the array makes reads what has been written, or is by then. -/
def assigns (A : IntArith) (fuses : Bool) : ℕ → Assigned → List JsonValue → Bool
  | _, _, [] => true
  | 0, _, _ :: _ => false
  | n + 1, k, v :: values =>
    match nextCall A fuses v values with
    | .ok (call, rest) => k.covers call && assigns A fuses n (k.after call) rest
    | .error _ => true

/-- The thread has read nothing that its own calls had not written, and will not. -/
def Building.Assigns (A : IntArith) (b : Building K Pt) (next : NextLayer) : Prop :=
  ∃ n k, assigns A b.fuses n k b.values = true ∧ k.SameOn b.own next

theorem assigns_cons {A : IntArith} {fuses : Bool} {n : ℕ} {k : Assigned} {v : JsonValue}
    {values rest : List JsonValue} {call : BuildCall} (h : assigns A fuses n k (v :: values) = true)
    (hcall : nextCall A fuses v values = .ok (call, rest)) :
    k.covers call = true ∧ ∃ n, assigns A fuses n (k.after call) rest = true := by
  cases n with
  | zero => cases h
  | succ n =>
    simp only [assigns, hcall, Bool.and_eq_true] at h
    exact ⟨h.1, n, h.2⟩

theorem Building.Assigns.agrees {A : IntArith} {b : Building K Pt} {next : NextLayer} (h : b.Assigns A next) :
    ∀ call ∈ b.upcoming A, Agrees b.own next call := by
  intro call hcall
  obtain ⟨n, k, hassigns, hsame⟩ := h
  cases hvalues : b.values with
  | nil =>
    simp [upcoming, hvalues] at hcall
  | cons v values =>
    simp only [upcoming, hvalues] at hcall
    rw [hvalues] at hassigns
    cases hnext : nextCall A b.fuses v values with
    | error e =>
      simp [hnext, Except.toOption] at hcall
    | ok p =>
      obtain rfl : p.1 = call := by simpa [hnext, Except.toOption] using hcall
      exact hsame.agrees (assigns_cons hassigns hnext).1

variable [Field K] [LinearOrder K] {E : Env K Pt Ct} {file : H5File K}

/-- A pass through the loop keeps the thread on its own values. -/
theorem Building.Assigns.step {b b' : Building K Pt} {next next' : NextLayer} (h : b.Assigns E.arith next)
    (hstep : b.step E file next = .ok (b', next')) : b'.Assigns E.arith next' := by
  obtain ⟨n, k, hassigns, hsame⟩ := h
  cases hvalues : b.values with
  | nil =>
    simp only [Building.step, hvalues] at hstep
    cases hstep
    exact ⟨n, k, hassigns, hsame⟩
  | cons v values =>
    simp only [Building.step, hvalues] at hstep
    rw [hvalues] at hassigns
    obtain ⟨⟨call, rest⟩, hcall, hstep⟩ := bind_eq_ok.1 hstep
    obtain ⟨⟨layer, st⟩, hlayer, hstep⟩ := bind_eq_ok.1 hstep
    obtain ⟨-, n', hrest⟩ := assigns_cons hassigns hcall
    -- what the call does not write is what it found
    have hself : buildLayer E file call ⟨next, b.option⟩ =
        onNext call next <$> buildLayer E file call ⟨next, b.option⟩ :=
      buildLayer_frame E file b.option (agrees_refl next call)
    rw [hlayer] at hself
    have hnext : st.next = carry st.next next call := congrArg (fun p => p.2.next) (Except.ok.inj hself)
    cases hstep
    refine ⟨n', k.after call, hrest, ?_⟩
    show (k.after call).SameOn (carry st.next b.own call) st.next
    rw [hnext, carry_carry]
    exact hsame.carry st.next call

end Cnn
