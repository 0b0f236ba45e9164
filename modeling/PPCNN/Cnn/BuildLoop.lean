import PPCNN.Cnn.StructureText
import PPCNN.Cnn.Interleave

/-!
# The loop of `BuildNetwork`, one call at a time

`Building` is a thread inside the loop, between two calls of `buildLayer`. `Building.LeadsTo.step`: while each
call finds, in the file-scope variables it reads, what the calls of its own thread have left there, the
thread is on the way to the network, or to the exception, that it gets alone.
-/

set_option autoImplicit false

namespace Cnn

open Lib Proof

variable {K Pt Ct : Type}

/-- A pass through the loop, to its call of `buildLayer`: the call, and the elements behind the iterator. -/
def nextCall (A : IntArith) (enableFuseLayers : Bool) (v : JsonValue) (values : List JsonValue) :
    Except Error (BuildCall × List JsonValue) :=
  match enableFuseLayers, values with
  | true, v' :: values' => do
    let (layer, className) ← readClass v
    let (next, nextClassName) ← readClass v'
    let (call, stepsOver) ← readCall A layer next className nextClassName
    return (call, if stepsOver then values' else v' :: values')
  | _, _ => do
    let (layer, className) ← readClass v
    return (.single (← readLayer A layer className), values)

/-- A thread in the loop. -/
structure Building (K Pt : Type) where
  /-- which of the two loops it is -/
  fuses : Bool
  /-- the elements of the array behind the iterator -/
  values : List JsonValue
  option : OptOption K
  layers : List (Layer Pt)
  /-- what the calls of this thread have written last, as a record of the past: no step reads it -/
  own : NextLayer

/-- The call that the next pass makes. -/
def Building.upcoming (A : IntArith) (b : Building K Pt) : Option BuildCall :=
  match b.values with
  | [] => none
  | v :: values => (nextCall A b.fuses v values).toOption.map Prod.fst

variable [Field K] [LinearOrder K]

/-- The loop for an option object that asks for fused layers, or for one that does not. -/
def buildLoop (E : Env K Pt Ct) (file : H5File K) (fuses : Bool) (values : List JsonValue)
    (st : BuildState K) : Except Error (List (Layer Pt) × BuildState K) :=
  if fuses then buildFused E file values st else buildEach E file values st

variable (E : Env K Pt Ct) (file : H5File K)

/-- A pass through the loop, from given values of the file-scope variables. -/
def Building.step (b : Building K Pt) (next : NextLayer) : Except Error (Building K Pt × NextLayer) :=
  match b.values with
  | [] => .ok (b, next)
  | v :: values => do
    let (call, rest) ← nextCall E.arith b.fuses v values
    let (layer, st) ← buildLayer E file call ⟨next, b.option⟩
    return (⟨b.fuses, rest, st.option, b.layers ++ [layer], carry st.next b.own call⟩, st.next)

/-- The thread in front of the loop. -/
def startBuilding (round : ℚ → Option ℚ) (files : String → Option (List UInt8))
    (modelStructurePath : String) (option : OptOption K) : Except Error (Building K Pt) := do
  let values ← loadLayersFile round files modelStructurePath
  return ⟨option.enableFuseLayers, values, option, [], .fresh⟩

/-- The rest of the loop, in a process of its own, ends with `whole`. -/
def Building.LeadsTo (b : Building K Pt) (whole : Except Error (List (Layer Pt) × BuildState K)) : Prop :=
  whole = (fun p => (b.layers ++ p.1, p.2)) <$> buildLoop E file b.fuses b.values ⟨b.own, b.option⟩

variable {E file} {b b' : Building K Pt} {whole : Except Error (List (Layer Pt) × BuildState K)}
  {next next' : NextLayer}

theorem buildLoop_nil (fuses : Bool) (st : BuildState K) : buildLoop E file fuses [] st = .ok ([], st) := by
  cases fuses <;> rfl

theorem buildLoop_cons (fuses : Bool) (v : JsonValue) (values : List JsonValue) (st : BuildState K) :
    buildLoop E file fuses (v :: values) st = (do
      let (call, rest) ← nextCall E.arith fuses v values
      let (layer, st) ← buildLayer E file call st
      let (layers, st) ← buildLoop E file fuses rest st
      return (layer :: layers, st)) := by
  cases fuses with
  | false => simp only [buildLoop, nextCall, buildEach, buildLayer, bind_assoc, pure_bind, Bool.false_eq_true,
      if_false]
  | true =>
    cases values with
    | nil =>
      simp only [buildLoop, nextCall, buildFused, buildLayer, bind_assoc, if_true, pure_eq_ok, ok_bind]
    | cons v' values =>
      simp only [buildLoop, nextCall, buildFused, bind_assoc, pure_bind, if_true]
      refine bind_congr fun p => bind_congr fun q => bind_congr fun r => bind_congr fun l => ?_
      cases r.2 <;> rfl

theorem startBuilding_leadsTo {round : ℚ → Option ℚ} {files : String → Option (List UInt8)} {path : String}
    {option : OptOption K} :
    (∀ e, (startBuilding round files path option : Except Error (Building K Pt)) = .error e →
      buildNetworkFile round files E file path .fresh option = .error e) ∧
    ∀ b : Building K Pt, startBuilding round files path option = .ok b →
      b.LeadsTo E file (buildNetworkFile round files E file path .fresh option) := by
  unfold startBuilding buildNetworkFile
  cases loadLayersFile round files path with
  | error e =>
    refine ⟨fun e' he => ?_, fun b hb => (by cases hb)⟩
    cases he
    rfl
  | ok values =>
    refine ⟨fun e he => (by cases he), fun b hb => ?_⟩
    cases hb
    show buildLoop E file option.enableFuseLayers values ⟨.fresh, option⟩ = _
    simp only [List.nil_append]
    exact (id_map _).symm

/-- At the end of the array, the network is complete. -/
theorem Building.LeadsTo.done (h : b.LeadsTo E file whole) (hnil : b.values = []) :
    whole = .ok (b.layers, ⟨b.own, b.option⟩) := by
  rw [h, hnil, buildLoop_nil, map_ok, List.append_nil]

/-- A pass that fails is one that fails alone, and one that does not keeps what the loop leads to. -/
theorem Building.LeadsTo.step (h : b.LeadsTo E file whole)
    (hread : ∀ call ∈ b.upcoming E.arith, Agrees b.own next call) :
    (∀ e, b.step E file next = .error e → whole = .error e) ∧
    ∀ b' next', b.step E file next = .ok (b', next') → b'.LeadsTo E file whole := by
  cases hvalues : b.values with
  | nil =>
    simp only [Building.step, hvalues]
    refine ⟨fun e he => (by cases he), fun b' next' hb => ?_⟩
    cases hb
    exact h
  | cons v values =>
    simp only [LeadsTo, hvalues, buildLoop_cons] at h
    simp only [Building.step, hvalues]
    cases hcall : nextCall E.arith b.fuses v values with
    | error e =>
      simp only [hcall, error_bind] at h ⊢
      refine ⟨fun e' he => ?_, fun b' next' hb => (by cases hb)⟩
      cases he
      exact h
    | ok p =>
      obtain ⟨call, rest⟩ := p
      have hagree : Agrees b.own next call := by
        refine hread call ?_
        simp only [Building.upcoming, hvalues, hcall]
        rfl
      have hself : buildLayer E file call ⟨b.own, b.option⟩ =
          onNext call b.own <$> buildLayer E file call ⟨b.own, b.option⟩ :=
        buildLayer_frame E file b.option (agrees_refl b.own call)
      simp only [hcall, ok_bind] at h ⊢
      rw [buildLayer_frame E file b.option hagree]
      cases hown : buildLayer E file call ⟨b.own, b.option⟩ with
      | error e =>
        simp only [hown, error_bind] at h
        refine ⟨fun e' he => ?_, fun b' next' hb => (by cases hb)⟩
        cases he
        exact h
      | ok p =>
        obtain ⟨layer, st⟩ := p
        refine ⟨fun e he => (by cases he), fun b' next' hb => ?_⟩
        cases hb
        rw [hown] at hself
        -- the variables that the call has not written are still those of this thread
        have hnext : carry st.next b.own call = st.next :=
          (congrArg (fun p => p.2.next) (Except.ok.inj hself)).symm
        simp only [LeadsTo, onNext, carry_carry, hnext]
        simp only [hown, ok_bind] at h
        rw [h]
        cases buildLoop E file b.fuses rest st with
        | error e => rfl
        | ok q => simp only [ok_bind, pure_eq_ok, map_ok, List.append_assoc, List.singleton_append]

end Cnn
