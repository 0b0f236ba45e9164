import PPCNN.Cnn.Assignment
import PPCNN.Server.Predictions

/-!
# A server with one calculation thread

With one thread nobody writes the file-scope variables between two calls of a computation, but the models
before have left their values. `one_thread_refines`: if every structure file assigns before it reads, every
run of this server is one in which the threads do not disturb each other.
-/

set_option autoImplicit false

namespace Server

open Lib Share Cnn

variable {E K Pt Ct Keys : Type} [Field K] [LinearOrder K] {S : Service E K Pt Ct Keys}
  {s s' : BuildingServer E K Pt Ct Keys} {th : ℕ}

/-- Every structure file that a query can name assigns before it reads. -/
def AssignsFirst (S : Service E K Pt Ct Keys) : Prop :=
  ∀ e params values, loadLayersFile S.round (S.files e) (S.config.structurePath params) = .ok values →
    ∃ n, assigns S.arith (S.option params).enableFuseLayers n ⟨false, false⟩ values = true

/-- The steps that are no part of a computation meet `ok`. -/
def Others (ok : State Keys Ct → Action E Keys Ct → Prop) (s : BuildingServer E K Pt Ct Keys)
    (a : BuildingAction E Keys Ct) : Prop :=
  ∀ a', a = .other a' → ok s.server a'

omit [Field K] [LinearOrder K] in
instance {ok : State Keys Ct → Action E Keys Ct → Prop} [∀ t a, Decidable (ok t a)]
    (s : BuildingServer E K Pt Ct Keys) (a : BuildingAction E Keys Ct) : Decidable (Others ok s a) :=
  match a with
  | .other a => decidable_of_iff (ok s.server a) ⟨fun h _ ha => BuildingAction.other.inj ha ▸ h, fun h => h a rfl⟩
  | .begin _ _ | .finish _ | .pass _ => isTrue nofun

/-- No step starts or removes a thread. -/
theorem length_threads_step {P : Config E Keys Ct} {t t' : State Keys Ct} {a : Action E Keys Ct}
    (h : t.step P a = some t') : t'.threads.length = t.threads.length := by
  cases a with
  | tick d =>
    cases h
    rfl
  | pushQuery query =>
    cases h
    rcases pushQuery_cases P t query with hp | ⟨qque, _, _, _, hp⟩
    · rw [hp]
    · rw [hp]
  | popQuery th =>
    obtain ⟨id, q, qque, -, -, rfl⟩ := popQuery_cases h
    exact List.length_set
  | execQuery th e =>
    obtain ⟨id, q, -, ⟨result, -, rfl⟩ | ⟨err, -, rfl⟩⟩ := execQuery_cases h
    · exact List.length_set
    · exact List.length_set
  | pushResult th =>
    obtain ⟨id, result, -, ⟨rque, -, rfl⟩ | ⟨err, -, rfl⟩⟩ := pushResult_cases h
    · exact List.length_set
    · exact List.length_set
  | popResult client =>
    obtain ⟨id, q, result, rque, -, -, -, rfl⟩ := popResult_cases h
    rfl
  | cleanupResults =>
    cases h
    refine cleanupResults_keeps (I := fun t' => t'.threads.length = t.threads.length) (fun t' id ht => ?_) rfl
    rcases expire_cases t' id with hid | ⟨result, rque, -, hid⟩
    · rw [hid]
      exact ht
    · rw [hid]
      exact ht

/-- A thread that begins has read nothing. -/
theorem begin_assigns (hfiles : AssignsFirst S) {e : E} {query : Query Keys Ct} {b : Building K Pt}
    (h : S.begin e query = .ok b) (next : NextLayer) : b.Assigns S.arith next := by
  have hstart := h
  rw [Service.begin_eq (Service.starts_of_begin h)] at hstart
  obtain ⟨values, hload, hb⟩ := bind_eq_ok.1 hstart
  cases hb
  obtain ⟨n, hn⟩ := hfiles e query.params values hload
  exact ⟨n, _, hn, Assigned.sameOn_none _ _⟩

/-- The threads in the loop are on their own values. -/
def BuildingServer.OnOwn (S : Service E K Pt Ct Keys) (s : BuildingServer E K Pt Ct Keys) : Prop :=
  ∀ th x, s.building th = some x → x.2.Assigns S.arith s.next

namespace BuildingServer

omit [Field K] [LinearOrder K] in
theorem OnOwn.leave (h : s.OnOwn S) (t : State Keys Ct) :
    OnOwn S ⟨t, s.next, Function.update s.building th none⟩ := by
  intro th' x hx
  by_cases hdiff : th' = th
  · subst hdiff
    simp at hx
  · exact h th' x (by simpa [hdiff] using hx)

theorem OnOwn.step (hfiles : AssignsFirst S) (hc : s.Consistent S) (hone : s.server.threads.length = 1)
    (h : s.OnOwn S) {a : BuildingAction E Keys Ct} (hstep : s.step S a = some s') : s'.OnOwn S := by
  cases a with
  | other a =>
    have hmap : (s.server.step S.config a).map (fun server => { s with server }) = some s' := by
      cases a with
      | execQuery th e => cases hstep
      | _ => exact hstep
    obtain ⟨t, -, rfl⟩ := Option.map_eq_some_iff.1 hmap
    exact h
  | begin th e =>
    simp only [BuildingServer.step, begin] at hstep
    split at hstep
    · split at hstep
      · rename_i b hb
        cases hstep
        intro th' x hx
        by_cases hdiff : th' = th
        · subst hdiff
          obtain rfl : (e, b) = x := by simpa using hx
          exact begin_assigns hfiles hb s.next
        · exact h th' x (by simpa [hdiff] using hx)
      · cases hstep
        exact h.leave _
    · cases hstep
  | pass th =>
    simp only [BuildingServer.step, pass] at hstep
    split at hstep
    · rename_i queryId query e b hth hsome
      split at hstep
      · cases hstep
      · split at hstep
        · rename_i b' next hb
          cases hstep
          intro th' x hx
          by_cases hdiff : th' = th
          · subst hdiff
            obtain rfl : (e, b') = x := by simpa using hx
            exact (h th' _ hsome).step hb
          · -- there is no other thread
            obtain ⟨id, q, hth', -⟩ := hc th' x (by simpa [hdiff] using hx)
            have hlt := (List.getElem?_eq_some_iff.1 hth).1
            have hlt' := (List.getElem?_eq_some_iff.1 hth').1
            omega
        · cases hstep
          exact h.leave _
    · cases hstep
  | finish th =>
    simp only [BuildingServer.step, finish] at hstep
    split at hstep
    · split at hstep
      · split at hstep
        · cases hstep
          exact h.leave _
        · cases hstep
          exact h.leave _
      · cases hstep
    · cases hstep

end BuildingServer

/-- Every call of the one thread reads what its own computation has written. -/
theorem one_thread_undisturbed (hfiles : AssignsFirst S) {ok : State Keys Ct → Action E Keys Ct → Prop}
    (hexec : ∀ t th e, ok t (.execQuery th e)) (h : (buildingSystem S 1).Reachable (Others ok) s) :
    (buildingSystem S 1).Reachable (Undisturbed S ok) s ∧ s.server.threads.length = 1 ∧ s.OnOwn S := by
  induction h with
  | init hs =>
    refine ⟨.init hs, ?_, fun th x hx => ?_⟩
    · obtain ⟨⟨now, hstart⟩, -⟩ := hs
      rw [hstart]
      rfl
    · rw [hs.2 th] at hx
      cases hx
  | @step s s' a _ hok hstep ih =>
    obtain ⟨hreach, hone, hown⟩ := ih
    obtain ⟨hc, -⟩ := (building_simulates hexec 1).reachable hreach
    have hread : s.ReadsOwn S a := by
      cases a with
      | pass th => exact fun x hx => (hown th x hx).agrees
      | _ => trivial
    have hreach' := hreach.step ⟨hread, hok⟩ hstep
    refine ⟨hreach', ?_, hown.step hfiles hc hone hstep⟩
    obtain ⟨-, hsame | hother | ⟨th, e, hcomputes⟩⟩ := BuildingServer.step_mirrored hc hread hstep
    · rw [hsame]
      exact hone
    · exact (length_threads_step hother).trans hone
    · exact (length_threads_step hcomputes).trans hone

/-- With one calculation thread and structure files that assign before they read, every run is one in which
the computations do not disturb each other, and so one of the server whose computations are single steps. -/
theorem one_thread_refines (S : Service E K Pt Ct Keys) (ok : State Keys Ct → Action E Keys Ct → Prop)
    (hexec : ∀ t th e, ok t (.execQuery th e)) (hfiles : AssignsFirst S)
    (s : BuildingServer E K Pt Ct Keys) (h : (buildingSystem S 1).Reachable (Others ok) s) :
    (buildingSystem S 1).Reachable (Undisturbed S ok) s ∧ (system S.config 1).Reachable ok s.server := by
  obtain ⟨hreach, -, -⟩ := one_thread_undisturbed hfiles hexec h
  exact ⟨hreach, ((building_simulates hexec 1).reachable hreach).2⟩

section Sample

theorem hostFiles_assigns : AssignsFirst hostService := by
  intro e params values hload
  have hload : loadLayersFile some (hostFiles e) (hostService.config.structurePath params) = .ok values := hload
  generalize hostService.config.structurePath params = path at hload
  obtain ⟨r, hr⟩ := hostText_denotes
  by_cases hjson : path = "plain/mnist/saved_models/HCNN_structure.json"
  · have hfile : hostFiles e path = some hostText := if_pos hjson
    rw [loadLayersFile_of_denotes hfile hr] at hload
    cases hload
    cases (hostService.option params).enableFuseLayers with
    | false => exact ⟨5, by decide +kernel⟩
    | true => exact ⟨5, by decide +kernel⟩
  · have hfile : hostFiles e path = some [] ∨ hostFiles e path = none := by
      unfold hostFiles
      rw [if_neg hjson]
      split
      · exact .inl rfl
      · exact .inr rfl
    simp only [loadLayersFile, readJsonObj] at hload
    rcases hfile with hfile | hfile
    · rw [hfile] at hload
      cases hload
    · rw [hfile] at hload
      cases hload

/-- The second computation finds what the first has left. -/
def oneByOne : List (BuildingAction Unit Unit (Fin 2 → ℚ)) :=
  [.other (.pushQuery (pairQuery 0 2)), .other (.popQuery 0), .begin 0 (), .pass 0, .pass 0, .pass 0, .pass 0,
    .finish 0, .other (.pushResult 0), .other (.tick clockTicks), .other (.pushQuery (pairQuery 1 3)),
    .other (.popQuery 0), .begin 0 (), .pass 0, .pass 0, .pass 0, .pass 0, .finish 0, .other (.pushResult 0),
    .other (.popResult 1), .other (.popResult 0)]

theorem one_thread_refines_sample : ∃ s : BuildingServer Unit ℚ ℚ (Fin 2 → ℚ) Unit,
    s.server.deliveries.map Delivery.client = [0, 1] ∧
    (buildingSystem hostService 1).Reachable (Undisturbed hostService (FreshId hostService.config)) s ∧
    (system hostService.config 1).Reachable (FreshId hostService.config) s.server := by
  have hrun : ((buildingSystem hostService 1).run (Others (FreshId hostService.config))
      ⟨State.start 0 1, .fresh, fun _ => none⟩ oneByOne).map
      (fun s => s.server.deliveries.map Delivery.client) = some [0, 1] := by
    decide +kernel
  obtain ⟨s, hs, hdelivered⟩ := Option.map_eq_some_iff.1 hrun
  have hinit : (buildingSystem hostService 1).Reachable (Others (FreshId hostService.config))
      ⟨State.start 0 1, .fresh, fun _ => none⟩ := .init ⟨⟨0, rfl⟩, fun _ => rfl⟩
  exact ⟨s, hdelivered, one_thread_refines hostService (FreshId hostService.config) (fun _ _ _ => trivial)
    hostFiles_assigns s (hinit.run hs)⟩

end Sample

end Server
