import LanScan.Spec.Ios.ScannerOrder

/-!
# Resolver stages after stopScanning (iOS)

The checks in `resolveHostname` read the cancellation through `scanningTask`,
which `stopScanning` has set to nil by the time it completes.  So a check that is
evaluated afterwards never stops anything: it starts its stage.

## Key results

- `late_of_transition`: a check evaluated after `stopScanning` starts its stage
- `late_eq_nil_iff`: no stage starts late exactly in the runs without such a check
- `stage_after_stop`: a run in which a stage starts late
-/

namespace LanScan.Ios.Scanner

variable {cfg : Config} {s s' : State} {l : Label}

/-- The worker is about to evaluate a check of `resolveHostname`. -/
def Worker.atCheck (w : Worker) : Bool :=
  match w.pc with
  | .checking _ _ => true
  | _ => false

/-- No worker evaluates a check of `resolveHostname` after `stopScanning` has
    completed. -/
def EarlyCheck (s : State) (l : Label) : Prop :=
  match l with
  | .worker k => s.stop = .completed → ∀ w, s.workers[k]? = some w → w.atCheck = false
  | _ => True

instance (s : State) (l : Label) : Decidable (EarlyCheck s l) :=
  match l with
  | .worker k =>
    match h : s.workers[k]? with
    | none => isTrue fun _ _ hw => nomatch h.symm.trans hw
    | some v => decidable_of_iff (s.stop = .completed → v.atCheck = false)
        ⟨fun hv hs _ hw => Option.some.inj (h.symm.trans hw) ▸ hv hs, fun hw hs => hw hs v h⟩
  | .assign | .body | .stageReturns _ _ | .stop | .deliver => isTrue trivial

/-- A worker starts a stage exactly when it passes a check, and after
    `stopScanning` every check is passed. -/
theorem WorkerStep.started_eq {plan : ScanPlan} {view : View} {w w' : Worker} {effect : Effect}
    (h : WorkerStep cfg plan view w (.next w' effect)) :
    (w.atCheck = false → effect.started = none) ∧
      (w.atCheck = true → view.scanCancelled = false → effect.started ≠ none) := by
  cases h with
  | skipStage hcancelled =>
    refine ⟨nofun, fun _ hactive => ?_⟩
    rw [hcancelled] at hactive
    exact nomatch hactive
  | startStage => exact ⟨nofun, nofun⟩
  | _ => exact ⟨fun _ => rfl, nofun⟩

/-- Once `stopScanning` has completed no worker sees a cancellation in
    `scanningTask` any more. -/
theorem WellFormed.scanCancelled_eq_false (hwf : WellFormed s) (hstop : s.stop = .completed) :
    s.view.scanCancelled = false := by
  simp only [State.view]
  cases hcancelled : s.cancelled with
  | false => rw [Bool.and_false]
  | true => rw [hwf.cleared hcancelled (.inr hstop), Bool.false_and]

/-- Only a worker's step can start a stage late. -/
theorem late_of_transition (hwf : WellFormed s) (h : Transition cfg s l s') :
    (EarlyCheck s l → s'.late = s.late) ∧
      (¬ EarlyCheck s l → s.late.length < s'.late.length) := by
  cases h with
  | @worker k w w' plan effect hbody hk hw =>
    obtain ⟨hnone, hsome⟩ := hw.started_eq
    by_cases hstop : s.stop = .completed
    · have hlate : (s.advance k w' effect).late = s.late ++ effect.started.toList := by
        simp only [State.advance, hstop, if_true]
      rw [hlate]
      constructor
      · intro hearly
        rw [hnone (hearly hstop w hk)]
        exact List.append_nil _
      · intro hlateCheck
        have hcheck : w.atCheck = true := by
          refine Bool.of_not_eq_false fun hfalse => hlateCheck fun _ v hv => ?_
          rw [hk] at hv
          cases hv
          exact hfalse
        -- the check reads `scanningTask`, which is nil by now
        have hstarted := hsome hcheck (hwf.scanCancelled_eq_false hstop)
        cases heq : effect.started with
        | none => exact absurd heq hstarted
        | some stage => simp only [Option.toList, List.length_append, List.length_singleton]; omega
    -- before `stopScanning` has completed no stage counts as late
    · have hlate : (s.advance k w' effect).late = s.late := by
        simp only [State.advance, hstop, if_false]
      rw [hlate]
      exact ⟨fun _ => rfl, fun h => absurd (fun hs => absurd hs hstop) h⟩
  | stageReturns hk hw =>
    refine ⟨fun _ => ?_, fun h => absurd trivial h⟩
    rw [hw.effect_eq]
    simp only [State.advance, Option.toList, List.append_nil, ite_self]
  | workerTrap hbody hk hw =>
    refine ⟨fun _ => rfl, fun h => absurd (fun _ v hv => ?_) h⟩
    rw [hk] at hv
    cases hv
    cases hw
    rfl
  | _ => exact ⟨fun _ => rfl, fun h => absurd trivial h⟩

/-- **Stages after the stop.** A run has started no stage by a check evaluated after
    `stopScanning` had completed if and only if no such check was evaluated. -/
theorem late_eq_nil_iff (cfg : Config) (ls : List Label) (s : State)
    (h : (scanner cfg).run init ls = some s) :
    s.late = [] ↔ ((scanner cfg).restrict EarlyCheck).run init ls = some s := by
  have hiff := (scanner cfg).run_restrict_iff EarlyCheck WellFormed (fun s => s.late.length)
    (fun _ _ _ hwf hs => wellFormed_step hwf (transition_of_step hs).2)
    (fun _ _ _ hwf hs hc =>
      congrArg List.length ((late_of_transition hwf (transition_of_step hs).2).1 hc))
    (fun _ _ _ hwf hs hc => (late_of_transition hwf (transition_of_step hs).2).2 hc)
    wellFormed_init h
  rw [← hiff, ← List.length_eq_zero_iff]
  rfl

/-- The call of `stopScanning` completes while the mDNS stage runs, and the stage
    finds a name. -/
def stoppedScan : List Label :=
  resolvingScan ++ [.stop, .stop, .stop, .stop, .stageReturns 0 (some "printer"), .worker 0]

/-- The state after it. -/
def stoppedState : State := ((scanner pairConfig).run init stoppedScan).get (by decide)

/-- No stage has started late, as all checks were early. -/
theorem late_eq_nil_stopped : stoppedState.late = [] ↔
    ((scanner pairConfig).restrict EarlyCheck).run init stoppedScan = some stoppedState :=
  late_eq_nil_iff pairConfig stoppedScan stoppedState (Option.some_get _).symm

/-- The mDNS stage finds no name, and the NetBIOS lookup starts after the stop. -/
theorem stage_after_stop : ¬ ∀ (cfg : Config) (ls : List Label) (s : State),
    (scanner cfg).run init ls = some s → s.late = [] := by
  intro h
  let ls := resolvingScan ++ [.stop, .stop, .stop, .stop, .stageReturns 0 none, .worker 0]
  have hrun : ((scanner pairConfig).run init ls).map (·.late) =
      some [("192.168.0.1", .netBIOS)] := by decide
  obtain ⟨s, hs, hlate⟩ := Option.map_eq_some_iff.mp hrun
  have hnone := h pairConfig ls s hs
  rw [hlate] at hnone
  exact nomatch hnone

end LanScan.Ios.Scanner
