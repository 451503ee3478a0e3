import LanScan.Spec.Events
import LanScan.Spec.Ios.ScannerInvariant

/-!
# No host after the nil (iOS)

The last `Task.isCancelled` of a worker stands before `resolveHostname`, which
may take seconds; whatever it returns is dispatched.  So a host follows the nil
of `stopScanning` exactly when some worker is past that check when the nil is
dispatched.  The nil of the body itself comes behind the task group, after every
host.

## Key results

- `main_all_of_transition`: a step dispatches nothing, a nil, or the host of a
  worker past its last check
- `noHostAfterNil_of_settledStop`: no host follows a nil in runs in which
  `stopScanning` dispatches its nil while no worker is past its last check
- `host_after_nil`: a run in which a host follows the nil
-/

namespace LanScan.Ios.Scanner

variable {cfg : Config} {s s' : State} {l : Label}

/-! ## Workers past their last check -/

/-- The worker will dispatch its host without checking `Task.isCancelled` again. -/
def Worker.pastCheck (w : Worker) : Bool :=
  match w.pc with
  | .checking _ _ | .inStage _ _ | .resolved _ => true
  | .atHead | .checked _ | .pinging _ | .pinged _ _ | .done => false

/-- Some worker is past its last check and has not yet dispatched its host. -/
def State.pastCheck (s : State) : Bool := s.workers.any Worker.pastCheck

/-- `stopScanning` dispatches its nil only while no worker is past its last check. -/
def SettledStop (s : State) (l : Label) : Prop :=
  l = .stop → s.stop = .dispatching → s.pastCheck = false

instance (s : State) (l : Label) : Decidable (SettledStop s l) :=
  inferInstanceAs (Decidable (_ → _ → _))

/-- No worker is past its last check. -/
theorem pastCheck_eq_false_iff :
    s.pastCheck = false ↔ ∀ w ∈ s.workers, w.pastCheck = false := by
  simp only [State.pastCheck, List.any_eq_false, Bool.not_eq_true]

/-- Behind the task group no worker is left past its last check. -/
theorem WellFormed.pastCheck_of_isJoined (hwf : WellFormed s) (h : s.body.isJoined = true) :
    s.pastCheck = false := by
  rw [pastCheck_eq_false_iff]
  intro w hw
  rw [Worker.pastCheck, hwf.done h w hw]

/-- A worker dispatches a host only from past its last check. -/
theorem WorkerStep.pastCheck_of_dispatched {plan : ScanPlan} {view : View} {w w' : Worker}
    {effect : Effect} {host : Host} (h : WorkerStep cfg plan view w (.next w' effect))
    (hdispatched : effect.dispatched = some host) : w.pastCheck = true := by
  cases h with
  | dispatch => rfl
  | _ => exact nomatch hdispatched

/-- A cancelled worker does not get past its last check. -/
theorem WorkerStep.pastCheck_eq_false {plan : ScanPlan} {view : View} {w w' : Worker}
    {effect : Effect} (h : WorkerStep cfg plan view w (.next w' effect))
    (hcancelled : view.taskCancelled = true) (hw : w.pastCheck = false) :
    w'.pastCheck = false := by
  cases h with
  | reachable hactive =>
    rw [hcancelled] at hactive
    exact nomatch hactive
  | skipStage | startStage => exact nomatch hw
  | _ => rfl

/-- A worker in a stage is past its check. -/
theorem StageStep.pastCheck_eq_true {w : Worker} {outcome : Outcome} (h : StageStep w outcome) :
    w.pastCheck = true := by
  cases h <;> rfl

/-- A stage that returns has no effect on the scan. -/
theorem StageStep.effect_eq {w w' : Worker} {effect : Effect}
    (h : StageStep w (.next w' effect)) : effect = {} := by
  cases h <;> rfl

/-- The messages after a step of a worker. -/
theorem main_all_advance (s : State) (k : Nat) (w : Worker) (effect : Effect) :
    (s.advance k w effect).main.all = s.main.all ++ effect.dispatched.toList.map .host := by
  cases h : effect.dispatched with
  | none => simp only [State.advance, h, Option.toList, List.map_nil, List.append_nil]
  | some host => simp only [State.advance, h, Fifo.all_post, Option.toList, List.map_cons,
      List.map_nil]

/-- What a step can append to the messages: nothing, the nil of `stopScanning` or
    of the body, or the host of a worker past its check. -/
theorem main_all_of_transition (h : Transition cfg s l s') :
    s'.main.all = s.main.all ∨
      (l = .stop ∧ s.stop = .dispatching ∧
        s' = { s with stop := .completed, main := s.main.post .null }) ∨
      (s.body = .dispatching ∧ s' = { s with body := .finished, main := s.main.post .null }) ∨
      ∃ host, s'.main.all = s.main.all ++ [.host host] ∧ s.pastCheck = true := by
  cases h with
  | @worker k w w' plan effect hbody hk hw =>
    rw [main_all_advance]
    -- a worker dispatches nothing, or its host
    cases hdispatched : effect.dispatched with
    | none => left; exact List.append_nil _
    | some host =>
      right; right; right
      refine ⟨host, rfl, List.any_eq_true.mpr ⟨w, List.mem_of_getElem? hk, ?_⟩⟩
      exact hw.pastCheck_of_dispatched hdispatched
  | stageReturns hk hw =>
    left
    rw [main_all_advance, hw.effect_eq]
    exact List.append_nil _
  | dispatch hbody => exact .inr (.inr (.inl ⟨hbody, rfl⟩))
  | stopDispatch hstop => exact .inr (.inl ⟨rfl, hstop, rfl⟩)
  | deliver hdeliver => exact .inl (Fifo.all_of_deliver hdeliver)
  | _ => exact .inl rfl

/-! ## The invariant -/

/-- No worker will dispatch a host any more. -/
structure Settled (s : State) : Prop where
  pastCheck : s.pastCheck = false
  halted : s.cancelled = true ∨ s.body.isJoined = true

/-- Workers start before their first check. -/
theorem launchWorkers_pastCheck (plan : ScanPlan) :
    ∀ w ∈ launchWorkers plan, w.pastCheck = false := by
  intro w hw
  obtain ⟨i, _, rfl⟩ := List.mem_map.mp hw
  rfl

/-- Once settled, the scanner stays settled: a check that is still to come fails. -/
theorem settled_step (hs : Settled s) (h : Transition cfg s l s') : Settled s' := by
  obtain ⟨hpast, hover⟩ := hs
  have hworkers := pastCheck_eq_false_iff.mp hpast
  cases h with
  | start hbody =>
    refine ⟨pastCheck_eq_false_iff.mpr (launchWorkers_pastCheck _), .inl ?_⟩
    rw [hbody] at hover
    exact hover.resolve_right nofun
  | @worker k w w' plan effect hbody hk hw =>
    rw [hbody] at hover
    -- the task group is still running, so the task was cancelled
    have hcancelled : s.cancelled = true := hover.resolve_right nofun
    have hw' := hw.pastCheck_eq_false hcancelled (hworkers w (List.mem_of_getElem? hk))
    exact ⟨pastCheck_eq_false_iff.mpr (List.forall_mem_set hworkers hw'), .inl hcancelled⟩
  | stageReturns hk hw =>
    -- a worker inside a stage is past its check already
    have hw' := hworkers _ (List.mem_of_getElem? hk)
    rw [hw.pastCheck_eq_true] at hw'
    exact nomatch hw'
  | joined | finalCheck | finalCheckNil | clear | dispatch => exact ⟨hpast, .inr rfl⟩
  | stopCancel =>
    refine ⟨hpast, hover.imp_left fun hcancelled => ?_⟩
    show (s.cancelled || s.scanningTask) = true
    rw [hcancelled, Bool.true_or]
  | assign | startTrap | workerTrap | stageTrap | stopCheck | stopCheckNil | stopClear
  | stopDispatch | deliver => exact ⟨hpast, hover⟩

/-- Hosts precede nils, and once a nil has been dispatched the scanner is settled. -/
structure Ordered (s : State) : Prop where
  wellFormed : WellFormed s
  order : NoHostAfterNull s.main.all
  settled : .null ∈ s.main.all → Settled s

/-- A scan starts so. -/
theorem ordered_init : Ordered init :=
  ⟨wellFormed_init, List.Pairwise.nil, fun h => absurd h List.not_mem_nil⟩

/-- Every step keeps it, if `stopScanning` waits for the workers past their checks. -/
theorem ordered_step (ho : Ordered s) (hstop : SettledStop s l) (h : Transition cfg s l s') :
    Ordered s' := by
  have hwf := ho.wellFormed
  have hwf' := wellFormed_step hwf h
  rcases main_all_of_transition h with heq | ⟨rfl, hdispatching, rfl⟩ | ⟨hbody, rfl⟩ |
    ⟨host, heq, hpast⟩
  · refine ⟨hwf', by rw [heq]; exact ho.order, fun hmem => ?_⟩
    rw [heq] at hmem
    exact settled_step (ho.settled hmem) h
  · -- `stopScanning` has cancelled the task, or the body was past the task group
    have hover := hwf.stopped (.inr hdispatching)
    exact ⟨hwf', Fifo.all_post _ _ ▸ ho.order.append_null,
      fun _ => ⟨hstop rfl hdispatching, hover⟩⟩
  -- the body dispatches its nil behind the task group
  · have hpast := hwf.pastCheck_of_isJoined (by rw [hbody]; rfl)
    exact ⟨hwf', Fifo.all_post _ _ ▸ ho.order.append_null, fun _ => ⟨hpast, .inr rfl⟩⟩
  · -- a host comes from a worker past its check, so no nil has been dispatched yet
    have hnot : .null ∉ s.main.all := fun hmem => by
      rw [(ho.settled hmem).pastCheck] at hpast
      exact nomatch hpast
    refine ⟨hwf', by rw [heq]; exact ho.order.append_host hnot host, fun hmem => ?_⟩
    rw [heq, List.mem_append, List.mem_singleton] at hmem
    exact hmem.elim (fun hmem => absurd hmem hnot) nofun

/-- **Order of events.** In every run in which `stopScanning` dispatches its nil
    while no worker is past its last check, no host is delivered after a nil. -/
theorem noHostAfterNil_of_settledStop (cfg : Config) (ls : List Label) (s : State)
    (h : ((scanner cfg).restrict SettledStop).run init ls = some s) :
    NoHostAfterNull s.main.delivered := by
  have ho : Ordered s :=
    (scanner cfg).run_restrict_invariant SettledStop Ordered
      (fun _ _ _ ho hstop hs => ordered_step ho hstop (transition_of_step hs).2) ordered_init h
  exact ho.order.delivered

/-! ## Runs -/

/-- 192.168.0.0/30, where both addresses answer. -/
def pairConfig : Config where
  ipv4 := 3232235521
  cidrPrefixLength := 30
  ping _ := true

/-- `startScanning` returns, the body starts its workers, and the first one enters
    the mDNS stage for 192.168.0.1. -/
def resolvingScan : List Label :=
  [.assign, .body, .worker 0, .worker 0, .worker 0, .worker 0, .worker 0]

/-- A call of `stopScanning` after the first host has been dispatched. -/
theorem noHostAfterNil_of_settledStop_pair :
    NoHostAfterNull ((((scanner pairConfig).restrict SettledStop).run init
      (resolvingScan ++ [.stageReturns 0 (some "printer.local"), .worker 0, .stop, .stop, .stop,
        .stop, .deliver, .deliver])).get (by decide)).main.delivered :=
  noHostAfterNil_of_settledStop _ _ _ (Option.some_get _).symm

/-- `stopScanning` is called while the mDNS stage runs; its host follows the nil. -/
theorem host_after_nil : ¬ ∀ (cfg : Config) (ls : List Label) (s : State),
    (scanner cfg).run init ls = some s → NoHostAfterNull s.main.delivered := by
  intro h
  -- The scan is stopped while a worker waits for the name of its host.
  let ls := resolvingScan ++
    [.stop, .stop, .stop, .stop, .stageReturns 0 (some "printer"), .worker 0, .deliver, .deliver]
  have hrun : ((scanner pairConfig).run init ls).map (·.main.delivered) =
      some [.null, .host { ip := "192.168.0.1", hostname := some "printer" }] := by decide
  obtain ⟨s, hs, hdelivered⟩ := Option.map_eq_some_iff.mp hrun
  have hordered := h pairConfig ls s hs
  rw [hdelivered] at hordered
  exact absurd hordered (by decide)

end LanScan.Ios.Scanner
