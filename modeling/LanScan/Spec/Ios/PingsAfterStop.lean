import LanScan.ForStd.StepCount
import LanScan.Spec.Ios.ScannerInvariant
import LanScan.Spec.Ios.SubnetCorrect

/-!
# Pings after `stopScanning` (iOS)

A worker checks `Task.isCancelled` at the head of its loop and pings the address behind it.
`stopScanning` can cancel the task in between, and then the worker still sends this ping,
but no other one.

## Key results

- `pings_of_worker_le_one`: from then on each worker starts at most one ping
- `pings_le`: and all workers start at most as many as there are workers
-/

namespace LanScan.Ios.Scanner

variable {cfg : Config} {s s' : State} {l : Label}

/-! ## Pings -/

/-- The worker that starts a ping in a step. -/
def pingStart (cfg : Config) (s : State) : Label → Option Nat
  | .worker k =>
    match s.body, s.workers[k]? with
    | .running plan, some w =>
      match w.step cfg plan s.view with
      | some (.next _ effect) => effect.pinged.map fun _ => k
      | some .trap | none => none
    | _, _ => none
  | _ => none

/-- The step starts a ping of worker `k`. -/
def startsPing (cfg : Config) (k : Nat) (s : State) (l : Label) : Bool := pingStart cfg s l = some k

/-- The step starts a ping. -/
def startsAnyPing (cfg : Config) (s : State) (l : Label) : Bool := (pingStart cfg s l).isSome

/-- Worker `k` is past the check at the head of its loop and about to ping. -/
def AboutToPing (k : Nat) (s : State) : Prop :=
  ∃ index rest, s.workers[k]? = some ⟨.checked index, rest⟩

/-- A ping starts in the step of a worker that is about to ping. -/
theorem aboutToPing_of_pingStart {k : Nat} (h : pingStart cfg s l = some k) :
    l = .worker k ∧ AboutToPing k s := by
  cases l with
  | worker j =>
    simp only [pingStart] at h
    split at h
    · rename_i plan w hbody hw
      split at h
      · rename_i w' effect hstep
        obtain ⟨ipAddress, hpinged, rfl⟩ := Option.map_eq_some_iff.mp h
        refine ⟨rfl, ?_⟩
        -- Of the steps of a worker only one starts a ping.
        cases workerStep_of_step hstep with
        | ping haddr => exact ⟨_, _, hw⟩
        | _ => exact nomatch hpinged
      · exact nomatch h
      · exact nomatch h
    · exact nomatch h
  | _ => exact nomatch h

/-- The log of the pings grows with the steps that start one. -/
theorem length_pings_of_step (h : step cfg s l = some s') :
    s'.pings.length = s.pings.length + (startsAnyPing cfg s l).toNat := by
  cases l with
  | worker k =>
    have hlive : s.crashed = false := (transition_of_step h).1
    simp only [step, hlive, Bool.false_eq_true, if_false, stepWorker] at h
    split at h
    · rename_i plan w hbody hk
      obtain ⟨outcome, hw, rfl⟩ := Option.map_eq_some_iff.mp h
      cases outcome with
      | trap => simp [startsAnyPing, pingStart, hbody, hk, hw, State.apply]
      | next w' effect =>
        -- only the step of a worker starts one, with its effect
        have hping : startsAnyPing cfg s (.worker k) = effect.pinged.isSome := by
          simp [startsAnyPing, pingStart, hbody, hk, hw]
        rw [hping]
        cases hpinged : effect.pinged <;> simp [State.apply, State.advance, hpinged]
    · cases h
  | stageReturns k hostname =>
    cases (transition_of_step h).2 with
    | stageReturns hk hw => cases hw <;> simp [startsAnyPing, pingStart, State.advance]
    | stageTrap => simp [startsAnyPing, pingStart]
  | _ => cases (transition_of_step h).2 <;> simp [startsAnyPing, pingStart]

/-! ## The cancellation -/

/-- A task that has been cancelled stays so. -/
theorem cancelled_of_step (h : Transition cfg s l s') (hcancelled : s.cancelled = true) :
    s'.cancelled = true := by
  cases h with
  | stopCancel => exact Bool.or_eq_true_iff.mpr (.inl hcancelled)
  | _ => exact hcancelled

/-- The number of workers, whatever the address and the prefix length are. -/
theorem concurrentThreads_of_scanPlan {ipv4 cidrPrefixLength : Int64} {plan : ScanPlan}
    (h : scanPlan ipv4 cidrPrefixLength = some plan) :
    plan.concurrentThreads.toInt = (32 - cidrPrefixLength.toInt) * 4 := by
  unfold scanPlan at h
  simp only [Option.bind_eq_bind, Option.bind_eq_some_iff] at h
  obtain ⟨hostBits, hbits, power, -, numberOfHosts, -, threads, hthreads, firstAddr, -, hplan⟩ := h
  split at hplan
  · exact nomatch hplan
  · cases hplan
    rw [toInt_of_checked hthreads, toInt_of_checked hbits]

/-- The number of workers that a scan may start. -/
def Config.workerCount (cfg : Config) : Nat := ((32 - cfg.cidrPrefixLength.toInt) * 4).toNat

/-- No step adds more workers than the scan has. -/
theorem length_workers_le_of_step (h : Transition cfg s l s')
    (hle : s.workers.length ≤ cfg.workerCount) : s'.workers.length ≤ cfg.workerCount := by
  cases h with
  | start _ hplan => simp [launchWorkers, concurrentThreads_of_scanPlan hplan, Config.workerCount]
  | worker | stageReturns => simpa [State.advance] using hle
  | _ => exact hle

/-- There are never more workers than the scan has. -/
theorem length_workers_le_of_run {ls : List Label} (h : (scanner cfg).run init ls = some s) :
    s.workers.length ≤ cfg.workerCount := by
  apply (scanner cfg).run_invariant _ _ (Nat.zero_le _) h
  intro s l s' hle hstep
  exact length_workers_le_of_step (transition_of_step hstep).2 hle

/-- The task is cancelled, and there are not more workers than it starts. -/
structure Cancelled (cfg : Config) (s : State) : Prop where
  task : s.cancelled = true
  length_le : s.workers.length ≤ cfg.workerCount

/-- A cancelled scan stays cancelled. -/
theorem cancelled_step (hc : Cancelled cfg s) (h : Transition cfg s l s') : Cancelled cfg s' where
  task := cancelled_of_step h hc.task
  length_le := length_workers_le_of_step h hc.length_le

/-! ## Pings after the cancellation -/

variable {k : Nat}

/-- No worker gets past its check any more, and one that is past it leaves with its ping. -/
theorem aboutToPing_of_step (hc : Cancelled cfg s) (h : Transition cfg s l s')
    (habout : AboutToPing k s') : AboutToPing k s ∧ startsPing cfg k s l = false := by
  obtain ⟨index, rest, hget⟩ := habout
  have hother (hl : l ≠ .worker k) : startsPing cfg k s l = false := by
    apply decide_eq_false
    intro hping
    exact hl (aboutToPing_of_pingStart hping).1
  cases h with
  | start _ hplan =>
    -- the new workers are at the head of their loops
    obtain ⟨i, -, hw⟩ := List.mem_map.mp (List.mem_of_getElem? hget)
    have hpc := congrArg Worker.pc hw
    cases hpc
  | @worker j w w' plan effect hbody hk hw =>
    by_cases hjk : j = k
    · subst hjk
      have hlt := (List.getElem?_eq_some_iff.mp hk).1
      have hw' : w' = ⟨.checked index, rest⟩ := by
        simpa [State.advance, List.getElem?_set_self hlt] using hget
      subst hw'
      cases hw with
      | check hactive => exact absurd (hc.task.symm.trans hactive) (by decide)
    · refine ⟨⟨index, rest, ?_⟩, hother fun heq => hjk (Label.worker.inj heq)⟩
      simpa [State.advance, List.getElem?_set_ne hjk] using hget
  | @workerTrap j w plan hbody hk hw =>
    refine ⟨⟨index, rest, hget⟩, ?_⟩
    cases hw with
    | trap haddr => simp [startsPing, pingStart, hbody, hk, Worker.step, haddr]
  | @stageReturns j w w' hostname effect hk hw =>
    by_cases hjk : j = k
    · subst hjk
      have hlt := (List.getElem?_eq_some_iff.mp hk).1
      have hw' : w' = ⟨.checked index, rest⟩ := by
        simpa [State.advance, List.getElem?_set_self hlt] using hget
      subst hw'
      cases hw
    · refine ⟨⟨index, rest, ?_⟩, hother (by simp)⟩
      simpa [State.advance, List.getElem?_set_ne hjk] using hget
  | _ => exact ⟨⟨index, rest, hget⟩, hother (by simp)⟩

/-- Each worker starts at most one ping. -/
theorem pings_of_worker_le_one {ks : List Label} (hc : Cancelled cfg s)
    (h : (scanner cfg).run s ks = some s') (k : Nat) :
    (scanner cfg).stepCount (startsPing cfg k) s ks ≤ 1 := by
  apply And.left
  apply Lts.stepCount_le_one (I := Cancelled cfg) (A := AboutToPing k) _ _ _ hc h
  · intro s l s' hc hstep
    exact cancelled_step hc (transition_of_step hstep).2
  · intro s l hping
    exact (aboutToPing_of_pingStart (of_decide_eq_true hping)).2
  · intro s l s' hc hstep
    exact aboutToPing_of_step hc (transition_of_step hstep).2

/-- All workers start at most as many pings as there are workers. -/
theorem pings_le {ks : List Label} (hc : Cancelled cfg s) (h : (scanner cfg).run s ks = some s') :
    s'.pings.length ≤ s.pings.length + cfg.workerCount := by
  rw [Lts.eq_add_stepCount (fun s => s.pings.length) (fun _ _ _ => length_pings_of_step) h]
  apply Nat.add_le_add_left
  -- Each worker starts one more ping at most, so together no more than there are workers.
  apply Lts.stepCount_le_of_le_one (I := Cancelled cfg) (q := startsPing cfg) _ _ hc h
  · intro k _
    exact pings_of_worker_le_one hc h k
  · intro s l s' hc hstep
    exact cancelled_step hc (transition_of_step hstep).2
  · intro s l s' hc hstep hping
    obtain ⟨k, hk⟩ := Option.isSome_iff_exists.mp hping
    obtain ⟨-, index, rest, hget⟩ := aboutToPing_of_pingStart hk
    have hlt := (List.getElem?_eq_some_iff.mp hget).1
    have hle := hc.length_le
    exact ⟨k, by omega, decide_eq_true hk⟩

end LanScan.Ios.Scanner
