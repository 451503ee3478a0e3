import LanScan.ForStd.StepCount
import LanScan.Spec.Android.ScannerInvariant
import LanScan.Spec.Android.SubnetCorrect

/-!
# Probes after `stopScanning` (Android)

A worker checks `isActive`, computes the address and probes it.  `stopScanning` can cancel
the job in between, and then the worker still starts this probe, but no other one.

## Key results

- `jobActive_eq_false_iff`: the job is cancelled once a call of `stopScanning` has done so
- `probes_of_worker_le_one`: from then on each worker starts at most one probe
- `probes_le`: and all workers start at most as many as there are workers
-/

namespace LanScan.Android.Scanner

variable {cfg : Config} {s s' : State} {l : Label}

/-! ## Probes -/

/-- The worker that starts a probe in a step. -/
def probeStart (cfg : Config) (s : State) : Label → Option Nat
  | .worker k => do
    let w ← s.workers[k]?
    let (_, effect) ← w.step cfg s.isActive
    effect.probed.map fun _ => k
  | _ => none

/-- The step starts a probe of worker `k`. -/
def startsProbe (cfg : Config) (k : Nat) (s : State) (l : Label) : Bool :=
  probeStart cfg s l = some k

/-- The step starts a probe. -/
def startsAnyProbe (cfg : Config) (s : State) (l : Label) : Bool := (probeStart cfg s l).isSome

/-- Worker `k` is past its check of `isActive` and about to probe. -/
def AboutToProbe (k : Nat) (s : State) : Prop :=
  ∃ index rest, s.workers[k]? = some ⟨.checked index, rest⟩

/-- A probe starts in the step of a worker that is about to probe. -/
theorem aboutToProbe_of_probeStart {k : Nat} (h : probeStart cfg s l = some k) :
    l = .worker k ∧ AboutToProbe k s := by
  cases l with
  | worker j =>
    simp only [probeStart, bind, Option.bind_eq_some_iff, Option.map_eq_some_iff] at h
    obtain ⟨w, hw, ⟨w', effect⟩, hstep, address, hprobed, rfl⟩ := h
    refine ⟨rfl, ?_⟩
    -- Of the steps of a worker only one starts a probe.
    cases workerStep_of_step hstep with
    | probe haddr => exact ⟨_, _, hw⟩
    | _ => exact nomatch hprobed
  | _ => exact nomatch h

/-- The log of the probes grows with the steps that start one. -/
theorem length_probed_of_step (h : step cfg s l = some s') :
    s'.probed.length = s.probed.length + (startsAnyProbe cfg s l).toNat := by
  cases l with
  | worker k =>
    -- A worker that does not exist makes no step.
    cases hk : s.workers[k]? with
    | none =>
      simp only [step, hk] at h
      cases h
    | some w =>
      simp only [step, hk, Option.map_eq_some_iff] at h
      obtain ⟨⟨w', effect⟩, hw, rfl⟩ := h
      have hprobe : startsAnyProbe cfg s (.worker k) = effect.probed.isSome := by
        simp [startsAnyProbe, probeStart, hk, hw]
      rw [hprobe]
      cases hprobed : effect.probed <;> simp [State.advance, hprobed]
  | _ =>
    cases transition_of_step h <;> simp [startsAnyProbe, probeStart, State.advance]

/-! ## The cancellation -/

/-- The number of workers that the job starts. -/
def Config.workerCount (cfg : Config) : Nat := (scanThreads cfg.cidrPrefixLength).toInt.toNat

/-- The type of a prefix length is `Short`. -/
theorem workerCount_eq (hlo : -32768 ≤ cfg.cidrPrefixLength.toInt)
    (hhi : cfg.cidrPrefixLength.toInt ≤ 32767) :
    cfg.workerCount = ((32 - cfg.cidrPrefixLength.toInt) * 4).toNat := by
  rw [Config.workerCount, toInt_scanThreads hlo hhi, Int.mul_comm]

/-- The job is cancelled, and with it the scope of its workers, of which there are not more
    than the job starts. -/
structure Cancelled (cfg : Config) (s : State) : Prop where
  job : s.jobActive = false
  scope : s.isActive = false
  length_le : s.workers.length ≤ cfg.workerCount

/-- No step adds more workers than the scan has. -/
theorem length_workers_le_of_step (h : Transition cfg s l s')
    (hle : s.workers.length ≤ cfg.workerCount) :
    s'.workers.length ≤ cfg.workerCount := by
  cases h with
  | launch => simp [launchWorkers, Config.workerCount]
  | worker | processHost => simpa [State.advance] using hle
  | _ => exact hle

/-- There are never more workers than the scan has. -/
theorem length_workers_le_of_run {ls : List Label} (h : (scanner cfg).run init ls = some s) :
    s.workers.length ≤ cfg.workerCount := by
  apply (scanner cfg).run_invariant _ _ (Nat.zero_le _) h
  intro s l s' hle hstep
  exact length_workers_le_of_step (transition_of_step hstep) hle

/-- A job that has been cancelled stays so. -/
theorem jobActive_of_step (h : Transition cfg s l s') (hjob : s.jobActive = false) :
    s'.jobActive = false := by
  cases h with
  | stopCancel => rfl
  | _ => exact hjob

/-- Only `stopCancel` touches the job. -/
theorem job_of_step (h : Transition cfg s l s') (hl : l ≠ .stopCancel) :
    s'.jobActive = s.jobActive ∧ s'.job = s.job := by
  cases h with
  | stopCancel | stopAgain => exact absurd rfl hl
  | _ => exact ⟨rfl, rfl⟩

/-- `stopCancel` cancels the job. -/
theorem jobActive_of_stopCancel (h : Transition cfg s .stopCancel s') (hjob : s.job = true) :
    s'.jobActive = false := by
  cases h with
  | stopCancel => rfl
  | stopAgain _ hnone => exact absurd (hjob.symm.trans hnone) (by decide)

/-- The job is cancelled if and only if a call of `stopScanning` has done so. -/
theorem jobActive_eq_false_iff {ls : List Label} (h : (scanner cfg).run init ls = some s) :
    s.jobActive = false ↔ .stopCancel ∈ ls := by
  -- up to the first `stopCancel` the job is active, and from there on it is not
  have hrun : (∀ l ∈ ls, l ≠ .stopCancel) ∧ s.jobActive = true ∧ s.job = true ∨
      (∃ l ∈ ls, ¬ l ≠ .stopCancel) ∧ s.jobActive = false := by
    apply (scanner cfg).run_invariant_until (fun s => s.jobActive = true ∧ s.job = true)
      (fun s => s.jobActive = false) _ _ _ ⟨rfl, rfl⟩ h
    · intro s l s' hs hl hstep
      obtain ⟨hactive, hjob⟩ := job_of_step (transition_of_step hstep) hl
      exact ⟨hactive.trans hs.1, hjob.trans hs.2⟩
    · intro s l s' hs hl hstep
      obtain rfl := not_not.mp hl
      exact @jobActive_of_stopCancel cfg s s' (transition_of_step hstep) hs.2
    · intro s l s' hs hstep
      exact jobActive_of_step (transition_of_step hstep) hs
  rcases hrun with ⟨hall, hactive, -⟩ | ⟨⟨l, hl, hne⟩, hjob⟩
  · rw [hactive]
    exact ⟨nofun, fun hmem => absurd rfl (hall _ hmem)⟩
  · obtain rfl := not_not.mp hne
    exact ⟨fun _ => hl, fun _ => hjob⟩

/-- A run with a `stopCancel` leads to a cancelled scan. -/
theorem cancelled_of_run {ls : List Label} (h : (scanner cfg).run init ls = some s)
    (hstop : .stopCancel ∈ ls) : Cancelled cfg s where
  job := (jobActive_eq_false_iff h).mpr hstop
  scope := (wellFormed_of_run h).inactive ((jobActive_eq_false_iff h).mpr hstop)
  length_le := length_workers_le_of_run h

/-- A cancelled scan stays cancelled. -/
theorem cancelled_step (hc : Cancelled cfg s) (h : Transition cfg s l s') : Cancelled cfg s' where
  job := jobActive_of_step h hc.job
  length_le := length_workers_le_of_step h hc.length_le
  scope := by
    have hscope := hc.scope
    -- A scope that was left stays left, whatever its cause was.
    cases h with
    | worker => exact isActive_of_raises hscope
    | timeout => rfl
    | stopCancel => exact (by cases s.cause <;> rfl : (s.cause.or (some .cancelled)).isNone = false)
    | _ => exact hscope

/-! ## Probes after the cancellation -/

variable {k : Nat}

/-- No worker gets past its check any more, and one that is past it leaves with its probe. -/
theorem aboutToProbe_of_step (hc : Cancelled cfg s) (h : Transition cfg s l s')
    (habout : AboutToProbe k s') : AboutToProbe k s ∧ l ≠ .worker k := by
  cases h with
  | launch _ hactive => exact absurd (hc.job.symm.trans hactive) (by decide)
  | @worker j w w' effect hk hw =>
    obtain ⟨index, rest, hget⟩ := habout
    by_cases hjk : j = k
    · subst hjk
      have hlt := (List.getElem?_eq_some_iff.mp hk).1
      have hw' : w' = ⟨.checked index, rest⟩ := by
        simpa [State.advance, List.getElem?_set_self hlt] using hget
      subst hw'
      -- the step that would bring the worker to its probe is the check, which fails
      cases hw with
      | check hactive => exact absurd (hc.scope.symm.trans hactive) (by decide)
    -- another worker has moved
    · refine ⟨⟨index, rest, ?_⟩, fun heq => hjk (Label.worker.inj heq)⟩
      simpa [State.advance, List.getElem?_set_ne hjk] using hget
  | @processHost j host rest hostname hk =>
    obtain ⟨index, rest', hget⟩ := habout
    by_cases hjk : j = k
    · subst hjk
      have hlt := (List.getElem?_eq_some_iff.mp hk).1
      simp [State.advance, List.getElem?_set_self hlt] at hget
    · refine ⟨⟨index, rest', ?_⟩, nofun⟩
      simpa [State.advance, List.getElem?_set_ne hjk] using hget
  | _ => exact ⟨habout, nofun⟩

/-- Each worker starts at most one probe. -/
theorem probes_of_worker_le_one {ks : List Label} (hc : Cancelled cfg s)
    (h : (scanner cfg).run s ks = some s') (k : Nat) :
    (scanner cfg).stepCount (startsProbe cfg k) s ks ≤ 1 := by
  apply And.left
  -- At most one probe is due after the cancel: a worker about to probe is so once.
  apply Lts.stepCount_le_one (I := Cancelled cfg) (A := AboutToProbe k) _ _ _ hc h
  · intro s l s' hc hstep
    exact cancelled_step hc (transition_of_step hstep)
  · intro s l hprobe
    exact (aboutToProbe_of_probeStart (of_decide_eq_true hprobe)).2
  · intro s l s' hc hstep habout
    obtain ⟨hbefore, hne⟩ := aboutToProbe_of_step hc (transition_of_step hstep) habout
    refine ⟨hbefore, decide_eq_false ?_⟩
    intro hprobe
    exact hne (aboutToProbe_of_probeStart hprobe).1

/-- All workers start at most as many probes as there are workers. -/
theorem probes_le {ks : List Label} (hc : Cancelled cfg s)
    (h : (scanner cfg).run s ks = some s') :
    s'.probed.length ≤ s.probed.length + cfg.workerCount := by
  rw [Lts.eq_add_stepCount (fun s => s.probed.length) (fun _ _ _ => length_probed_of_step) h]
  apply Nat.add_le_add_left
  -- Each worker starts one more probe at most, so together no more than there are workers.
  apply Lts.stepCount_le_of_le_one (I := Cancelled cfg) (q := startsProbe cfg) _ _ hc h
  · intro k _
    exact probes_of_worker_le_one hc h k
  · intro s l s' hc hstep
    exact cancelled_step hc (transition_of_step hstep)
  · intro s l s' hc hstep hprobe
    obtain ⟨k, hk⟩ := Option.isSome_iff_exists.mp hprobe
    obtain ⟨-, index, rest, hget⟩ := aboutToProbe_of_probeStart hk
    have hlt := (List.getElem?_eq_some_iff.mp hget).1
    have hle := hc.length_le
    exact ⟨k, by omega, decide_eq_true hk⟩

end LanScan.Android.Scanner
