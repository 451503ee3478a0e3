import LanScan.ForStd.List
import LanScan.Spec.Android.ScannerStep

/-!
# Invariants of the Android scanner

What holds in every reachable state, whatever the schedule: once the job has
left `joinAll` no worker runs any more, and a cancelled job has cancelled the
scope of its workers.
-/

namespace LanScan.Android.Scanner

variable {cfg : Config} {s s' : State} {l : Label}

/-- A worker that takes a step is not over. -/
theorem WorkerStep.isOver_eq_false {isActive : Bool} {w w' : Worker} {effect : Effect}
    (h : WorkerStep cfg isActive w w' effect) : w.isOver = false := by
  cases h <;> rfl

/-- The bookkeeping of structured concurrency. -/
structure WellFormed (s : State) : Prop where
  /-- before the job's body starts there are no workers -/
  none_of_created : s.pc = .created → s.workers = []
  /-- once `joinAll` has returned every worker is over -/
  joined : s.pc ≠ .created → s.pc ≠ .joining → ∀ w ∈ s.workers, w.isOver = true
  /-- cancelling the job cancels the scope of its workers -/
  inactive : s.jobActive = false → s.isActive = false
  /-- dropping the reference to the job cancels it -/
  dropped : s.job = false → s.jobActive = false
  /-- a `stopScanning` call under way has cancelled the job -/
  stopping : s.stopping = true → s.jobActive = false

theorem wellFormed_init : WellFormed init where
  none_of_created _ := rfl
  joined h := absurd rfl h
  inactive h := nomatch h
  dropped h := nomatch h
  stopping h := nomatch h

/-- While some worker can still move, the job is in `joinAll`. -/
theorem WellFormed.joining_of_mem (hwf : WellFormed s) {w : Worker} (hw : w ∈ s.workers)
    (hover : w.isOver = false) : s.pc = .joining := by
  by_cases hc : s.pc = .created
  · rw [hwf.none_of_created hc] at hw
    exact absurd hw List.not_mem_nil
  · by_cases hj : s.pc = .joining
    · exact hj
    · have := hwf.joined hc hj w hw
      rw [hover] at this
      exact nomatch this

/-- A scope that is cancelled stays so when a worker raises. -/
theorem isActive_of_raises {cause : Option Cause} {raises : Bool}
    (h : cause.isNone = false) :
    (if raises = true then cause.or (some .failed) else cause).isNone = false := by
  cases cause with
  | none => exact nomatch h
  | some c => cases raises <;> rfl

/-- Every step keeps the invariant. -/
theorem wellFormed_step (hwf : WellFormed s) (h : Transition cfg s l s') : WellFormed s' := by
  cases h with
  | launch hpc =>
    exact ⟨nofun, fun _ h => absurd rfl h, hwf.inactive, hwf.dropped, hwf.stopping⟩
  | launchDead hpc =>
    refine ⟨nofun, fun _ _ w hw => ?_, hwf.inactive, hwf.dropped, hwf.stopping⟩
    -- there are no workers to wait for
    rw [show s.workers = [] from hwf.none_of_created hpc] at hw
    exact absurd hw List.not_mem_nil
  | worker hk hw =>
    -- a worker moves only inside `joinAll`, so `joined` has nothing to say yet
    have hpc := hwf.joining_of_mem (List.mem_of_getElem? hk) hw.isOver_eq_false
    refine ⟨fun h => ?_, fun _ h => absurd hpc h, fun h => ?_, hwf.dropped, hwf.stopping⟩
    · exact absurd (hpc.symm.trans h) (by decide)
    · exact isActive_of_raises (hwf.inactive h)
  | processHost hk =>
    have hpc := hwf.joining_of_mem (List.mem_of_getElem? hk) rfl
    refine ⟨fun h => ?_, fun _ h => absurd hpc h, hwf.inactive, hwf.dropped, hwf.stopping⟩
    exact absurd (hpc.symm.trans h) (by decide)
  | timeout hpc => exact ⟨hwf.none_of_created, hwf.joined, fun _ => rfl, hwf.dropped, hwf.stopping⟩
  | joined hpc hover =>
    refine ⟨fun h => ?_, fun _ _ => hover, hwf.inactive, hwf.dropped, hwf.stopping⟩
    -- `withTimeout` is followed by a later stage, never by the start
    simp only [afterScan] at h
    split at h <;> exact nomatch h
  | joinedDead hpc hover => exact ⟨nofun, fun _ _ => hover, hwf.inactive, hwf.dropped, hwf.stopping⟩
  | arpDone hpc | arpDead hpc | lastCheck hpc | lastCheckDead hpc | postNull hpc | arp hpc
  | arpPost hpc | arpProcessHost hpc =>
    refine ⟨nofun, fun _ _ => ?_, hwf.inactive, hwf.dropped, hwf.stopping⟩
    -- the workers are as they were when `joinAll` returned
    exact hwf.joined (by rw [hpc]; exact nofun) (by rw [hpc]; exact nofun)
  | stopCancel =>
    refine ⟨hwf.none_of_created, hwf.joined, fun _ => ?_, fun _ => rfl, fun _ => rfl⟩
    -- whatever the first cause was, there is one now
    exact (by cases s.cause <;> rfl : (s.cause.or (some .cancelled)).isNone = false)
  | stopAgain _ hjob =>
    exact ⟨hwf.none_of_created, hwf.joined, hwf.inactive, hwf.dropped, fun _ => hwf.dropped hjob⟩
  | stopPost hstopping =>
    exact ⟨hwf.none_of_created, hwf.joined, hwf.inactive, hwf.dropped, nofun⟩
  | deliver => exact ⟨hwf.none_of_created, hwf.joined, hwf.inactive, hwf.dropped, hwf.stopping⟩

/-- Every reachable state is well formed. -/
theorem wellFormed_of_run {ls : List Label} (h : (scanner cfg).run init ls = some s) :
    WellFormed s :=
  (scanner cfg).run_invariant WellFormed
    (fun _ _ _ hwf hs => wellFormed_step hwf (transition_of_step hs)) wellFormed_init h

end LanScan.Android.Scanner
