import LanScan.ForStd.List
import LanScan.Spec.Ios.ScannerStep

/-!
# Invariants of the iOS scanner

What holds in every reachable state, whatever the schedule: after the task group
no worker runs any more, and a `stopScanning` call that found a task cancels it
unless the body has got past the task group in the meantime.
-/

namespace LanScan.Ios.Scanner

variable {cfg : Config} {s s' : State} {l : Label}

/-- The body is past the task group. -/
def BodyPc.isJoined : BodyPc → Bool
  | .created | .running _ => false
  | .finalCheck | .clearing | .dispatching | .finished => true

/-- The bookkeeping of the task and of `scanningTask`. -/
structure WellFormed (s : State) : Prop where
  /-- past the task group every worker is done -/
  done : s.body.isJoined = true → ∀ w ∈ s.workers, w.pc = .done
  /-- before the body starts there are no workers -/
  none_of_created : s.body = .created → s.workers = []
  /-- only the assignment makes `scanningTask` non-nil -/
  assigned : s.scanningTask = true → s.assigned = true
  /-- between its check and its cancel `stopScanning` still sees the task, or the
      body has cleared it -/
  cancelling : s.stop = .cancelling → s.scanningTask = true ∨ s.body.isJoined = true
  /-- behind its cancel the task is cancelled, or the body was done with it -/
  stopped : s.stop = .clearing ∨ s.stop = .dispatching →
    s.cancelled = true ∨ s.body.isJoined = true
  /-- only a task that was assigned is cancelled -/
  cancelled : s.cancelled = true → s.assigned = true ∧ s.stop ≠ .idle ∧ s.stop ≠ .cancelling
  /-- behind its clear `scanningTask` is nil for good, if a task was cancelled -/
  cleared : s.cancelled = true → s.stop = .dispatching ∨ s.stop = .completed →
    s.scanningTask = false

theorem wellFormed_init : WellFormed init where
  done h := nomatch h
  none_of_created _ := rfl
  assigned h := nomatch h
  cancelling h := nomatch h
  stopped h := h.elim nofun nofun
  cancelled h := nomatch h
  cleared h := nomatch h

/-- A worker that takes a step is not done. -/
theorem WorkerStep.pc_ne_done {plan : ScanPlan} {view : View} {w : Worker} {outcome : Outcome}
    (h : WorkerStep cfg plan view w outcome) : w.pc ≠ .done := by
  cases h <;> nofun

/-- A worker in a stage is not done. -/
theorem StageStep.pc_ne_done {w : Worker} {outcome : Outcome} (h : StageStep w outcome) :
    w.pc ≠ .done := by
  cases h <;> nofun

/-- While some worker is not done the body waits in the task group. -/
theorem WellFormed.running_of_mem (hwf : WellFormed s) {w : Worker} (hw : w ∈ s.workers)
    (hpc : w.pc ≠ .done) : ∃ plan, s.body = .running plan := by
  cases hbody : s.body with
  | running plan => exact ⟨plan, rfl⟩
  | created =>
    rw [hwf.none_of_created hbody] at hw
    exact absurd hw List.not_mem_nil
  | finalCheck | clearing | dispatching | finished =>
    exact absurd (hwf.done (by rw [hbody]; rfl) w hw) hpc

/-- A step of a worker touches neither the body nor `scanningTask`. -/
theorem wellFormed_advance (hwf : WellFormed s) {plan : ScanPlan} (hbody : s.body = .running plan)
    (k : Nat) (w : Worker) (effect : Effect) : WellFormed (s.advance k w effect) := by
  refine ⟨fun h => ?_, fun h => ?_, hwf.assigned, hwf.cancelling, hwf.stopped, hwf.cancelled,
    hwf.cleared⟩
  · have hjoined : s.body.isJoined = true := h
    rw [hbody] at hjoined
    exact nomatch hjoined
  · exact nomatch hbody.symm.trans h

/-- Every step keeps the invariant. -/
theorem wellFormed_step (hwf : WellFormed s) (h : Transition cfg s l s') : WellFormed s' := by
  cases h with
  | assign hassigned =>
    -- nothing has been cancelled yet
    have hcancelled : s.cancelled = true → False := fun h => by
      rw [(hwf.cancelled h).1] at hassigned
      exact nomatch hassigned
    exact ⟨hwf.done, hwf.none_of_created, fun _ => rfl, fun _ => .inl rfl, hwf.stopped,
      fun h => (hcancelled h).elim, fun h => (hcancelled h).elim⟩
  | start hbody =>
    -- the body was not past the task group, so a stop under way still sees its task
    have hjoined : s.body.isJoined = false := by rw [hbody]; rfl
    have hcancelling := hwf.cancelling
    have hstopped := hwf.stopped
    rw [hjoined] at hcancelling hstopped
    exact ⟨nofun, nofun, hwf.assigned, hcancelling, hstopped, hwf.cancelled, hwf.cleared⟩
  | startTrap | workerTrap | stageTrap | deliver =>
    exact ⟨hwf.done, hwf.none_of_created, hwf.assigned, hwf.cancelling, hwf.stopped,
      hwf.cancelled, hwf.cleared⟩
  | joined _ hdone =>
    exact ⟨fun _ => hdone, nofun, hwf.assigned, fun _ => .inr rfl, fun _ => .inr rfl,
      hwf.cancelled, hwf.cleared⟩
  | finalCheck hbody | finalCheckNil hbody | dispatch hbody =>
    exact ⟨fun _ => hwf.done (by rw [hbody]; rfl), nofun, hwf.assigned, fun _ => .inr rfl,
      fun _ => .inr rfl, hwf.cancelled, hwf.cleared⟩
  | clear hbody =>
    exact ⟨fun _ => hwf.done (by rw [hbody]; rfl), nofun, nofun, fun _ => .inr rfl,
      fun _ => .inr rfl, hwf.cancelled, fun _ _ => rfl⟩
  | worker hbody => exact wellFormed_advance hwf hbody _ _ _
  | stageReturns hk hw =>
    -- a stage returns only in a worker that is not done
    obtain ⟨plan, hbody⟩ := hwf.running_of_mem (List.mem_of_getElem? hk) hw.pc_ne_done
    exact wellFormed_advance hwf hbody _ _ _
  | stopCheck hstop htask =>
    refine ⟨hwf.done, hwf.none_of_created, hwf.assigned, fun _ => .inl htask,
      fun h => h.elim nofun nofun, fun h => ?_, fun _ h => h.elim nofun nofun⟩
    exact absurd hstop (hwf.cancelled h).2.1
  | stopCheckNil hstop htask =>
    exact ⟨hwf.done, hwf.none_of_created, hwf.assigned, nofun, fun h => h.elim nofun nofun,
      fun h => absurd hstop (hwf.cancelled h).2.1, fun _ _ => htask⟩
  | stopCancel hstop =>
    refine ⟨hwf.done, hwf.none_of_created, hwf.assigned, nofun, fun _ => ?_, fun h => ?_,
      fun _ h => h.elim nofun nofun⟩
    -- cancelled through the variable, unless the body has cleared it
    · rcases hwf.cancelling hstop with htask | hjoined
      · exact .inl (by rw [htask, Bool.or_true])
      · exact .inr hjoined
    · refine ⟨?_, nofun, nofun⟩
      -- cancelled before or by this step
      rcases Bool.or_eq_true_iff.mp h with hcancelled | htask
      · exact (hwf.cancelled hcancelled).1
      · exact hwf.assigned htask
  | stopClear hstop =>
    exact ⟨hwf.done, hwf.none_of_created, nofun, nofun, fun _ => hwf.stopped (.inl hstop),
      fun h => ⟨(hwf.cancelled h).1, nofun, nofun⟩, fun _ _ => rfl⟩
  | stopDispatch hstop =>
    exact ⟨hwf.done, hwf.none_of_created, hwf.assigned, nofun, fun h => h.elim nofun nofun,
      fun h => ⟨(hwf.cancelled h).1, nofun, nofun⟩, fun h _ => hwf.cleared h (.inl hstop)⟩

/-- Every reachable state is well formed. -/
theorem wellFormed_of_run {ls : List Label} (h : (scanner cfg).run init ls = some s) :
    WellFormed s :=
  (scanner cfg).run_invariant WellFormed
    (fun _ _ _ hwf hs => wellFormed_step hwf (transition_of_step hs).2) wellFormed_init h

end LanScan.Ios.Scanner
