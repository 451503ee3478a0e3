import LanScan.ForStd.List
import LanScan.Spec.Android.ScannerInvariant

/-!
# Completed scans (Android)

Left alone, a scanner comes to an end: without the timeout and without
`stopScanning` every step decreases a measure, and the only states in which
nothing can move any more are those in which the job has completed and the main
looper has run dry.

## Key results

- `measure_lt_of_transition`: every undisturbed step decreases `measure`
- `exists_completed_run`: every state has a run to a terminal state
- `terminal_iff`: what it means for a run to be complete
-/

namespace LanScan.Android.Scanner

variable {cfg : Config} {s s' : State} {l : Label}

/-- The scan is left alone: no timeout, no `stopScanning`. -/
def Undisturbed (_ : State) (l : Label) : Prop :=
  l ≠ .timeout ∧ l ≠ .stopCancel ∧ l ≠ .stopPost

instance (s : State) (l : Label) : Decidable (Undisturbed s l) :=
  inferInstanceAs (Decidable (_ ∧ _))

/-- The scanner without the timeout and without calls of `stopScanning`. -/
def undisturbed (cfg : Config) : Lts State Label := (scanner cfg).restrict Undisturbed

/-- A step of an undisturbed scan is a transition, and undisturbed. -/
theorem transition_of_undisturbed (h : (undisturbed cfg).step s l = some s') :
    Undisturbed s l ∧ Transition cfg s l s' := by
  obtain ⟨hl, hs⟩ := ((scanner cfg).restrict_step_eq_some Undisturbed).mp h
  exact ⟨hl, transition_of_step hs⟩

/-! ## The measure -/

/-- Steps a worker may still take at its program counter. -/
def WorkerPc.rank : WorkerPc → Nat
  -- a round of the loop takes an index, which is worth 8, and comes back to the head
  | .atHead => 1
  | .checked _ => 7
  | .probing _ => 6
  | .resolving _ => 5
  | .resolved _ => 4
  | .posting _ => 3
  | .done | .raised => 0

/-- Steps a worker may still take. -/
def Worker.measure (w : Worker) : Nat := 8 * w.rest.length + w.pc.rank

/-- Steps an `async` block of `handleArpTable` may still take. -/
def ArpTask.measure : ArpTask → Nat
  | .ready _ => 5
  | .resolving _ => 4
  | .posting _ => 3
  | .done => 0

/-- Steps the body of the job may still take, with those of the coroutines that
    it has yet to start. -/
def JobPc.measure (cfg : Config) : JobPc → Nat
  | .created => ((launchWorkers cfg).map Worker.measure).sum + 5 * cfg.arpTable.length + 10
  | .joining => 5 * cfg.arpTable.length + 9
  | .arp tasks => (tasks.map ArpTask.measure).sum + 8
  | .lastCheck => 4
  | .postingNull => 3
  | .ended | .dead => 0

/-- Steps the system may still take, deliveries included. -/
def State.measure (cfg : Config) (s : State) : Nat :=
  (s.workers.map Worker.measure).sum + s.pc.measure cfg + s.looper.queue.length

/-- A step of a worker pays for the message it posts. -/
theorem WorkerStep.measure_lt {isActive : Bool} {w w' : Worker} {effect : Effect}
    (h : WorkerStep cfg isActive w w' effect) :
    w'.measure + effect.posted.toList.length < w.measure := by
  cases h <;> simp +arith [Worker.measure, WorkerPc.rank]

/-- Each step of a task leaves less to do, the post of its host included. -/
theorem ArpStep.measure_lt {isActive : Bool} {t t' : ArpTask} {posted : Option Host}
    (h : ArpStep isActive t t' posted) : t'.measure + posted.toList.length < t.measure := by
  cases h <;> simp [ArpTask.measure]

/-- Behind the workers there is less to do. -/
theorem measure_afterScan_lt (cfg : Config) :
    (afterScan cfg).measure cfg < JobPc.joining.measure cfg := by
  -- A task that is ready counts five.
  have hready : (cfg.arpTable.map fun host => ArpTask.measure (.ready host)).sum =
      5 * cfg.arpTable.length := by
    simp only [ArpTask.measure, List.map_const', List.sum_replicate_nat]
    omega
  unfold afterScan
  split
  · simp only [JobPc.measure, List.map_map, Function.comp_def, hready]
    omega
  · simp only [JobPc.measure]
    omega

/-- A worker that posts makes the queue longer by one. -/
theorem length_queue_advance (s : State) (k : Nat) (w : Worker) (effect : Effect) :
    (s.advance k w effect).looper.queue.length =
      s.looper.queue.length + effect.posted.toList.length := by
  cases h : effect.posted <;> simp [State.advance, h]

/-- Every step of an undisturbed scan decreases the measure. -/
theorem measure_lt_of_transition (hl : Undisturbed s l) (h : Transition cfg s l s') :
    s'.measure cfg < s.measure cfg := by
  cases h with
  | launch hpc =>
    simp only [State.measure, hpc, JobPc.measure]
    omega
  | launchDead hpc | joinedDead hpc | arpDead hpc | lastCheckDead hpc =>
    simp only [State.measure, hpc, JobPc.measure]
    omega
  | arpDone hpc | lastCheck hpc =>
    simp only [State.measure, hpc, JobPc.measure]
    omega
  | joined hpc =>
    -- `joinAll` pays for the coroutines that `handleArpTable` starts
    have := measure_afterScan_lt cfg
    simp only [State.measure, hpc]
    omega
  | postNull hpc =>
    simp only [State.measure, hpc, JobPc.measure, Fifo.length_queue_post]
    omega
  | @worker k w w' effect hk hw =>
    -- the measure of worker `k` is exchanged in the sum
    have hsum := List.sum_map_set Worker.measure w' hk
    have hlt := hw.measure_lt
    have hqueue := length_queue_advance s k w' effect
    have hworkers : (s.advance k w' effect).workers = s.workers.set k w' := rfl
    have hpc : (s.advance k w' effect).pc = s.pc := rfl
    simp only [State.measure, hqueue, hworkers, hpc]
    omega
  | @processHost k host rest hostname hk =>
    have hsum := List.sum_map_set Worker.measure
      ⟨.resolved { host with hostname := hostname }, rest⟩ hk
    simp only [Worker.measure, WorkerPc.rank] at hsum
    simp only [State.measure, State.advance]
    omega
  | @arp tasks k task task' hpc hk htask =>
    have hsum := List.sum_map_set ArpTask.measure task' hk
    have hlt := htask.measure_lt
    simp only [State.measure, hpc, JobPc.measure]
    omega
  | @arpPost tasks k task task' host hpc hk htask =>
    have hsum := List.sum_map_set ArpTask.measure task' hk
    have hlt : task'.measure + 1 < task.measure := htask.measure_lt
    simp only [State.measure, hpc, JobPc.measure, Fifo.length_queue_post]
    omega
  | @arpProcessHost tasks k host hostname hpc hk =>
    have hsum := List.sum_map_set ArpTask.measure (.posting { host with hostname := hostname }) hk
    simp only [ArpTask.measure] at hsum
    simp only [State.measure, hpc, JobPc.measure]
    omega
  | deliver hdeliver =>
    -- only deliveries shorten the queue
    have := Fifo.length_queue_of_deliver hdeliver
    simp only [State.measure]
    omega
  | timeout => exact absurd rfl hl.1
  | stopCancel | stopAgain => exact absurd rfl hl.2.1
  | stopPost => exact absurd rfl hl.2.2

/-- Undisturbed scans have runs to a state in which nothing moves any more. -/
theorem exists_completed_run (cfg : Config) (s : State) :
    ∃ ls s', (undisturbed cfg).run s ls = some s' ∧ (undisturbed cfg).Terminal s' := by
  refine Lts.exists_run_terminal (μ := State.measure cfg) (fun s l s' h => ?_) s
  obtain ⟨hl, ht⟩ := transition_of_undisturbed h
  exact measure_lt_of_transition hl ht

/-! ## Completed runs -/

/-- A scan that can go no further has no undisturbed step. -/
theorem step_eq_none_of_terminal (h : (undisturbed cfg).Terminal s) (hl : Undisturbed s l) :
    step cfg s l = none := by
  have hnone := h l
  simp only [undisturbed, Lts.restrict, if_pos hl] at hnone
  exact hnone

/-- A worker that is not over can take a step, or is inside `processHost`. -/
theorem Worker.step_or_processHost (cfg : Config) (isActive : Bool) {w : Worker}
    (h : w.isOver = false) :
    (∃ r, w.step cfg isActive = some r) ∨ ∃ w', w.processHost none = some w' := by
  obtain ⟨pc, rest⟩ := w
  cases pc with
  | atHead => left; cases rest <;> cases isActive <;> exact ⟨_, rfl⟩
  | checked index =>
    left
    simp only [Worker.step]
    split <;> exact ⟨_, rfl⟩
  | probing address =>
    left
    simp only [Worker.step]
    split
    · exact ⟨_, rfl⟩
    · split <;> exact ⟨_, rfl⟩
  -- while a host is resolved it is `processHost` that goes on
  | resolving host => right; exact ⟨_, rfl⟩
  | resolved host => left; cases isActive <;> exact ⟨_, rfl⟩
  | posting host => left; exact ⟨_, rfl⟩
  | done | raised => cases h

/-- In a terminal state every worker is over. -/
theorem isOver_of_terminal (h : (undisturbed cfg).Terminal s) :
    ∀ w ∈ s.workers, w.isOver = true := by
  intro w hw
  obtain ⟨k, hk⟩ := List.getElem?_of_mem hw
  -- a worker that is not over could move: the state would not be terminal
  apply Bool.of_not_eq_false
  intro hover
  rcases w.step_or_processHost cfg s.isActive hover with ⟨⟨w', effect⟩, hstep⟩ | ⟨w', hstep⟩
  · have hnone := step_eq_none_of_terminal h (l := .worker k) (by simp [Undisturbed])
    simp only [step, hk, hstep, Option.map_some] at hnone
    cases hnone
  · have hnone := step_eq_none_of_terminal h (l := .processHost k none) (by simp [Undisturbed])
    simp only [step, hk, hstep, Option.map_some] at hnone
    cases hnone

/-- In a terminal state no coroutine of `handleArpTable` is left running. -/
theorem arpTask_done_of_terminal (h : (undisturbed cfg).Terminal s) {tasks : List ArpTask}
    (hpc : s.pc = .arp tasks) : ∀ task ∈ tasks, task = .done := by
  intro task htask
  obtain ⟨k, hk⟩ := List.getElem?_of_mem htask
  have harp := step_eq_none_of_terminal h (l := .arp k) (by simp [Undisturbed])
  have hprocess := step_eq_none_of_terminal h (l := .arpProcessHost k none) (by simp [Undisturbed])
  simp only [step, stepArp, stepArpProcessHost, hpc, hk] at harp hprocess
  -- A task that is not done could still take a step.
  cases task with
  | done => rfl
  | ready | posting => cases harp
  | resolving => cases hprocess

/-- A completed run has ended the job and emptied the queue of the main looper. -/
theorem completed_of_terminal (h : (undisturbed cfg).Terminal s) :
    (s.pc = .ended ∨ s.pc = .dead) ∧ s.looper.queue = [] := by
  constructor
  · have hjob := step_eq_none_of_terminal h (l := .job) (by simp [Undisturbed])
    have hlaunch := step_eq_none_of_terminal h (l := .launch) (by simp [Undisturbed])
    simp only [step, stepJob, stepLaunch] at hjob hlaunch
    cases hpc : s.pc with
    | created =>
      rw [if_pos hpc] at hlaunch
      split at hlaunch <;> cases hlaunch
    | joining =>
      -- all workers are over, so the join would be
      have hover : s.workers.all Worker.isOver = true :=
        List.all_eq_true.mpr (isOver_of_terminal h)
      rw [hpc] at hjob
      simp only [hover, if_true] at hjob
      split at hjob
      · cases hjob
      · split at hjob <;> cases hjob
    | arp tasks =>
      -- all tasks are over, so `handleArpTable` would be
      have hdone : tasks.all (· == .done) = true := by
        rw [List.all_eq_true]
        intro task htask
        rw [arpTask_done_of_terminal h hpc task htask]
        rfl
      rw [hpc] at hjob
      simp only [hdone, if_true] at hjob
      cases hjob
    | lastCheck | postingNull => rw [hpc] at hjob; cases hjob
    | ended => exact .inl rfl
    | dead => exact .inr rfl
  -- and a queue with events could deliver one
  · have hdeliver := step_eq_none_of_terminal h (l := .deliver) (by simp [Undisturbed])
    simp only [step, Option.map_eq_none_iff] at hdeliver
    exact Fifo.deliver_eq_none_iff.mp hdeliver

/-- A worker that is over takes no step. -/
theorem Worker.step_eq_none_of_isOver (cfg : Config) (isActive : Bool) {w : Worker}
    (h : w.isOver = true) : w.step cfg isActive = none := by
  obtain ⟨pc, rest⟩ := w
  cases pc with
  | done | raised => rfl
  | _ => exact nomatch h

/-- A worker that is over resolves no host. -/
theorem Worker.processHost_eq_none_of_isOver (hostname : Option String) {w : Worker}
    (h : w.isOver = true) : w.processHost hostname = none := by
  obtain ⟨pc, rest⟩ := w
  cases pc with
  | resolving => exact nomatch h
  | _ => rfl

/-- A run is complete when the job has completed and every message is delivered. -/
theorem terminal_iff (hwf : WellFormed s) :
    (undisturbed cfg).Terminal s ↔ (s.pc = .ended ∨ s.pc = .dead) ∧ s.looper.queue = [] := by
  refine ⟨completed_of_terminal, fun ⟨hpc, hqueue⟩ l => ?_⟩
  have hover : ∀ w ∈ s.workers, w.isOver = true := by
    -- the job has left `joinAll`
    rcases hpc with hpc | hpc <;> exact hwf.joined (by rw [hpc]; nofun) (by rw [hpc]; nofun)
  simp only [undisturbed, Lts.restrict]
  split
  · rename_i hu
    show step cfg s l = none
    cases l with
    | worker k =>
      simp only [step]
      split
      · rfl
      · rename_i w hk
        rw [w.step_eq_none_of_isOver cfg s.isActive (hover w (List.mem_of_getElem? hk))]
        rfl
    | processHost k hostname =>
      simp only [step]
      split
      · rfl
      · rename_i w hk
        rw [w.processHost_eq_none_of_isOver hostname (hover w (List.mem_of_getElem? hk))]
        rfl
    | deliver =>
      simp only [step]
      rw [Fifo.deliver_eq_none_iff.mpr hqueue]
      rfl
    | launch | job | arp | arpProcessHost =>
      rcases hpc with hpc | hpc <;>
        simp [step, stepLaunch, stepJob, stepArp, stepArpProcessHost, hpc]
    | timeout => exact absurd rfl hu.1
    | stopCancel => exact absurd rfl hu.2.1
    | stopPost => exact absurd rfl hu.2.2
  · rfl

/-- An undisturbed run is a run. -/
theorem run_of_undisturbed {ls : List Label} (h : (undisturbed cfg).run s ls = some s') :
    (scanner cfg).run s ls = some s' :=
  (scanner cfg).run_of_run_restrict Undisturbed h

end LanScan.Android.Scanner
