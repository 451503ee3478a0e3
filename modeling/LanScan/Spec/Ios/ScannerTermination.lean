import LanScan.ForStd.List
import LanScan.Spec.Ios.ScannerInvariant

/-!
# Completed scans (iOS)

Left alone, a scanner comes to an end: without `stopScanning`, and with resolvers whose
names can be assigned, every step decreases a measure, and nothing can move any more
only when the body has finished and the main queue has run dry.

## Key results

- `measure_lt_of_transition`: every undisturbed step decreases `measure`
- `exists_completed_run`: every state has a run to a terminal state
- `terminal_iff`: what it means for a run to be complete
-/

namespace LanScan.Ios.Scanner

variable {cfg : Config} {s s' : State} {l : Label}

/-- The scan is left alone: no `stopScanning`, and no resolver finds a name on which
    `didSet` traps. -/
def Undisturbed (_ : State) (l : Label) : Prop :=
  match l with
  | .stop => False
  | .stageReturns _ hostname => didSetHostname hostname ≠ none
  | .assign | .body | .worker _ | .deliver => True

instance (s : State) (l : Label) : Decidable (Undisturbed s l) :=
  match l with
  | .stop => isFalse nofun
  | .stageReturns _ _ => inferInstanceAs (Decidable (_ ≠ _))
  | .assign | .body | .worker _ | .deliver => isTrue trivial

/-- The scanner without calls of `stopScanning`, and with names that can be assigned. -/
def undisturbed (cfg : Config) : Lts State Label := (scanner cfg).restrict Undisturbed

/-- A step of an undisturbed scan is a step of it, and undisturbed. -/
theorem step_of_undisturbed (h : (undisturbed cfg).step s l = some s') :
    Undisturbed s l ∧ step cfg s l = some s' :=
  ((scanner cfg).restrict_step_eq_some Undisturbed).mp h

/-- An undisturbed run is a run. -/
theorem run_of_undisturbed {ls : List Label} (h : (undisturbed cfg).run s ls = some s') :
    (scanner cfg).run s ls = some s' :=
  (scanner cfg).run_of_run_restrict Undisturbed h

/-! ## The measure -/

/-- Steps that may follow the start of a stage, up to the host that is resolved. -/
def Stage.rank : Stage → Nat
  | .mdns => 4
  | .netBIOS => 2
  | .getHostName => 0

/-- Steps a worker may still take at its program counter. -/
def WorkerPc.rank : WorkerPc → Nat
  -- a round of the loop takes an index, which is worth 13, and comes back to the head
  | .atHead => 1
  | .checked _ => 12
  | .pinging _ => 11
  | .pinged _ _ => 10
  | .checking _ stage => stage.rank + 5
  | .inStage _ stage => stage.rank + 4
  | .resolved _ => 3
  | .done => 0

/-- Steps a worker may still take. -/
def Worker.measure (w : Worker) : Nat := 13 * w.rest.length + w.pc.rank

/-- Steps the body may still take, with those of the workers that it has yet to start. -/
def BodyPc.measure (cfg : Config) : BodyPc → Nat
  | .created =>
    match scanPlan cfg.ipv4 cfg.cidrPrefixLength with
    | none => 0
    | some plan => ((launchWorkers plan).map Worker.measure).sum + 6
  | .running _ => 5
  | .finalCheck => 4
  | .clearing => 3
  | .dispatching => 2
  | .finished => 0

/-- Steps the system may still take, deliveries included. -/
def State.measure (cfg : Config) (s : State) : Nat :=
  (s.workers.map Worker.measure).sum + s.body.measure cfg + s.main.queue.length +
    (!s.assigned).toNat + (!s.crashed).toNat

/-- A step of a worker pays for the message it dispatches. -/
theorem WorkerStep.measure_lt {plan : ScanPlan} {view : View} {w w' : Worker} {effect : Effect}
    (h : WorkerStep cfg plan view w (.next w' effect)) :
    w'.measure + effect.dispatched.toList.length < w.measure := by
  cases h <;> simp +arith [Worker.measure, WorkerPc.rank, Stage.rank]

/-- A stage that returns leaves less to do. -/
theorem StageStep.measure_lt {w w' : Worker} {effect : Effect} (h : StageStep w (.next w' effect)) :
    w'.measure + effect.dispatched.toList.length < w.measure := by
  cases h with
  | @next ipAddress stage stage' rest hnext =>
    cases stage <;> cases hnext <;> simp +arith [Worker.measure, WorkerPc.rank, Stage.rank]
  | resolved => simp +arith [Worker.measure, WorkerPc.rank]

/-- The exchange of worker `k` in the measure. -/
theorem measure_advance_lt {k : Nat} {w w' : Worker} {effect : Effect}
    (hk : s.workers[k]? = some w) (hlt : w'.measure + effect.dispatched.toList.length < w.measure) :
    (s.advance k w' effect).measure cfg < s.measure cfg := by
  have hsum := List.sum_map_set Worker.measure w' hk
  -- What the worker dispatches is on the queue now, and counted there.
  have hqueue : (s.advance k w' effect).main.queue.length =
      s.main.queue.length + effect.dispatched.toList.length := by
    cases h : effect.dispatched <;> simp [State.advance, h]
  have hworkers : (s.advance k w' effect).workers = s.workers.set k w' := rfl
  have hbody : (s.advance k w' effect).body = s.body := rfl
  have hassigned : (s.advance k w' effect).assigned = s.assigned := rfl
  have hcrashed : (s.advance k w' effect).crashed = s.crashed := rfl
  simp only [State.measure, hqueue, hworkers, hbody, hassigned, hcrashed]
  omega

/-- Every step of an undisturbed scan decreases the measure. -/
theorem measure_lt_of_transition (hcrashed : s.crashed = false) (hl : Undisturbed s l)
    (h : Transition cfg s l s') : s'.measure cfg < s.measure cfg := by
  cases h with
  | assign hassigned => simp [State.measure, hassigned]
  | start hbody hplan =>
    -- the body pays for the workers
    simp only [State.measure, hbody, BodyPc.measure, hplan]
    omega
  | startTrap | workerTrap | stageTrap => simp [State.measure, hcrashed]
  | joined hbody | finalCheck hbody | finalCheckNil hbody | clear hbody =>
    simp [State.measure, hbody, BodyPc.measure]
  | dispatch hbody =>
    simp [State.measure, hbody, BodyPc.measure]
    omega
  | worker _ hk hw => exact measure_advance_lt hk hw.measure_lt
  | stageReturns hk hw => exact measure_advance_lt hk hw.measure_lt
  | deliver hdeliver =>
    -- only deliveries shorten the queue
    have := Fifo.length_queue_of_deliver hdeliver
    simp only [State.measure]
    omega
  | stopCheck | stopCheckNil | stopCancel | stopClear | stopDispatch => exact hl.elim

/-- Undisturbed scans have runs to a state in which nothing moves any more. -/
theorem exists_completed_run (cfg : Config) (s : State) :
    ∃ ls s', (undisturbed cfg).run s ls = some s' ∧ (undisturbed cfg).Terminal s' := by
  refine Lts.exists_run_terminal (μ := State.measure cfg) (fun s l s' h => ?_) s
  obtain ⟨hl, hs⟩ := step_of_undisturbed h
  obtain ⟨hcrashed, ht⟩ := transition_of_step hs
  exact measure_lt_of_transition hcrashed hl ht

/-! ## Completed runs -/

/-- A scan that can go no further has no undisturbed step. -/
theorem step_eq_none_of_terminal (h : (undisturbed cfg).Terminal s) (hl : Undisturbed s l) :
    step cfg s l = none := by
  have hnone := h l
  simp only [undisturbed, Lts.restrict, if_pos hl] at hnone
  exact hnone

/-- A worker that is not done can take a step, or is inside a stage. -/
theorem Worker.step_or_stageReturns (cfg : Config) (plan : ScanPlan) (view : View) {w : Worker}
    (h : w.pc ≠ .done) :
    (∃ outcome, w.step cfg plan view = some outcome) ∨
      ∃ outcome, w.stageReturns none = some outcome := by
  obtain ⟨taskCancelled, scanCancelled⟩ := view
  obtain ⟨pc, rest⟩ := w
  cases pc with
  | atHead => left; cases rest <;> cases taskCancelled <;> exact ⟨_, rfl⟩
  | checked index =>
    left
    simp only [Worker.step]
    split <;> exact ⟨_, rfl⟩
  | pinging ipAddress => left; exact ⟨_, rfl⟩
  | pinged ipAddress pingSuccess =>
    left; cases taskCancelled <;> cases pingSuccess <;> exact ⟨_, rfl⟩
  | checking ipAddress stage => left; cases scanCancelled <;> exact ⟨_, rfl⟩
  -- within a stage it is the stage that goes on
  | inStage ipAddress stage => right; cases stage <;> exact ⟨_, rfl⟩
  | resolved host => left; exact ⟨_, rfl⟩
  | done => exact absurd rfl h

/-- In a terminal state in which nothing has trapped, every worker is done. -/
theorem done_of_terminal (hwf : WellFormed s) (hcrashed : s.crashed = false)
    (h : (undisturbed cfg).Terminal s) : ∀ w ∈ s.workers, w.pc = .done := by
  intro w hw
  obtain ⟨k, hk⟩ := List.getElem?_of_mem hw
  -- a worker that is not done could move: the state would not be terminal
  apply Classical.not_not.mp
  intro hpc
  obtain ⟨plan, hbody⟩ := hwf.running_of_mem hw hpc
  rcases w.step_or_stageReturns cfg plan s.view hpc with ⟨outcome, hstep⟩ | ⟨outcome, hstep⟩
  · have hnone := step_eq_none_of_terminal h (l := .worker k) trivial
    simp [step, hcrashed, stepWorker, hbody, hk, hstep] at hnone
  · have hnone := step_eq_none_of_terminal h (l := .stageReturns k none)
      (by simp [Undisturbed, didSetHostname, HostName.didSet])
    simp [step, hcrashed, stepStageReturns, hk, hstep] at hnone

/-- A completed run has assigned the task, finished its body and emptied the main queue. -/
theorem completed_of_terminal (hwf : WellFormed s) (hcrashed : s.crashed = false)
    (h : (undisturbed cfg).Terminal s) :
    s.assigned = true ∧ s.body = .finished ∧ s.main.queue = [] := by
  refine ⟨?_, ?_, ?_⟩
  · have hassign := step_eq_none_of_terminal h (l := .assign) trivial
    simpa [step, hcrashed] using hassign
  · have hnone := step_eq_none_of_terminal h (l := .body) trivial
    simp only [step, hcrashed, stepBody] at hnone
    cases hbody : s.body with
    | created =>
      rw [hbody] at hnone
      cases hplan : scanPlan cfg.ipv4 cfg.cidrPrefixLength <;> simp [hplan] at hnone
    | running plan =>
      -- all workers are done, so the task would go on
      have hdone : s.workers.all (·.pc == .done) = true := by
        rw [List.all_eq_true]
        intro w hw
        rw [done_of_terminal hwf hcrashed h w hw]
        rfl
      rw [hbody] at hnone
      simp only [hdone, if_true] at hnone
      cases hnone
    | finalCheck | clearing | dispatching => rw [hbody] at hnone; cases hnone
    | finished => rfl
  · have hdeliver := step_eq_none_of_terminal h (l := .deliver) trivial
    simp [step, hcrashed] at hdeliver
    exact Fifo.deliver_eq_none_iff.mp hdeliver

/-- A worker that is done is in no stage. -/
theorem Worker.stageReturns_eq_none_of_done (hostname : Option String) {w : Worker}
    (h : w.pc = .done) : w.stageReturns hostname = none := by
  rw [Worker.stageReturns, h]

/-- A run is complete when the body has finished and every message is delivered. -/
theorem terminal_iff (hwf : WellFormed s) (hcrashed : s.crashed = false) :
    (undisturbed cfg).Terminal s ↔
      s.assigned = true ∧ s.body = .finished ∧ s.main.queue = [] := by
  refine ⟨completed_of_terminal hwf hcrashed, fun ⟨hassigned, hbody, hqueue⟩ l => ?_⟩
  -- the task has finished, so all workers are done
  have hdone : ∀ w ∈ s.workers, w.pc = .done := hwf.done (by rw [hbody]; rfl)
  simp only [undisturbed, Lts.restrict]
  split
  · rename_i hu
    show step cfg s l = none
    cases l with
    | assign => simp [step, hassigned]
    | body => simp [step, stepBody, hbody]
    | worker k => simp [step, stepWorker, hbody]
    | stageReturns k hostname =>
      simp only [step, hcrashed, stepStageReturns]
      cases hk : s.workers[k]? with
      | none => rfl
      | some w =>
        simp [w.stageReturns_eq_none_of_done hostname (hdone w (List.mem_of_getElem? hk))]
    | stop => exact hu.elim
    | deliver => simp [step, Fifo.deliver_eq_none_iff.mpr hqueue]
  · rfl

end LanScan.Ios.Scanner
