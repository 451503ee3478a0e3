import LanScan.Native.Ios.Scanner

/-!
# What one step of the iOS scanner can do

`WorkerStep`, `StageStep` and `Transition` list the transitions of a worker and
of the whole scanner, one constructor for each, with the guard of the branch and
the state after it.  No later proof unfolds the step functions.
-/

namespace LanScan.Ios.Scanner

variable {cfg : Config} {s s' : State}

/-! ## Workers -/

/-- The transitions of one worker. -/
inductive WorkerStep (cfg : Config) (plan : ScanPlan) (view : View) : Worker → Outcome → Prop
  | leave {rest} (hrest : rest = []) :
      WorkerStep cfg plan view ⟨.atHead, rest⟩ (.next ⟨.done, rest⟩ {})
  | stop {rest} (hcancelled : view.taskCancelled = true) :
      WorkerStep cfg plan view ⟨.atHead, rest⟩ (.next ⟨.done, rest⟩ {})
  | check {index rest} (hactive : view.taskCancelled = false) :
      WorkerStep cfg plan view ⟨.atHead, index :: rest⟩ (.next ⟨.checked index, rest⟩ {})
  | trap {index rest} (haddr : plan.ipAddress index = none) :
      WorkerStep cfg plan view ⟨.checked index, rest⟩ .trap
  | ping {index rest ipAddress} (haddr : plan.ipAddress index = some ipAddress) :
      WorkerStep cfg plan view ⟨.checked index, rest⟩
        (.next ⟨.pinging ipAddress, rest⟩ { pinged := some ipAddress })
  | pong {ipAddress rest} :
      WorkerStep cfg plan view ⟨.pinging ipAddress, rest⟩
        (.next ⟨.pinged ipAddress (cfg.ping ipAddress), rest⟩ {})
  | stopPinged {ipAddress pingSuccess rest} (hcancelled : view.taskCancelled = true) :
      WorkerStep cfg plan view ⟨.pinged ipAddress pingSuccess, rest⟩ (.next ⟨.done, rest⟩ {})
  | reachable {ipAddress rest} (hactive : view.taskCancelled = false) :
      WorkerStep cfg plan view ⟨.pinged ipAddress true, rest⟩
        (.next ⟨.checking ipAddress .mdns, rest⟩ {})
  | unreachable {ipAddress rest} (hactive : view.taskCancelled = false) :
      WorkerStep cfg plan view ⟨.pinged ipAddress false, rest⟩ (.next ⟨.atHead, rest⟩ {})
  | skipStage {ipAddress stage rest} (hcancelled : view.scanCancelled = true) :
      WorkerStep cfg plan view ⟨.checking ipAddress stage, rest⟩
        (.next ⟨.resolved { ip := ipAddress }, rest⟩ {})
  | startStage {ipAddress stage rest} (hactive : view.scanCancelled = false) :
      WorkerStep cfg plan view ⟨.checking ipAddress stage, rest⟩
        (.next ⟨.inStage ipAddress stage, rest⟩ { started := some (ipAddress, stage) })
  | dispatch {host rest} :
      WorkerStep cfg plan view ⟨.resolved host, rest⟩
        (.next ⟨.atHead, rest⟩ { dispatched := some host })

/-- The steps of a worker. -/
theorem workerStep_of_step {plan : ScanPlan} {view : View} {w : Worker} {outcome : Outcome}
    (h : w.step cfg plan view = some outcome) : WorkerStep cfg plan view w outcome := by
  obtain ⟨taskCancelled, scanCancelled⟩ := view
  obtain ⟨pc, rest⟩ := w
  cases pc with
  -- at the head of its loop the worker is finished, or checks the task
  | atHead =>
    cases rest with
    | nil => cases h; exact .leave rfl
    | cons index rest =>
      cases taskCancelled with
      | true => cases h; exact .stop rfl
      | false => cases h; exact .check rfl
  | checked index =>
    simp only [Worker.step] at h
    split at h
    · rename_i haddr; cases h; exact .trap haddr
    · rename_i haddr; cases h; exact .ping haddr
  | pinging ipAddress => cases h; exact .pong
  -- behind the ping the task is checked again, and from then on `isScanning`
  | pinged ipAddress pingSuccess =>
    cases taskCancelled with
    | true => cases h; exact .stopPinged rfl
    | false =>
      cases pingSuccess with
      | true => cases h; exact .reachable rfl
      | false => cases h; exact .unreachable rfl
  | checking ipAddress stage =>
    cases scanCancelled with
    | true => cases h; exact .skipStage rfl
    | false => cases h; exact .startStage rfl
  | resolved host => cases h; exact .dispatch
  | inStage ipAddress stage => exact nomatch h
  | done => exact nomatch h

/-- What the return of a resolver stage does to its worker. -/
inductive StageStep : Worker → Outcome → Prop
  | next {ipAddress stage stage' rest} (hnext : Stage.next stage = some stage') :
      StageStep ⟨.inStage ipAddress stage, rest⟩ (.next ⟨.checking ipAddress stage', rest⟩ {})
  | resolved {ipAddress stage hostname hostname' rest}
      (hset : didSetHostname hostname = some hostname') :
      StageStep ⟨.inStage ipAddress stage, rest⟩
        (.next ⟨.resolved { ip := ipAddress, hostname := hostname' }, rest⟩ {})
  | trap {ipAddress stage hostname rest} (hset : didSetHostname hostname = none) :
      StageStep ⟨.inStage ipAddress stage, rest⟩ .trap

/-- The steps of a stage that returns. -/
theorem stageStep_of_stageReturns {hostname : Option String} {w : Worker} {outcome : Outcome}
    (h : w.stageReturns hostname = some outcome) : StageStep w outcome := by
  obtain ⟨pc, rest⟩ := w
  cases pc with
  | inStage ipAddress stage =>
    simp only [Worker.stageReturns] at h
    split at h
    · rename_i hnext; cases h; exact .next hnext
    · split at h
      -- `didSet` of the host name can trap
      · rename_i hset; cases h; exact .trap hset
      · rename_i hset; cases h; exact .resolved hset
  | _ => exact nomatch h

/-! ## The scanner -/

/-- The transitions of the scanner. -/
inductive Transition (cfg : Config) (s : State) : Label → State → Prop
  | assign (hassigned : s.assigned = false) :
      Transition cfg s .assign { s with assigned := true, scanningTask := true }
  | start {plan} (hbody : s.body = .created)
      (hplan : scanPlan cfg.ipv4 cfg.cidrPrefixLength = some plan) :
      Transition cfg s .body { s with body := .running plan, workers := launchWorkers plan }
  | startTrap (hbody : s.body = .created)
      (hplan : scanPlan cfg.ipv4 cfg.cidrPrefixLength = none) :
      Transition cfg s .body { s with crashed := true }
  | joined {plan} (hbody : s.body = .running plan) (hdone : ∀ w ∈ s.workers, w.pc = .done) :
      Transition cfg s .body { s with body := .finalCheck }
  | finalCheck (hbody : s.body = .finalCheck) (htask : s.scanningTask = true) :
      Transition cfg s .body { s with body := .clearing }
  | finalCheckNil (hbody : s.body = .finalCheck) (htask : s.scanningTask = false) :
      Transition cfg s .body { s with body := .finished }
  | clear (hbody : s.body = .clearing) :
      Transition cfg s .body { s with body := .dispatching, scanningTask := false }
  | dispatch (hbody : s.body = .dispatching) :
      Transition cfg s .body { s with body := .finished, main := s.main.post .null }
  | worker {k w w' plan effect} (hbody : s.body = .running plan) (hk : s.workers[k]? = some w)
      (hw : WorkerStep cfg plan s.view w (.next w' effect)) :
      Transition cfg s (.worker k) (s.advance k w' effect)
  | workerTrap {k w plan} (hbody : s.body = .running plan) (hk : s.workers[k]? = some w)
      (hw : WorkerStep cfg plan s.view w .trap) :
      Transition cfg s (.worker k) { s with crashed := true }
  | stageReturns {k w w' hostname effect} (hk : s.workers[k]? = some w)
      (hw : StageStep w (.next w' effect)) :
      Transition cfg s (.stageReturns k hostname) (s.advance k w' effect)
  | stageTrap {k w hostname} (hk : s.workers[k]? = some w) (hw : StageStep w .trap) :
      Transition cfg s (.stageReturns k hostname) { s with crashed := true }
  | stopCheck (hstop : s.stop = .idle) (htask : s.scanningTask = true) :
      Transition cfg s .stop { s with stop := .cancelling }
  | stopCheckNil (hstop : s.stop = .idle) (htask : s.scanningTask = false) :
      Transition cfg s .stop { s with stop := .completed }
  | stopCancel (hstop : s.stop = .cancelling) :
      Transition cfg s .stop
        { s with stop := .clearing, cancelled := s.cancelled || s.scanningTask }
  | stopClear (hstop : s.stop = .clearing) :
      Transition cfg s .stop { s with stop := .dispatching, scanningTask := false }
  | stopDispatch (hstop : s.stop = .dispatching) :
      Transition cfg s .stop { s with stop := .completed, main := s.main.post .null }
  | deliver {main} (hdeliver : s.main.deliver = some main) :
      Transition cfg s .deliver { s with main }

/-- The transitions of the task. -/
private theorem transition_of_stepBody (h : stepBody cfg s = some s') :
    Transition cfg s .body s' := by
  unfold stepBody at h
  split at h
  · rename_i hbody
    split at h
    · rename_i hplan; cases h; exact .startTrap hbody hplan
    · rename_i plan hplan; cases h; exact .start hbody hplan
  · rename_i plan hbody
    split at h
    · rename_i hall
      -- the task group lets the body go on only now
      have hdone : ∀ w ∈ s.workers, w.pc = .done := by simpa using hall
      cases h
      exact .joined hbody hdone
    · exact nomatch h
  · rename_i hbody
    by_cases htask : s.scanningTask = true
    · rw [if_pos htask] at h; cases h; exact .finalCheck hbody htask
    · rw [if_neg htask] at h; cases h; exact .finalCheckNil hbody (by simpa using htask)
  · rename_i hbody; cases h; exact .clear hbody
  · rename_i hbody; cases h; exact .dispatch hbody
  · exact nomatch h

/-- The transitions of `stopScanning`. -/
private theorem transition_of_stepStop (h : stepStop s = some s') : Transition cfg s .stop s' := by
  unfold stepStop at h
  split at h
  · rename_i hstop
    -- `stop` reads the task once; without a task it has nothing to cancel.
    by_cases htask : s.scanningTask = true
    · rw [if_pos htask] at h; cases h; exact .stopCheck hstop htask
    · rw [if_neg htask] at h; cases h; exact .stopCheckNil hstop (by simpa using htask)
  · rename_i hstop; cases h; exact .stopCancel hstop
  · rename_i hstop; cases h; exact .stopClear hstop
  · rename_i hstop; cases h; exact .stopDispatch hstop
  · exact nomatch h

/-- Every step of the scanner is one of the listed transitions, and a crashed
    scanner takes none. -/
theorem transition_of_step {l : Label} (h : step cfg s l = some s') :
    s.crashed = false ∧ Transition cfg s l s' := by
  unfold step at h
  split at h
  · exact nomatch h
  · rename_i hcrashed
    refine ⟨by simpa using hcrashed, ?_⟩
    cases l with
    | assign =>
      simp only at h
      split at h
      · exact nomatch h
      · rename_i hassigned; cases h; exact .assign (by simpa using hassigned)
    | body => exact transition_of_stepBody h
    | worker k =>
      simp only [stepWorker] at h
      split at h
      · rename_i plan w hbody hk
        -- the worker goes on, or its arithmetic traps
        obtain ⟨outcome, hw, rfl⟩ := Option.map_eq_some_iff.mp h
        cases outcome with
        | next w' effect => exact .worker hbody hk (workerStep_of_step hw)
        | trap => exact .workerTrap hbody hk (workerStep_of_step hw)
      · exact nomatch h
    | stageReturns k hostname =>
      simp only [stepStageReturns] at h
      split at h
      · exact nomatch h
      · rename_i w hk
        -- the stage gives a name, or the setter traps
        obtain ⟨outcome, hw, rfl⟩ := Option.map_eq_some_iff.mp h
        cases outcome with
        | next w' effect => exact .stageReturns hk (stageStep_of_stageReturns hw)
        | trap => exact .stageTrap hk (stageStep_of_stageReturns hw)
    | stop => exact transition_of_stepStop h
    | deliver =>
      obtain ⟨main, hdeliver, rfl⟩ := Option.map_eq_some_iff.mp h
      exact .deliver hdeliver

end LanScan.Ios.Scanner
