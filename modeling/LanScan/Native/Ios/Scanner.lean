import LanScan.ForStd.Lts
import LanScan.ForStd.Fifo
import LanScan.Native.Host
import LanScan.Native.Ios.Host
import LanScan.Native.Ios.Subnet

/-!
# The iOS scan task

`LanDeviceScanner` as a labelled transition system.  The parties are the body of
the `Task`, its task group of workers, the caller of `startScanning` that still
has to assign the task to `scanningTask`, one caller of `stopScanning`, and the
main queue.  Each label lets one of them do its next atomic step: one read or
write of `scanningTask`, one check of a cancellation flag, one dispatch, or the
return of a ping or of a resolver.  A trap stops the whole process.
-/

namespace LanScan.Ios.Scanner

/-! ## Workers -/

/-- The stages of `resolveHostname`, each behind a check of `scanningTask`. -/
inductive Stage where
  | mdns
  | netBIOS
  | getHostName
  deriving DecidableEq, Repr

/-- The stage that follows when one finds no name. -/
def Stage.next : Stage → Option Stage
  | .mdns => some .netBIOS
  | .netBIOS => some .getHostName
  | .getHostName => none

/-- What a scan runs on: the constructor arguments and the outcome of the pings. -/
structure Config where
  ipv4 : Int64
  cidrPrefixLength : Int64
  ping : String → Bool

/-- Where a worker stands. -/
inductive WorkerPc where
  /-- at the head of the `for` loop -/
  | atHead
  /-- past the first `if Task.isCancelled { return }` -/
  | checked (index : Int)
  /-- inside `await pingHelper.start()` -/
  | pinging (ipAddress : String)
  /-- about to evaluate the second `if Task.isCancelled { return }` -/
  | pinged (ipAddress : String) (pingSuccess : Bool)
  /-- in `resolveHostname`, about to evaluate the check before a stage -/
  | checking (ipAddress : String) (stage : Stage)
  /-- inside a stage of `resolveHostname` -/
  | inStage (ipAddress : String) (stage : Stage)
  /-- `resolveHostname` has returned, the host is about to be dispatched -/
  | resolved (host : Host)
  | done
  deriving DecidableEq, Repr

/-- A worker: its program counter and the indices its loop has not yet reached. -/
structure Worker where
  pc : WorkerPc
  rest : List Int
  deriving DecidableEq, Repr

/-- What a worker sees of the rest of the system. -/
structure View where
  /-- `Task.isCancelled` -/
  taskCancelled : Bool
  /-- `scanningTask?.isCancelled == true` -/
  scanCancelled : Bool

/-- What a step of a worker does to the rest of the system. -/
structure Effect where
  pinged : Option String := none
  started : Option (String × Stage) := none
  dispatched : Option Host := none

/-- The outcome of a step of a worker: it may trap. -/
inductive Outcome where
  | next (w : Worker) (effect : Effect)
  | trap

/-- One step of a worker.  A stage is not a step here: it returns whenever the
    resolver does. -/
def Worker.step (cfg : Config) (plan : ScanPlan) (view : View) (w : Worker) : Option Outcome :=
  match w.pc with
  | .atHead =>
    match w.rest with
    | [] => some (.next { w with pc := .done } {})
    | index :: rest =>
      -- if Task.isCancelled { return }, once for each address
      if view.taskCancelled then some (.next { w with pc := .done } {})
      else some (.next { pc := .checked index, rest := rest } {})
  | .checked index =>
    -- `firstAddr + index` traps on overflow
    match plan.ipAddress index with
    | none => some .trap
    | some ipAddress =>
      some (.next { w with pc := .pinging ipAddress } { pinged := some ipAddress })
  | .pinging ipAddress => some (.next { w with pc := .pinged ipAddress (cfg.ping ipAddress) } {})
  | .pinged ipAddress pingSuccess =>
    if view.taskCancelled then some (.next { w with pc := .done } {})
    else if pingSuccess then some (.next { w with pc := .checking ipAddress .mdns } {})
    else some (.next { w with pc := .atHead } {})
  | .checking ipAddress stage =>
    -- if(scanningTask?.isCancelled == true) { return host }
    if view.scanCancelled then some (.next { w with pc := .resolved { ip := ipAddress } } {})
    else
      some (.next { w with pc := .inStage ipAddress stage } { started := some (ipAddress, stage) })
  | .resolved host => some (.next { w with pc := .atHead } { dispatched := some host })
  | .inStage _ _ | .done => none

/-- A stage of `resolveHostname` returns: with a name, or after the last stage,
    `host.hostname` is set; otherwise the next stage is up. -/
def Worker.stageReturns (hostname : Option String) (w : Worker) : Option Outcome :=
  match w.pc with
  | .inStage ipAddress stage =>
    match hostname, stage.next with
    -- no name from mDNS or NetBIOS: on to the check of the next stage
    | none, some stage => some (.next { w with pc := .checking ipAddress stage } {})
    | _, _ =>
      match didSetHostname hostname with
      | none => some .trap
      | some hostname =>
        some (.next { w with pc := .resolved { ip := ipAddress, hostname := hostname } } {})
  | _ => none

/-! ## The scanner -/

/-- Where the body of the task stands. -/
inductive BodyPc where
  /-- the task is created, its body has not started -/
  | created
  /-- in `withTaskGroup`, waiting for the workers -/
  | running (plan : ScanPlan)
  /-- about to evaluate `if(scanningTask != nil)` -/
  | finalCheck
  /-- past that check, about to set `scanningTask` to nil -/
  | clearing
  /-- about to dispatch the nil -/
  | dispatching
  | finished
  deriving DecidableEq, Repr

/-- Where the call of `stopScanning` stands. -/
inductive StopPc where
  /-- not called yet -/
  | idle
  /-- past `if (scanningTask != nil)`, about to cancel -/
  | cancelling
  /-- about to set `scanningTask` to nil -/
  | clearing
  /-- about to dispatch the nil -/
  | dispatching
  | completed
  deriving DecidableEq, Repr

/-- State of one scanner.  `pings` and `late` record the addresses pinged and the
    stages started by a check that came after `stopScanning` had completed. -/
structure State where
  body : BodyPc
  workers : List Worker
  /-- `startScanning` has assigned the task to `scanningTask` -/
  assigned : Bool
  /-- `scanningTask != nil` -/
  scanningTask : Bool
  /-- the task has been cancelled -/
  cancelled : Bool
  stop : StopPc
  main : Fifo Event
  crashed : Bool
  pings : List String
  late : List (String × Stage)
  deriving DecidableEq, Repr

/-- The cancellation flags as a worker sees them. -/
def State.view (s : State) : View where
  taskCancelled := s.cancelled
  scanCancelled := s.scanningTask && s.cancelled

/-- The workers that `taskGroup.addTask` starts. -/
def launchWorkers (plan : ScanPlan) : List Worker :=
  (List.range plan.concurrentThreads.toInt.toNat).map fun i =>
    { pc := .atHead, rest := plan.workerIndices i }

/-- Install worker `k`'s new state and carry out the effect of its step. -/
def State.advance (s : State) (k : Nat) (w : Worker) (effect : Effect) : State :=
  { s with
    workers := s.workers.set k w
    main := match effect.dispatched with
      | none => s.main
      | some host => s.main.post (.host host)
    pings := s.pings ++ effect.pinged.toList
    late := if s.stop = .completed then s.late ++ effect.started.toList else s.late }

/-- Carry out the outcome of a step of worker `k`. -/
def State.apply (s : State) (k : Nat) : Outcome → State
  | .next w effect => s.advance k w effect
  | .trap => { s with crashed := true }

/-- One step of the task's body. -/
def stepBody (cfg : Config) (s : State) : Option State :=
  match s.body with
  | .created =>
    match scanPlan cfg.ipv4 cfg.cidrPrefixLength with
    | none => some { s with crashed := true }
    | some plan => some { s with body := .running plan, workers := launchWorkers plan }
  | .running _ =>
    -- a task group waits for all its tasks
    if s.workers.all (·.pc == .done) then some { s with body := .finalCheck } else none
  -- the check, the clear and the dispatch are separate steps
  | .finalCheck => some { s with body := if s.scanningTask then .clearing else .finished }
  | .clearing => some { s with body := .dispatching, scanningTask := false }
  | .dispatching => some { s with body := .finished, main := s.main.post .null }
  | .finished => none

/-- One step of the call of `stopScanning`. -/
def stepStop (s : State) : Option State :=
  match s.stop with
  -- without a task there is nothing to cancel, and no nil either
  | .idle => some { s with stop := if s.scanningTask then .cancelling else .completed }
  | .cancelling =>
    -- scanningTask?.cancel(): nothing happens when the task has just been cleared
    some { s with stop := .clearing, cancelled := s.cancelled || s.scanningTask }
  | .clearing => some { s with stop := .dispatching, scanningTask := false }
  | .dispatching => some { s with stop := .completed, main := s.main.post .null }
  | .completed => none

/-- One step of worker `k`, which runs while the body is in `withTaskGroup`. -/
def stepWorker (cfg : Config) (s : State) (k : Nat) : Option State :=
  match s.body, s.workers[k]? with
  | .running plan, some w => (w.step cfg plan s.view).map (s.apply k)
  | _, _ => none

/-- A resolver stage returns in worker `k`. -/
def stepStageReturns (s : State) (k : Nat) (hostname : Option String) : Option State :=
  match s.workers[k]? with
  | none => none
  | some w => (w.stageReturns hostname).map (s.apply k)

/-- Who moves next. -/
inductive Label where
  /-- `startScanning` assigns the task to `scanningTask` and returns -/
  | assign
  /-- the body of the task takes its next step -/
  | body
  /-- worker `k` takes its next step -/
  | worker (k : Nat)
  /-- a resolver stage returns in worker `k` -/
  | stageReturns (k : Nat) (hostname : Option String)
  /-- `stopScanning` takes its next step -/
  | stop
  /-- the main queue runs the closure at its front -/
  | deliver
  deriving DecidableEq, Repr

/-- One atomic step. -/
def step (cfg : Config) (s : State) (l : Label) : Option State :=
  if s.crashed then none
  else
    match l with
    | .assign => if s.assigned then none else some { s with assigned := true, scanningTask := true }
    | .body => stepBody cfg s
    | .worker k => stepWorker cfg s k
    | .stageReturns k hostname => stepStageReturns s k hostname
    | .stop => stepStop s
    | .deliver => s.main.deliver.map fun main => { s with main }

/-- The state right after `startScanning` has created the task. -/
def init : State where
  body := .created
  workers := []
  assigned := false
  scanningTask := false
  cancelled := false
  stop := .idle
  main := .empty
  crashed := false
  pings := []
  late := []

/-- The scanner as a transition system. -/
def scanner (cfg : Config) : Lts State Label where
  init := init
  step := step cfg

end LanScan.Ios.Scanner
