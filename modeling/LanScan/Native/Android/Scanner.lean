import LanScan.ForStd.Lts
import LanScan.ForStd.Fifo
import LanScan.Native.Host
import LanScan.Native.Android.Subnet

/-!
# The Android scan job

`LanDeviceScanner` as a labelled transition system.  The parties are the scan
job launched by `startScanning`, its worker coroutines, the coroutines that
`handleArpTable` starts, callers of `stopScanning`, and the main looper.  Each
label lets one of them do its next atomic step: a check of `isActive`, a
blocking call that returns, a `mainHandler.post`, a cancellation.

Structured concurrency is modelled by `State.cause`, why the scope around the
workers (`withTimeout` and `coroutineScope`) was cancelled: the first of a
failed worker, the timeout, and the cancellation of the job.  From then on
`isActive` is false in every worker.  The scope still waits for all of them, and
hands an exception of a failed worker on to the job, where only
`TimeoutCancellationException` is caught.
-/

namespace LanScan.Android.Scanner

/-- `Build.VERSION_CODES.TIRAMISU` -/
def tiramisu : Nat := 33

/-- How a probe (`socket.connect` or `inetAddress.isReachable`) ends. -/
inductive ProbeOutcome where
  | success
  | failure
  | ioException
  deriving DecidableEq, Repr

/-- What a scan runs on: the constructor arguments, the API level, what the
    probes of the addresses will find, and the hosts that
    `parseAndExtractValidArpFromInputStream` will return. -/
structure Config where
  sdkInt : Nat
  ipv4 : Int32
  cidrPrefixLength : Int32
  probe : InetAddress → ProbeOutcome
  arpTable : List Host

/-! ## Workers -/

/-- Where a worker coroutine stands. -/
inductive WorkerPc where
  /-- at the head of the `for` loop -/
  | atHead
  /-- past `if (!isActive) return@launch`, about to compute the address -/
  | checked (index : Int)
  /-- inside `connect` or `isReachable` -/
  | probing (address : InetAddress)
  /-- inside `processHost` -/
  | resolving (host : Host)
  /-- about to evaluate `if (!isActive) return@coroutineScope` -/
  | resolved (host : Host)
  /-- past that check, about to post the host -/
  | posting (host : Host)
  | done
  | raised
  deriving DecidableEq, Repr

/-- A worker: its program counter and the indices its loop has not yet reached. -/
structure Worker where
  pc : WorkerPc
  rest : List Int
  deriving DecidableEq, Repr

/-- What a step of a worker does to the rest of the system. -/
structure Effect where
  handled : Option Int32 := none
  probed : Option InetAddress := none
  posted : Option Host := none
  raises : Bool := false

/-- The coroutine has completed, normally or not. -/
def Worker.isOver (w : Worker) : Bool := w.pc == .done || w.pc == .raised

/-- The body of one worker up to its next atomic step.  `processHost` is not a
    step here: it returns whenever the resolvers do. -/
def Worker.step (cfg : Config) (isActive : Bool) (w : Worker) : Option (Worker × Effect) :=
  match w.pc with
  | .atHead =>
    match w.rest with
    -- the loop has reached the end of its range
    | [] => some ({ w with pc := .done }, {})
    | index :: rest =>
      -- if (!isActive) return@launch
      if isActive then some ({ pc := .checked index, rest := rest }, {})
      else some ({ w with pc := .done }, {})
  | .checked index =>
    let numericIp := numericIp cfg.ipv4 cfg.cidrPrefixLength index
    -- an array of any other length than 4 or 16 raises UnknownHostException
    match InetAddress.getByAddress (toByteArray numericIp.toInt) with
    | none => some ({ w with pc := .raised }, { handled := some numericIp, raises := true })
    | some address =>
      some ({ w with pc := .probing address },
        { handled := some numericIp, probed := some address })
  | .probing address =>
    if cfg.sdkInt < tiramisu then
      -- handleSocketConnection: an IOException is caught, the result is not used
      some ({ w with pc := .atHead }, {})
    else
      -- handleReachability
      match cfg.probe address with
      | .success => some ({ w with pc := .resolving { ip := address.hostAddress } }, {})
      | .failure => some ({ w with pc := .atHead }, {})
      | .ioException => some ({ w with pc := .raised }, { raises := true })
  | .resolved host =>
    -- leaving a cancelled coroutineScope raises CancellationException
    if isActive then some ({ w with pc := .posting host }, {})
    else some ({ w with pc := .done }, {})
  | .posting host => some ({ w with pc := .atHead }, { posted := some host })
  -- processHost returns in a step of its own
  | .resolving _ | .done | .raised => none

/-- `processHost` returns: it changes nothing but the host name. -/
def Worker.processHost (hostname : Option String) (w : Worker) : Option Worker :=
  match w.pc with
  | .resolving host => some { w with pc := .resolved { host with hostname := hostname } }
  | _ => none

/-! ## The coroutines of handleArpTable -/

/-- Where one `async` block of `handleArpTable` stands. -/
inductive ArpTask where
  /-- about to evaluate `if (!isActive) return@async null` -/
  | ready (host : Host)
  /-- inside `processHost` -/
  | resolving (host : Host)
  /-- about to post; there is no further check -/
  | posting (host : Host)
  | done
  deriving DecidableEq, Repr

/-- One step of an `async` block, and the host it posts. -/
def ArpTask.step (isActive : Bool) : ArpTask → Option (ArpTask × Option Host)
  | .ready host => some (if isActive then .resolving host else .done, none)
  | .posting host => some (.done, some host)
  | .resolving _ | .done => none

/-- `processHost` returns in an `async` block. -/
def ArpTask.processHost (hostname : Option String) : ArpTask → Option ArpTask
  | .resolving host => some (.posting { host with hostname := hostname })
  | _ => none

/-! ## The scanner -/

/-- Why the scope around the workers was cancelled. -/
inductive Cause where
  | failed
  | timedOut
  | cancelled
  deriving DecidableEq, Repr

/-- Where the body of the scan job stands. -/
inductive JobPc where
  /-- launched, body not started -/
  | created
  /-- in `joinAll`, waiting for the workers -/
  | joining
  /-- in `handleArpTable`, waiting for its coroutines -/
  | arp (tasks : List ArpTask)
  /-- about to evaluate the final `if (isActive)` -/
  | lastCheck
  /-- past that check, about to post the null -/
  | postingNull
  /-- completed after posting the null -/
  | ended
  /-- completed without posting a null: cancelled or failed -/
  | dead
  deriving DecidableEq, Repr

/-- State of one scanner.  `handled` and `probed` record the values of
    `numericIp` that the workers computed and the addresses they probed. -/
structure State where
  pc : JobPc
  workers : List Worker
  cause : Option Cause
  jobActive : Bool
  /-- `job != null` -/
  job : Bool
  /-- a call of `stopScanning` has cancelled the job and not yet posted its null -/
  stopping : Bool
  looper : Fifo Event
  handled : List Int32
  probed : List InetAddress
  deriving DecidableEq, Repr

/-- `isActive` as a worker sees it. -/
def State.isActive (s : State) : Bool := s.cause.isNone

/-- The workers that `List(scanThreads) { launch { .. } }` starts. -/
def launchWorkers (cfg : Config) : List Worker :=
  (List.range (scanThreads cfg.cidrPrefixLength).toInt.toNat).map fun threadIndex =>
    { pc := .atHead, rest := workerIndices cfg.cidrPrefixLength threadIndex }

/-- Install worker `k`'s new state and carry out the effect of its step. -/
def State.advance (s : State) (k : Nat) (w : Worker) (effect : Effect) : State :=
  { s with
    workers := s.workers.set k w
    -- a scope is cancelled once: the first cause stays
    cause := if effect.raises then s.cause.or (some .failed) else s.cause
    looper := match effect.posted with
      | none => s.looper
      | some host => s.looper.post (.host host)
    handled := s.handled ++ effect.handled.toList
    probed := s.probed ++ effect.probed.toList }

/-- The job starts: `List(size)` raises on a negative size, and a job cancelled
    before it starts never runs. -/
def stepLaunch (cfg : Config) (s : State) : Option State :=
  if s.pc = .created then
    if s.jobActive ∧ 0 ≤ (scanThreads cfg.cidrPrefixLength).toInt then
      some { s with pc := .joining, workers := launchWorkers cfg }
    else some { s with pc := .dead }
  else none

/-- What follows `withTimeout`: `handleArpTable` below API 33, then the last check. -/
def afterScan (cfg : Config) : JobPc :=
  if cfg.sdkInt < tiramisu then .arp (cfg.arpTable.map .ready) else .lastCheck

/-- One step of the job's own body. -/
def stepJob (cfg : Config) (s : State) : Option State :=
  match s.pc with
  | .joining =>
    if s.workers.all Worker.isOver then
      if s.workers.any (·.pc == .raised) then
        -- the exception is no TimeoutCancellationException and ends the job
        some { s with pc := .dead }
      else
        match s.cause with
        | none | some .timedOut => some { s with pc := afterScan cfg }
        | some .cancelled | some .failed => some { s with pc := .dead }
    else none
  | .arp tasks =>
    -- awaitAll, after which a cancelled coroutineScope raises
    if tasks.all (· == .done) then
      some { s with pc := if s.jobActive then .lastCheck else .dead }
    else none
  -- if (isActive) { mainHandler.post { eventSink.success(null) } }
  | .lastCheck => some { s with pc := if s.jobActive then .postingNull else .dead }
  | .postingNull => some { s with pc := .ended, looper := s.looper.post .null }
  | .created | .ended | .dead => none

/-- Coroutine `k` of `handleArpTable` does its next step. -/
def stepArp (s : State) (k : Nat) : Option State :=
  match s.pc with
  | .arp tasks =>
    match tasks[k]? with
    | none => none
    | some task =>
      match task.step s.jobActive with
      | none => none
      | some (task', posted) =>
        some { s with
          pc := .arp (tasks.set k task')
          looper := match posted with
            | none => s.looper
            | some host => s.looper.post (.host host) }
  | _ => none

/-- `processHost` returns in coroutine `k` of `handleArpTable`. -/
def stepArpProcessHost (s : State) (k : Nat) (hostname : Option String) : Option State :=
  match s.pc with
  | .arp tasks =>
    match tasks[k]? with
    | none => none
    | some task =>
      match task.processHost hostname with
      | none => none
      | some task' => some { s with pc := .arp (tasks.set k task') }
  | _ => none

/-- `stopScanning` up to its post: `job?.cancel(); job = null`. -/
def stepStopCancel (s : State) : Option State :=
  if s.stopping then none
  else if s.job then
    some { s with
      jobActive := false
      cause := s.cause.or (some .cancelled)
      job := false
      stopping := true }
  -- job?.cancel() on null does nothing, the null is posted all the same
  else some { s with stopping := true }

/-- Who moves next. -/
inductive Label where
  /-- the job's body starts -/
  | launch
  /-- worker `k` takes its next step -/
  | worker (k : Nat)
  /-- `processHost` returns in worker `k` -/
  | processHost (k : Nat) (hostname : Option String)
  /-- the five minutes are over -/
  | timeout
  /-- the job's body takes its next step -/
  | job
  /-- coroutine `k` of `handleArpTable` takes its next step -/
  | arp (k : Nat)
  /-- `processHost` returns in coroutine `k` of `handleArpTable` -/
  | arpProcessHost (k : Nat) (hostname : Option String)
  /-- a caller enters `stopScanning` and cancels the job -/
  | stopCancel
  /-- `stopScanning` posts its null -/
  | stopPost
  /-- the main looper runs the closure at the front of its queue -/
  | deliver
  deriving DecidableEq, Repr

/-- One atomic step. -/
def step (cfg : Config) (s : State) : Label → Option State
  | .launch => stepLaunch cfg s
  | .worker k =>
    match s.workers[k]? with
    | none => none
    | some w => (w.step cfg s.isActive).map fun (w', effect) => s.advance k w' effect
  | .processHost k hostname =>
    match s.workers[k]? with
    | none => none
    | some w => (w.processHost hostname).map fun w' => s.advance k w' {}
  | .timeout =>
    -- withTimeout covers the workers, not handleArpTable
    if s.pc = .joining ∧ s.cause = none then some { s with cause := some .timedOut } else none
  | .job => stepJob cfg s
  | .arp k => stepArp s k
  | .arpProcessHost k hostname => stepArpProcessHost s k hostname
  | .stopCancel => stepStopCancel s
  | .stopPost =>
    if s.stopping then some { s with stopping := false, looper := s.looper.post .null } else none
  | .deliver => s.looper.deliver.map fun looper => { s with looper }

/-- The state right after `startScanning` has launched the job. -/
def init : State where
  pc := .created
  workers := []
  cause := none
  jobActive := true
  job := true
  stopping := false
  looper := .empty
  handled := []
  probed := []

/-- The scanner as a transition system. -/
def scanner (cfg : Config) : Lts State Label where
  init := init
  step := step cfg

end LanScan.Android.Scanner
