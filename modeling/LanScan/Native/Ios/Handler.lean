import LanScan.Native.Ios.Scanner
import LanScan.Native.Session

/-!
# LanDeviceHandler (iOS)

The stream handler of the `lan_scan_event` channel.  Flutter calls `onListen` and `onCancel`
one after the other on the background task queue of the channel, each `onListen` with an
`eventSink` of its own.  The task that `onListen` starts runs on its own from then on, and so does
the main queue; `lanDeviceScanner` keeps referring to the last scanner.
-/

namespace LanScan.Ios.Handler

/-- What one `onListen` has set in motion. -/
abbrev Session := LanScan.Session Scanner.Config Scanner.State

/-- The closures for the session's `eventSink`. -/
def Session.main : Session → Fifo Event
  | .scan _ scanner => scanner.main
  | .noWifi main => main

/-- The session has trapped. -/
def Session.crashed : Session → Bool
  | .scan _ scanner => scanner.crashed
  | .noWifi _ => false

/-- Where the task queue of the channel stands. -/
inductive Phase where
  /-- nobody listens -/
  | idle
  /-- inside `onListen`: `startScanning` has created the task and not yet assigned it -/
  | starting
  | listening
  /-- inside `onCancel`: in `stopScanning` of the scanner that `lanDeviceScanner` refers to -/
  | stopping
  deriving DecidableEq, Repr

/-- State of the handler, with all sessions since it was registered. -/
structure State where
  sessions : List Session
  /-- the session whose scanner `lanDeviceScanner` refers to -/
  lanDeviceScanner : Option Nat
  phase : Phase

/-- The handler before the first `onListen`. -/
def init : State where
  sessions := []
  lanDeviceScanner := none
  phase := .idle

/-- Who moves next. -/
inductive Label where
  /-- `onListen`, with what `wireless` answers and the outcome of the pings -/
  | onListen (ipv4 cidrPrefixLength : Option Int64) (ping : String → Bool)
  /-- `startScanning` assigns the task, and `onListen` returns -/
  | assign
  /-- `onCancel` enters `lanDeviceScanner?.stopScanning()` -/
  | onCancel
  /-- that call takes its next step; after the last one `onCancel` returns -/
  | stop
  /-- something of session `i` moves on its own -/
  | session (i : Nat) (label : Scanner.Label)

/-- The scanner that `lanDeviceScanner` refers to. -/
def State.scanner (s : State) : Option (Nat × Scanner.Config × Scanner.State) :=
  Session.scannerOf s.sessions s.lanDeviceScanner

/-- Let the scanner of session `i` take a step, and then the handler be in `phase`. -/
def State.stepScanner (s : State) (i : Nat) (cfg : Scanner.Config) (scanner : Scanner.State)
    (label : Scanner.Label) (phase : Scanner.State → Phase) : Option State :=
  (Scanner.step cfg scanner label).map fun scanner' =>
    { s with sessions := s.sessions.set i (.scan cfg scanner'), phase := phase scanner' }

/-- `onListen` up to the assignment of the task. -/
def stepOnListen (s : State) (ipv4 cidrPrefixLength : Option Int64) (ping : String → Bool) :
    Option State :=
  if s.phase = .idle then
    match ipv4, cidrPrefixLength with
    | some ipv4, some cidrPrefixLength =>
      some {
        sessions := s.sessions ++ [.scan { ipv4, cidrPrefixLength, ping } Scanner.init]
        lanDeviceScanner := some s.sessions.length
        phase := .starting }
    | _, _ =>
      some { s with
        sessions := s.sessions ++ [.noWifi (Fifo.empty.post .null)]
        phase := .listening }
  else none

/-- `onCancel` up to the first step of `stopScanning`. -/
def stepOnCancel (s : State) : Option State :=
  if s.phase = .listening then
    match s.scanner with
    -- lanDeviceScanner?. on nil
    | none => some { s with phase := .idle }
    | some (_, _, scanner) =>
      if scanner.stop = .idle then some { s with phase := .stopping }
      -- a scanner of an earlier session is stopped once more: its task is nil
      else if scanner.scanningTask then none
      else some { s with phase := .idle }
  else none

/-- Something of session `i` moves on its own. -/
def stepSession (s : State) (i : Nat) (label : Scanner.Label) : Option State :=
  match s.sessions[i]? with
  | none => none
  | some (.scan cfg scanner) =>
    match label with
    -- startScanning and stopScanning are called by the handler only
    | .assign | .stop => none
    | label => s.stepScanner i cfg scanner label fun _ => s.phase
  | some (.noWifi main) =>
    match label with
    | .deliver =>
      main.deliver.map fun main' => { s with sessions := s.sessions.set i (.noWifi main') }
    | _ => none

/-- One atomic step.  A trap stops the whole process. -/
def step (s : State) (l : Label) : Option State :=
  if s.sessions.any Session.crashed then none
  else
    match l with
    | .onListen ipv4 cidrPrefixLength ping => stepOnListen s ipv4 cidrPrefixLength ping
    | .assign =>
      if s.phase = .starting then
        match s.scanner with
        | none => none
        | some (i, cfg, scanner) => s.stepScanner i cfg scanner .assign fun _ => .listening
      else none
    | .onCancel => stepOnCancel s
    | .stop =>
      if s.phase = .stopping then
        match s.scanner with
        | none => none
        | some (i, cfg, scanner) =>
          s.stepScanner i cfg scanner .stop fun scanner' =>
            if scanner'.stop = .completed then .idle else .stopping
      else none
    | .session i label => stepSession s i label

/-- The handler as a transition system. -/
def handler : Lts State Label where
  init := init
  step := step

end LanScan.Ios.Handler
