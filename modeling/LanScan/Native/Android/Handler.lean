import LanScan.Native.Android.Scanner
import LanScan.Native.Session

/-!
# LanDeviceHandler (Android)

The stream handler of the `lan_scan_event` channel.  Flutter calls `onListen`
and `onCancel` one after the other on a serial task queue, each `onListen` with
an `eventSink` of its own.  The scanner that `onListen` starts runs on its own
from then on; `lanDeviceScanner` keeps referring to the last one started.
-/

namespace LanScan.Android.Handler

/-- What one `onListen` has set in motion. -/
abbrev Session := LanScan.Session Scanner.Config Scanner.State

/-- The closures for the session's `eventSink`. -/
def Session.looper : Session → Fifo Event
  | .scan _ scanner => scanner.looper
  | .noWifi looper => looper

/-- State of the handler, with all sessions since it was registered. -/
structure State where
  sessions : List Session
  /-- the session whose scanner `lanDeviceScanner` refers to -/
  lanDeviceScanner : Option Nat
  listening : Bool
  /-- `onCancel` is inside `stopScanning`, before its post -/
  cancelling : Bool

/-- The handler before the first `onListen`. -/
def init : State where
  sessions := []
  lanDeviceScanner := none
  listening := false
  cancelling := false

/-- Who moves next. -/
inductive Label where
  /-- `onListen`, with what `wireless` answers and the scan it would start -/
  | onListen (isEnabled isConnectedWifi : Bool) (cfg : Scanner.Config)
  /-- `onCancel` enters `lanDeviceScanner?.stopScanning()` and cancels the job -/
  | onCancel
  /-- that call of `stopScanning` posts its null and `onCancel` returns -/
  | onCancelPost
  /-- something of session `i` moves on its own -/
  | session (i : Nat) (label : Scanner.Label)

/-- The scanner that `lanDeviceScanner` refers to. -/
def State.scanner (s : State) : Option (Nat × Scanner.Config × Scanner.State) :=
  Session.scannerOf s.sessions s.lanDeviceScanner

/-- Let the scanner of session `i` take a step. -/
def State.stepScanner (s : State) (i : Nat) (cfg : Scanner.Config) (scanner : Scanner.State)
    (label : Scanner.Label) : Option State :=
  (Scanner.step cfg scanner label).map fun scanner' =>
    { s with sessions := s.sessions.set i (.scan cfg scanner') }

/-- One atomic step. -/
def step (s : State) : Label → Option State
  | .onListen isEnabled isConnectedWifi cfg =>
    -- the task queue is serial: onCancel returns before the next onListen
    if s.listening || s.cancelling then none
    else if isEnabled && isConnectedWifi then
      some { s with
        sessions := s.sessions ++ [.scan cfg Scanner.init]
        lanDeviceScanner := some s.sessions.length
        listening := true }
    else
      some { s with
        sessions := s.sessions ++ [.noWifi (Fifo.empty.post .null)]
        listening := true }
  | .onCancel =>
    if s.listening then
      match s.scanner with
      -- lanDeviceScanner?. on null
      | none => some { s with listening := false }
      | some (i, cfg, scanner) =>
        { s with listening := false, cancelling := true }.stepScanner i cfg scanner .stopCancel
    else none
  | .onCancelPost =>
    if s.cancelling then
      match s.scanner with
      | none => none
      | some (i, cfg, scanner) =>
        { s with cancelling := false }.stepScanner i cfg scanner .stopPost
    else none
  | .session i label =>
    match s.sessions[i]? with
    | none => none
    | some (.scan cfg scanner) =>
      match label with
      -- stopScanning is called by onCancel only
      | .stopCancel | .stopPost => none
      | _ => s.stepScanner i cfg scanner label
    | some (.noWifi looper) =>
      match label with
      | .deliver =>
        looper.deliver.map fun looper' =>
          { s with sessions := s.sessions.set i (.noWifi looper') }
      | _ => none

/-- The handler as a transition system. -/
def handler : Lts State Label where
  init := init
  step := step

end LanScan.Android.Handler
