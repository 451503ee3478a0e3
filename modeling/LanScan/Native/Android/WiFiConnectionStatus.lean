import LanScan.ForStd.Lts

/-!
# WiFiConnectionStatusHandler (Android)

The stream handler of the `wifi_connection_status_change_event` channel as a labelled transition
system.  Flutter calls `onListen` and `onCancel` one after the other on the background task queue
of the channel.  The main thread runs `onReceive` of receivers that are registered, one call at a
time; it reads `eventSink` whenever it gets there, also while the queue is inside the handler.
-/

namespace LanScan.Android.WiFiConnectionStatusHandler

/-! ## The status -/

/-- `Build.VERSION_CODES.M` -/
def versionCodeM : Nat := 23

/-- `NetworkCapabilities.TRANSPORT_WIFI` -/
def transportWifi : Nat := 1

/-- `ConnectivityManager.TYPE_WIFI` -/
def typeWifi : Nat := 1

/-- `NetworkInfo` -/
structure NetworkInfo where
  type : Nat
  isConnected : Bool
  deriving DecidableEq, Repr

/-- What the services answer: the API level, the active network with the transports of its
    capabilities, if it has any, and `activeNetworkInfo`. -/
structure ConnectivityManager where
  sdkInt : Nat
  activeNetwork : Option (Option (List Nat))
  activeNetworkInfo : Option NetworkInfo
  deriving DecidableEq, Repr

/-- `isWifiConnected()` -/
def isWifiConnected (connectivityManager : ConnectivityManager) : Bool :=
  if versionCodeM ≤ connectivityManager.sdkInt then
    match connectivityManager.activeNetwork with
    | none => false
    | some none => false
    | some (some capabilities) => capabilities.contains transportWifi
  else
    match connectivityManager.activeNetworkInfo with
    | none => false
    | some networkInfo => networkInfo.type == typeWifi && networkInfo.isConnected

/-! ## The handler -/

/-- Where the task queue of the channel stands. -/
inductive Phase where
  /-- nobody listens -/
  | idle
  /-- in `registerReceiver`, about to test `wifiStateReceiver == null` -/
  | testing
  /-- about to call `context.registerReceiver` -/
  | registering
  | listening
  /-- in `unregisterReceiver`, about to call `context.unregisterReceiver` -/
  | unregistering
  /-- about to assign `wifiStateReceiver = null` -/
  | clearing
  deriving DecidableEq, Repr

/-- Where the main thread stands. -/
inductive MainPc where
  /-- in no `onReceive` -/
  | free
  /-- about to call `isWifiConnected` -/
  | receiving
  /-- about to call `eventSink?.success` -/
  | sending (isConnected : Bool)
  deriving DecidableEq, Repr

/-- State of the handler.  Receivers are numbered as they are created, and sinks as `onListen` is
    called.  `statuses` records the results of `isWifiConnected`, and `strays` the events that have
    come since the last receiver was unregistered and before another one is registered. -/
structure State where
  phase : Phase
  eventSink : Option Nat
  wifiStateReceiver : Option Nat
  created : Nat
  /-- the receivers that the context knows -/
  registered : List Nat
  main : MainPc
  /-- what each sink has been given -/
  sinks : List (List Bool)
  statuses : List Bool
  strays : Nat
  /-- `unregisterReceiver` has raised IllegalArgumentException -/
  raised : Bool
  deriving DecidableEq, Repr

/-- Who moves next. -/
inductive Label where
  /-- `onListen` assigns `eventSink` -/
  | onListen
  /-- `onCancel` tests `wifiStateReceiver != null` -/
  | onCancel
  /-- the task queue takes its next step -/
  | next
  /-- a broadcast reaches `receiver` on the main thread -/
  | onReceive (receiver : Nat)
  /-- `isWifiConnected` returns -/
  | status (connectivityManager : ConnectivityManager)
  /-- `eventSink?.success(isConnected)` -/
  | success
  deriving DecidableEq, Repr

/-- The next step of `registerReceiver` or `unregisterReceiver`. -/
def stepNext (s : State) : Option State :=
  match s.phase, s.wifiStateReceiver with
  | .testing, none =>
    some { s with
      phase := .registering
      wifiStateReceiver := some s.created
      created := s.created + 1 }
  | .testing, some _ => some { s with phase := .listening }
  | .registering, some receiver =>
    some { s with phase := .listening, registered := s.registered ++ [receiver] }
  | .unregistering, some receiver =>
    -- a receiver that is not registered raises
    if receiver ∈ s.registered then
      some { s with phase := .clearing, registered := s.registered.erase receiver, strays := 0 }
    else some { s with phase := .idle, raised := true }
  | .clearing, _ => some { s with phase := .idle, wifiStateReceiver := none }
  | .registering, none | .unregistering, none | .idle, _ | .listening, _ => none

/-- The steps of the main thread. -/
def stepMain (s : State) : Label → Option State
  | .onReceive receiver =>
    if s.main = .free ∧ receiver ∈ s.registered then some { s with main := .receiving } else none
  | .status connectivityManager =>
    if s.main = .receiving then
      let isConnected := isWifiConnected connectivityManager
      some { s with main := .sending isConnected, statuses := s.statuses ++ [isConnected] }
    else none
  | .success =>
    match s.main with
    | .sending isConnected =>
      some { s with
        main := .free
        sinks := match s.eventSink with
          | none => s.sinks
          | some sink => s.sinks.modify sink (· ++ [isConnected])
        strays := if s.registered = [] then s.strays + 1 else s.strays }
    | .free | .receiving => none
  | _ => none

/-- One atomic step. -/
def step (s : State) : Label → Option State
  | .onListen =>
    -- the task queue is serial
    if s.phase = .idle then
      some { s with
        phase := .testing
        eventSink := some s.sinks.length
        sinks := s.sinks ++ [[]] }
    else none
  | .onCancel =>
    if s.phase = .listening then
      some { s with phase := if s.wifiStateReceiver = none then .idle else .unregistering }
    else none
  | .next => stepNext s
  | label => stepMain s label

/-- The handler before the first `onListen`. -/
def init : State where
  phase := .idle
  eventSink := none
  wifiStateReceiver := none
  created := 0
  registered := []
  main := .free
  sinks := []
  statuses := []
  strays := 0
  raised := false

/-- The handler as a transition system. -/
def handler : Lts State Label where
  init := init
  step := step

end LanScan.Android.WiFiConnectionStatusHandler
