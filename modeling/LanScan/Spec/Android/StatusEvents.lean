import LanScan.Native.Android.WiFiConnectionStatus
import LanScan.Spec.Dart.StatusEvents

/-!
# The WiFi status from Android to Dart

Whatever the order of listening, cancelling and broadcasts, and however they interleave: a
receiver is registered at most once and unregistered only when it is, every status that is
determined is handed to the sink of the last `onListen`, and no more than one after its receiver
is gone.

## Key results

- `transition_of_step`: what one step can do
- `balanced_step`: the receivers that are registered are those that the handler knows
- `passed_step`: every status is passed on
- `sinks_of_run`: to the sink of the last `onListen`
- `statuses_of_run`: both, and what Dart makes of it
-/

namespace LanScan.Android.WiFiConnectionStatusHandler

variable {s s' : State} {l : Label}

/-! ## Steps -/

/-- The transitions of the handler. -/
inductive Transition (s : State) : Label → State → Prop
  | onListen (hphase : s.phase = .idle) :
      Transition s .onListen { s with
        phase := .testing, eventSink := some s.sinks.length, sinks := s.sinks ++ [[]] }
  | onCancel (hphase : s.phase = .listening) :
      Transition s .onCancel
        { s with phase := if s.wifiStateReceiver = none then .idle else .unregistering }
  | create (hphase : s.phase = .testing) (hreceiver : s.wifiStateReceiver = none) :
      Transition s .next { s with
        phase := .registering, wifiStateReceiver := some s.created, created := s.created + 1 }
  | keep {receiver} (hphase : s.phase = .testing)
      (hreceiver : s.wifiStateReceiver = some receiver) :
      Transition s .next { s with phase := .listening }
  | register {receiver} (hphase : s.phase = .registering)
      (hreceiver : s.wifiStateReceiver = some receiver) :
      Transition s .next
        { s with phase := .listening, registered := s.registered ++ [receiver] }
  | unregister {receiver} (hphase : s.phase = .unregistering)
      (hreceiver : s.wifiStateReceiver = some receiver) (hmem : receiver ∈ s.registered) :
      Transition s .next { s with
        phase := .clearing, registered := s.registered.erase receiver, strays := 0 }
  | raise {receiver} (hphase : s.phase = .unregistering)
      (hreceiver : s.wifiStateReceiver = some receiver) (hmem : receiver ∉ s.registered) :
      Transition s .next { s with phase := .idle, raised := true }
  | clear (hphase : s.phase = .clearing) :
      Transition s .next { s with phase := .idle, wifiStateReceiver := none }
  | onReceive {receiver} (hmain : s.main = .free) (hmem : receiver ∈ s.registered) :
      Transition s (.onReceive receiver) { s with main := .receiving }
  | status {connectivityManager} (hmain : s.main = .receiving) :
      Transition s (.status connectivityManager) { s with
        main := .sending (isWifiConnected connectivityManager)
        statuses := s.statuses ++ [isWifiConnected connectivityManager] }
  | success {isConnected} (hmain : s.main = .sending isConnected) :
      Transition s .success { s with
        main := .free
        sinks := match s.eventSink with
          | none => s.sinks
          | some sink => s.sinks.modify sink (· ++ [isConnected])
        strays := if s.registered = [] then s.strays + 1 else s.strays }

/-- The transitions are the steps of the handler. -/
theorem transition_of_step (h : step s l = some s') : Transition s l s' := by
  cases l with
  | onListen =>
    simp only [step] at h
    split at h
    · next hphase => cases h; exact .onListen hphase
    · cases h
  | onCancel =>
    simp only [step] at h
    split at h
    · next hphase => cases h; exact .onCancel hphase
    · cases h
  -- The calls of `onListen` and `onCancel`, one for each phase they are in.
  | next =>
    simp only [step, stepNext] at h
    split at h
    · next hphase hreceiver => cases h; exact .create hphase hreceiver
    · next hphase hreceiver => cases h; exact .keep hphase hreceiver
    · next hphase hreceiver => cases h; exact .register hphase hreceiver
    · next hphase hreceiver =>
      split at h
      · next hmem => cases h; exact .unregister hphase hreceiver hmem
      · next hmem => cases h; exact .raise hphase hreceiver hmem
    · next hphase => cases h; exact .clear hphase
    all_goals cases h
  | onReceive receiver =>
    simp only [step, stepMain] at h
    split at h
    · next hok => cases h; exact .onReceive hok.1 hok.2
    · cases h
  | status connectivityManager =>
    simp only [step, stepMain] at h
    split at h
    · next hmain => cases h; exact .status hmain
    · cases h
  | success =>
    simp only [step, stepMain] at h
    split at h
    · next hmain => cases h; exact .success hmain
    all_goals cases h

/-! ## Receivers -/

/-- The receiver that the handler knows, and whether it is registered. -/
def State.Receivers (s : State) : Prop :=
  match s.phase with
  | .idle | .testing => s.wifiStateReceiver = none ∧ s.registered = []
  | .registering | .clearing => ∃ receiver, s.wifiStateReceiver = some receiver ∧ s.registered = []
  | .listening | .unregistering =>
    ∃ receiver, s.wifiStateReceiver = some receiver ∧ s.registered = [receiver]

/-- The handler registers and unregisters in turns, and one event at most comes too late. -/
structure Balanced (s : State) : Prop where
  receivers : s.Receivers
  raised : s.raised = false
  strays : s.strays + (if s.registered = [] ∧ s.main ≠ .free then 1 else 0) ≤ 1

/-- At first there is no receiver. -/
theorem balanced_init : Balanced init := by
  constructor <;> simp [init, State.Receivers]

/-- Every step keeps it. -/
theorem balanced_step (hb : Balanced s) (h : Transition s l s') : Balanced s' := by
  obtain ⟨hreceivers, hraised, hstrays⟩ := hb
  cases h with
  | onListen hphase =>
    simp only [State.Receivers, hphase] at hreceivers
    exact ⟨hreceivers, hraised, hstrays⟩
  | onCancel hphase =>
    simp only [State.Receivers, hphase] at hreceivers
    obtain ⟨receiver, hreceiver, hregistered⟩ := hreceivers
    refine ⟨?_, hraised, hstrays⟩
    simpa [State.Receivers, hreceiver] using hregistered
  | create hphase =>
    simp only [State.Receivers, hphase] at hreceivers
    exact ⟨⟨_, rfl, hreceivers.2⟩, hraised, hstrays⟩
  -- `onListen` always finds no receiver, as `onCancel` has cleared it
  | keep hphase hreceiver =>
    simp only [State.Receivers, hphase] at hreceivers
    rw [hreceivers.1] at hreceiver
    cases hreceiver
  | register hphase hreceiver =>
    simp only [State.Receivers, hphase] at hreceivers
    obtain ⟨_, -, hregistered⟩ := hreceivers
    refine ⟨⟨_, hreceiver, by simp [hregistered]⟩, hraised, ?_⟩
    simp only [hregistered, List.nil_append, List.cons_ne_self, false_and, if_false]
    omega
  | unregister hphase hreceiver =>
    simp only [State.Receivers, hphase] at hreceivers
    obtain ⟨receiver, hknown, hregistered⟩ := hreceivers
    obtain rfl := Option.some.inj (hreceiver.symm.trans hknown)
    refine ⟨⟨_, hreceiver, by simp [hregistered]⟩, hraised, ?_⟩
    split <;> simp
  -- the receiver that is unregistered is registered
  | raise hphase hreceiver hmem =>
    simp only [State.Receivers, hphase] at hreceivers
    obtain ⟨receiver, hknown, hregistered⟩ := hreceivers
    obtain rfl := Option.some.inj (hreceiver.symm.trans hknown)
    exact absurd (by simp [hregistered]) hmem
  | clear hphase =>
    simp only [State.Receivers, hphase] at hreceivers
    obtain ⟨_, -, hregistered⟩ := hreceivers
    exact ⟨⟨rfl, hregistered⟩, hraised, hstrays⟩
  | onReceive hmain hmem =>
    refine ⟨hreceivers, hraised, ?_⟩
    simpa [List.ne_nil_of_mem hmem] using hstrays
  | status hmain =>
    refine ⟨hreceivers, hraised, ?_⟩
    simpa [hmain] using hstrays
  | success hmain =>
    refine ⟨hreceivers, hraised, ?_⟩
    by_cases hregistered : s.registered = [] <;> simpa [hregistered, hmain] using hstrays

/-- There is a receiver while somebody listens, and only one. -/
theorem Balanced.registered (hb : Balanced s) : s.registered.length ≤ 1 ∧
    (s.registered ≠ [] ↔ s.phase = .listening ∨ s.phase = .unregistering) := by
  have hreceivers := hb.receivers
  -- Only between registering and unregistering is a receiver registered.
  cases hphase : s.phase with
  | idle | testing =>
    simp only [State.Receivers, hphase] at hreceivers
    simp [hreceivers.2]
  | registering | clearing | listening | unregistering =>
    simp only [State.Receivers, hphase] at hreceivers
    obtain ⟨_, -, hregistered⟩ := hreceivers
    simp [hregistered]

/-! ## Statuses -/

/-- The status that is about to be handed to the sink. -/
def MainPc.pending : MainPc → List Bool
  | .sending isConnected => [isConnected]
  | .free | .receiving => []

/-- Every status is passed on in order, to the sink of the last `onListen`. -/
structure Passed (s : State) : Prop where
  /-- nothing happens before the first `onListen` -/
  listened : s.eventSink = none → s.phase = .idle ∧ s.registered = [] ∧ s.main = .free
  eventSink : ∀ sink, s.eventSink = some sink → sink + 1 = s.sinks.length
  statuses : s.sinks.flatten ++ s.main.pending = s.statuses

theorem passed_init : Passed init := by
  constructor <;> simp [init, MainPc.pending]

/-- What the last sink is given comes behind everything else. -/
theorem flatten_modify_last {sinks : List (List Bool)} {sink : Nat}
    (h : sink + 1 = sinks.length) (events : List Bool) :
    (sinks.modify sink (· ++ events)).flatten = sinks.flatten ++ events := by
  induction sinks generalizing sink with
  | nil => simp at h
  | cons first sinks ih =>
    cases sink with
    -- The sink is the last one: no sink follows it.
    | zero =>
      have hnil : sinks = [] := List.eq_nil_of_length_eq_zero (by simpa using h.symm)
      simp [hnil]
    | succ sink =>
      rw [List.modify_succ_cons, List.flatten_cons, List.flatten_cons, ih (by simpa using h),
        List.append_assoc]

/-- Every step keeps it. -/
theorem passed_step (hp : Passed s) (h : Transition s l s') : Passed s' := by
  obtain ⟨hlistened, hsink, hstatuses⟩ := hp
  cases h with
  | onListen => exact ⟨by simp, by simp, by simpa using hstatuses⟩
  | onCancel hphase | create hphase | keep hphase | register hphase | unregister hphase
  | raise hphase | clear hphase =>
    exact ⟨fun hnone => by simp [(hlistened hnone).1] at hphase, hsink, hstatuses⟩
  | onReceive hmain hmem =>
    refine ⟨fun hnone => by simp [(hlistened hnone).2.1] at hmem, hsink, ?_⟩
    simpa [hmain, MainPc.pending] using hstatuses
  | status hmain =>
    refine ⟨fun hnone => by simp [(hlistened hnone).2.2] at hmain, hsink, ?_⟩
    rw [hmain] at hstatuses
    simpa [MainPc.pending] using hstatuses
  -- the status goes to the last sink, which is the one that `onListen` has left
  | success hmain =>
    cases heventSink : s.eventSink with
    | none => simp [(hlistened heventSink).2.2] at hmain
    | some sink =>
      have hlength := hsink sink heventSink
      refine ⟨by simp, by simpa [heventSink] using hlength, ?_⟩
      rw [hmain] at hstatuses
      simpa [heventSink, flatten_modify_last hlength, MainPc.pending] using hstatuses

/-! ## Sinks -/

/-- The statuses that a run hands over, each with the number of the last `onListen` by then.
    `listens` counts the calls of `onListen` in front of the run, and `isConnected` is the status
    that has been determined last. -/
def handed : Nat → Bool → List Label → List (Nat × Bool)
  | _, _, [] => []
  | listens, isConnected, .onListen :: ls => handed (listens + 1) isConnected ls
  | listens, _, .status connectivityManager :: ls =>
    handed listens (isWifiConnected connectivityManager) ls
  | listens, isConnected, .success :: ls =>
    (listens - 1, isConnected) :: handed listens isConnected ls
  | listens, isConnected, .onCancel :: ls | listens, isConnected, .next :: ls
  | listens, isConnected, .onReceive _ :: ls => handed listens isConnected ls

/-- Those of one sink. -/
def handedTo (sink : Nat) (statuses : List (Nat × Bool)) : List Bool :=
  (statuses.filter (·.1 = sink)).map Prod.snd

/-- A new sink has been given nothing. -/
theorem getD_append_nil (sinks : List (List Bool)) (sink : Nat) :
    (sinks ++ [[]]).getD sink [] = sinks.getD sink [] := by
  rw [List.getD_eq_getElem?_getD, List.getD_eq_getElem?_getD, List.getElem?_append]
  split
  · rfl
  · next h =>
    rw [List.getElem?_eq_none (Nat.not_lt.mp h)]
    cases sink - sinks.length <;> rfl

/-- A status is given to the last sink only. -/
theorem getD_modify {sinks : List (List Bool)} {last : Nat} (h : last < sinks.length)
    (isConnected : Bool) (sink : Nat) :
    (sinks.modify last (· ++ [isConnected])).getD sink [] =
      sinks.getD sink [] ++ (if last = sink then [isConnected] else []) := by
  rw [List.getD_eq_getElem?_getD, List.getD_eq_getElem?_getD, List.getElem?_modify]
  split
  · next heq =>
    subst heq
    rw [List.getElem?_eq_getElem h]
    rfl
  · simp

/-- What the sinks have been given by a run: each of them the statuses that have been handed over
    while it was the last one. -/
theorem sinks_of_run {ls : List Label} {isConnected : Bool} (hp : Passed s)
    (hmain : ∀ b, s.main = .sending b → b = isConnected) (h : handler.run s ls = some s') :
    s'.sinks.length = s.sinks.length + ls.count .onListen ∧
      ∀ sink, s'.sinks.getD sink [] =
        s.sinks.getD sink [] ++ handedTo sink (handed s.sinks.length isConnected ls) := by
  induction ls generalizing s isConnected with
  | nil =>
    cases h
    exact ⟨rfl, fun sink => (List.append_nil _).symm⟩
  | cons l ls ih =>
    obtain ⟨t, hstep, hrun⟩ := handler.run_cons_eq_some.mp h
    have ht := transition_of_step hstep
    have hpt := passed_step hp ht
    cases ht with
    -- the statuses handed over from here on go to a new sink
    | onListen =>
      obtain ⟨hlength, hsinks⟩ := ih hpt hmain hrun
      rw [List.length_append, List.length_singleton] at hlength hsinks
      refine ⟨by rw [hlength, List.count_cons_self]; omega, fun sink => ?_⟩
      rw [hsinks, getD_append_nil]
      rfl
    -- the status that is asked for is the next one to be handed over
    | status =>
      obtain ⟨hlength, hsinks⟩ := ih hpt (fun b hb => (MainPc.sending.inj hb).symm) hrun
      exact ⟨by simpa using hlength, hsinks⟩
    -- it is given to the last sink
    | @success b hsending =>
      obtain rfl := hmain b hsending
      have hfree : ∀ next, MainPc.free = .sending next → next = b := by simp
      obtain ⟨hlength, hsinks⟩ := ih hpt hfree hrun
      cases heventSink : s.eventSink with
      | none => simp [(hp.listened heventSink).2.2] at hsending
      | some last =>
        have hlast := hp.eventSink last heventSink
        simp only [heventSink, List.length_modify] at hlength hsinks
        refine ⟨by simpa using hlength, fun sink => ?_⟩
        rw [hsinks, getD_modify (by omega), List.append_assoc, handed, handedTo, handedTo,
          show s.sinks.length - 1 = last by omega]
        by_cases heq : last = sink <;> simp [heq]
    | onReceive =>
      have hreceiving : ∀ b, MainPc.receiving = .sending b → b = isConnected := by simp
      obtain ⟨hlength, hsinks⟩ := ih hpt hreceiving hrun
      exact ⟨by simpa using hlength, hsinks⟩
    | onCancel | create | keep | register | unregister | raise | clear =>
      obtain ⟨hlength, hsinks⟩ := ih hpt hmain hrun
      exact ⟨by simpa using hlength, hsinks⟩

/-! ## From Android to Dart -/

/-- **The WiFi status.** However listening, cancelling and broadcasts interleave: no receiver is
    unregistered that is not registered, there is one at most, and it is there from the end of
    `onListen` to `onCancel`; there is one sink for each `onListen`, and it is given the statuses
    that are handed over while it is the last one; all statuses are handed over once and in order,
    no more than one after the receiver is gone; and the stream of Dart for each sink never
    repeats a status and ends with the last one. -/
theorem statuses_of_run (ls : List Label) (s : State) (h : handler.run init ls = some s) :
    s.raised = false ∧ s.registered.length ≤ 1 ∧
      (s.registered ≠ [] ↔ s.phase = .listening ∨ s.phase = .unregistering) ∧ s.strays ≤ 1 ∧
      s.sinks = (List.range (ls.count .onListen)).map
        (fun sink => handedTo sink (handed 0 false ls)) ∧
      s.sinks.flatten ++ s.main.pending = s.statuses ∧
      ∀ events ∈ s.sinks,
        (Dart.wifiConnectionStatusChange events).IsChain (· ≠ ·) ∧
        (Dart.wifiConnectionStatusChange events).getLast? = events.getLast? := by
  have hb : Balanced s := handler.run_invariant Balanced
    (fun _ _ _ hb hl => balanced_step hb (transition_of_step hl)) balanced_init h
  have hp : Passed s := handler.run_invariant Passed
    (fun _ _ _ hp hl => passed_step hp (transition_of_step hl)) passed_init h
  obtain ⟨hlength, hphase⟩ := hb.registered
  have hstrays := hb.strays
  obtain ⟨hcount, hsinks⟩ := @sinks_of_run init s ls false passed_init (by simp [init]) h
  -- the sinks, one by one
  have heq : s.sinks = (List.range (ls.count .onListen)).map
      fun sink => handedTo sink (handed 0 false ls) := by
    refine List.ext_getElem (by simpa [init] using hcount) fun sink hlt _ => ?_
    have hsink := hsinks sink
    rw [List.getD_eq_getElem?_getD, List.getElem?_eq_getElem hlt, Option.getD_some] at hsink
    rw [hsink, List.getElem_map, List.getElem_range]
    rfl
  exact ⟨hb.raised, hlength, hphase, by omega, heq, hp.statuses, fun events _ =>
    ⟨Dart.isChain_wifiConnectionStatusChange events,
      Dart.getLast?_wifiConnectionStatusChange events⟩⟩

/-- A phone from API 23 on that is in a network over WiFi. -/
def wifiPhone : ConnectivityManager where
  sdkInt := 33
  activeNetwork := some (some [transportWifi])
  activeNetworkInfo := none

/-- A phone below API 23 without a network. -/
def offlinePhone : ConnectivityManager where
  sdkInt := 22
  activeNetwork := none
  activeNetworkInfo := none

/-- The second `onListen` comes while a status of the first session is on its way. -/
def twoListens : List Label :=
  [.onListen, .next, .next, .onReceive 0, .status wifiPhone, .success, .onReceive 0,
    .status offlinePhone, .onCancel, .next, .next, .onListen, .success, .next, .next, .onReceive 1]

/-- The state after them. -/
def twoListensState : State := (handler.run init twoListens).get (by decide)

/-- The second sink is given the status that was determined for the first one. -/
theorem statuses_of_run_twoListens : twoListensState.raised = false ∧
    twoListensState.sinks = [[true], [false]] := by
  obtain ⟨hraised, -, -, -, hsinks, -⟩ :=
    statuses_of_run twoListens twoListensState (Option.some_get _).symm
  exact ⟨hraised, hsinks.trans (by decide)⟩

end LanScan.Android.WiFiConnectionStatusHandler
