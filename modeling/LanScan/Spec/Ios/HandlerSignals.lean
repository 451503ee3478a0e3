import LanScan.Native.Ios.Handler
import LanScan.Spec.Ios.EndSignal
import LanScan.Spec.Ios.ScanCorrect
import LanScan.Spec.Sessions

/-!
# What an eventSink receives (iOS)

The events of all sessions of a handler: each `eventSink` gets hosts and then one nil, as
long as the final check of each scan, and each call of `stopScanning`, come in time.

## Key results

- `transition_of_step`: a step of the handler is at most one step of one scanner
- `evolves_of_transition`: so the sessions evolve one by one
- `events_of_timelySignals`: hosts, then one nil
-/

namespace LanScan.Ios.Handler

variable {s s' : State} {l : Label}

/-! ## Steps -/

/-- The step of a scanner that a step of the handler is. -/
def State.scannerLabel (s : State) : Label → Option (Nat × Scanner.Label)
  | .assign => s.lanDeviceScanner.map (·, .assign)
  | .stop => s.lanDeviceScanner.map (·, .stop)
  | .session i label => some (i, label)
  | .onListen _ _ _ | .onCancel => none

/-- What a step of the handler does to the sessions. -/
inductive Transition (s : State) (l : Label) : State → Prop
  | listen {cfg : Scanner.Config} (hphase : s.phase = .idle) :
      Transition s l {
        sessions := s.sessions ++ [.scan cfg Scanner.init]
        lanDeviceScanner := some s.sessions.length
        phase := .starting }
  | noWifi (hphase : s.phase = .idle) :
      Transition s l { s with
        sessions := s.sessions ++ [.noWifi (Fifo.empty.post .null)]
        phase := .listening }
  /-- `onCancel` is called -/
  | cancel {phase : Phase} (hphase : s.phase = .listening) (hnext : phase ≠ .starting) :
      Transition s l { s with phase }
  /-- a scanner takes a step -/
  | scanner {i : Nat} {cfg : Scanner.Config} {scanner scanner' : Scanner.State}
      {label : Scanner.Label} {phase : Phase} (hlabel : s.scannerLabel l = some (i, label))
      (hi : s.sessions[i]? = some (.scan cfg scanner))
      (hstep : Scanner.step cfg scanner label = some scanner')
      (hassign : label = .assign → s.phase = .starting ∧ s.lanDeviceScanner = some i)
      (hstop : label = .stop → s.phase = .stopping)
      (hnext : phase = s.phase ∨ label = .assign ∨ s.phase = .stopping ∧ phase ≠ .starting) :
      Transition s l { s with sessions := s.sessions.set i (.scan cfg scanner'), phase }
  /-- the nil of a session without WiFi is delivered -/
  | deliver {i : Nat} {main main' : Fifo Event} (hi : s.sessions[i]? = some (.noWifi main))
      (hdeliver : main.deliver = some main') :
      Transition s l { s with sessions := s.sessions.set i (.noWifi main') }

theorem transition_of_step (h : step s l = some s') : Transition s l s' := by
  unfold step at h
  split at h
  · cases h
  cases l with
  | onListen ipv4 cidrPrefixLength ping =>
    simp only [stepOnListen] at h
    split at h
    · next hphase => split at h <;> cases h <;> constructor <;> exact hphase
    · cases h
  -- the assignment is a step of the last scanner
  | assign =>
    simp only at h
    split at h
    · next hphase =>
      split at h
      · cases h
      · next i cfg scanner hscanner =>
        obtain ⟨hlast, hi⟩ := Session.getElem?_of_scannerOf hscanner
        obtain ⟨scanner', hstep, rfl⟩ := Option.map_eq_some_iff.mp h
        exact .scanner (by simp [State.scannerLabel, hlast]) hi hstep (fun _ => ⟨hphase, hlast⟩)
          nofun (.inr (.inl rfl))
    · cases h
  -- `onCancel` goes on to `stopScanning` if there is a scanner
  | onCancel =>
    simp only [stepOnCancel] at h
    split at h
    · next hphase =>
      split at h
      · cases h
        exact .cancel hphase (by decide)
      · split at h
        · cases h
          exact .cancel hphase (by decide)
        · split at h
          · cases h
          · cases h
            exact .cancel hphase (by decide)
    · cases h
  -- and so is each step of `stopScanning`
  | stop =>
    simp only at h
    split at h
    · next hphase =>
      split at h
      · cases h
      · next i cfg scanner hscanner =>
        obtain ⟨hlast, hi⟩ := Session.getElem?_of_scannerOf hscanner
        obtain ⟨scanner', hstep, rfl⟩ := Option.map_eq_some_iff.mp h
        refine .scanner (by simp [State.scannerLabel, hlast]) hi hstep nofun (fun _ => hphase)
          (.inr (.inr ⟨hphase, ?_⟩))
        dsimp only
        split <;> decide
    · cases h
  | session i label =>
    simp only [stepSession] at h
    split at h
    · cases h
    · next cfg scanner hi =>
      split at h
      · cases h
      · cases h
      · next hassign hstop =>
        obtain ⟨scanner', hstep, rfl⟩ := Option.map_eq_some_iff.mp h
        exact .scanner rfl hi hstep (fun h => absurd h hassign) (fun h => absurd h hstop) (.inl rfl)
    -- without WiFi the session can only deliver its nil
    · next main hi =>
      split at h
      · obtain ⟨main', hdeliver, rfl⟩ := Option.map_eq_some_iff.mp h
        exact .deliver hi hdeliver
      · cases h

/-! ## All sessions -/

/-- A step of the handler is no step of a scanner, or one that meets `c`. -/
def Lifted (c : Scanner.State → Scanner.Label → Prop) (s : State) (l : Label) : Prop :=
  StepMeets State.sessions State.scannerLabel (Session.Meets c) s l

instance (c : Scanner.State → Scanner.Label → Prop) [∀ scanner label, Decidable (c scanner label)]
    (s : State) (l : Label) : Decidable (Lifted c s l) :=
  inferInstanceAs (Decidable (StepMeets _ _ _ s l))

/-- A task that `onListen` does not return before it is assigned. -/
structure Started (s : State) : Prop where
  assigned : ∀ i cfg scanner, s.sessions[i]? = some (.scan cfg scanner) →
    scanner.assigned = true ∨ s.phase = .starting ∧ s.lanDeviceScanner = some i

/-- The assignment is made in its own step. -/
theorem assigned_of_step {cfg : Scanner.Config} {scanner scanner' : Scanner.State}
    {label : Scanner.Label} (h : Scanner.step cfg scanner label = some scanner') :
    scanner'.assigned = (scanner.assigned || label = .assign) := by
  cases Scanner.transition_of_step h |>.2 with
  | assign => simp
  | worker | stageReturns => simp [Scanner.State.advance]
  | _ => simp

/-- Every step keeps it. -/
theorem started_step (hs : Started s) (h : Transition s l s') : Started s' := by
  refine ⟨fun j cfg scanner hj => ?_⟩
  cases h with
  | listen hphase =>
    rcases List.getElem?_concat_cases hj with ⟨rfl, -⟩ | hj
    · exact .inr ⟨rfl, rfl⟩
    · exact .inl ((hs.assigned j cfg scanner hj).resolve_right (by simp [hphase]))
  | noWifi hphase =>
    rcases List.getElem?_concat_cases hj with ⟨-, hnone⟩ | hj
    · cases hnone
    · exact .inl ((hs.assigned j cfg scanner hj).resolve_right (by simp [hphase]))
  | cancel hphase hnext =>
    exact .inl ((hs.assigned j cfg scanner hj).resolve_right (by simp [hphase]))
  | @scanner i cfg' scanner₀ scanner' label phase hlabel hi hstep hassign hstop hnext =>
    have hassigned := assigned_of_step hstep
    rcases List.getElem?_set_cases hj with ⟨rfl, hnew⟩ | ⟨hne, hj⟩
    · cases hnew
      by_cases hl : label = .assign
      · exact .inl (by simp [hassigned, hl])
      · rcases hs.assigned j _ _ hi with hold | ⟨hstarting, hlast⟩
        · exact .inl (by simp [hassigned, hold])
        · -- the step of another party leaves `onListen` where it is
          have hphase : phase = s.phase :=
            hnext.resolve_right fun h => h.elim hl fun h => by simp [hstarting] at h
          exact .inr ⟨hphase.trans hstarting, hlast⟩
    · rcases hs.assigned j cfg scanner hj with hold | ⟨hstarting, hlast⟩
      · exact .inl hold
      · have hphase : phase = s.phase := by
          refine hnext.resolve_right fun h => h.elim (fun hl => ?_) fun h => by
            simp [hstarting] at h
          -- only the last scanner is assigned
          exact hne (Option.some.inj (hlast.symm.trans (hassign hl).2))
        exact .inr ⟨hphase.trans hstarting, hlast⟩
  | deliver hi hdeliver =>
    rcases List.getElem?_set_cases hj with ⟨-, hnew⟩ | ⟨-, hj⟩
    · cases hnew
    · exact hs.assigned j cfg scanner hj

/-- The step of a scanner meets the condition, and comes after `startScanning`. -/
theorem afterStart_of_step {c : Scanner.State → Scanner.Label → Prop} (hs : Started s)
    (hc : Lifted c s l) {i : Nat} {cfg : Scanner.Config} {scanner : Scanner.State}
    {label : Scanner.Label} (hlabel : s.scannerLabel l = some (i, label))
    (hi : s.sessions[i]? = some (.scan cfg scanner)) (hstop : label = .stop → s.phase = .stopping) :
    Scanner.AfterStart scanner label ∧ c scanner label := by
  refine ⟨fun hl _ => (hs.assigned i cfg scanner hi).resolve_right ?_, hc.of_label hlabel hi⟩
  simp [hstop hl]

/-- A step of a scanner that has been started and meets `c`. -/
def ScannerStep (c : Scanner.State → Scanner.Label → Prop) (cfg : Scanner.Config)
    (scanner scanner' : Scanner.State) : Prop :=
  ∃ label, (Scanner.AfterStart scanner label ∧ c scanner label) ∧
    Scanner.Transition cfg scanner label scanner'

/-- A step of the handler starts a session, or is a step of at most one. -/
theorem evolves_of_transition {c : Scanner.State → Scanner.Label → Prop} (hs : Started s)
    (hc : Lifted c s l) (h : Transition s l s') :
    Evolves (Session.Fresh Scanner.init) (Session.Step (ScannerStep c)) s.sessions s'.sessions := by
  cases h with
  | listen => exact .start (.scan _)
  | noWifi => exact .start .noWifi
  | cancel => exact .same
  | scanner hlabel hi hstep hassign hstop =>
    have hmeets := afterStart_of_step hs hc hlabel hi hstop
    exact .move hi (.scan ⟨_, hmeets, (Scanner.transition_of_step hstep).2⟩)
  | deliver hi hdeliver => exact .move hi (.deliver hdeliver)

/-! ## The events -/

/-- The checks of a scanner are timely, and `stopScanning` dispatches its nil while no worker is
    past its last check. -/
def Timely (scanner : Scanner.State) (label : Scanner.Label) : Prop :=
  Scanner.TimelySignal scanner label ∧ Scanner.SettledStop scanner label

instance (scanner : Scanner.State) (label : Scanner.Label) : Decidable (Timely scanner label) :=
  inferInstanceAs (Decidable (_ ∧ _))

/-- The scan has come to its end, and so has any call of `stopScanning`. -/
def Session.Ended : Session → Prop
  | .scan _ scanner =>
    scanner.body = .finished ∧ (scanner.stop = .idle ∨ scanner.stop = .completed)
  | .noWifi _ => True

instance (session : Session) : Decidable session.Ended := by
  unfold Session.Ended
  split <;> exact inferInstance

/-- At most one nil, and exactly one when the scan has come to its end. -/
theorem nullCount_of_token (cfg : Scanner.Config) {scanner : Scanner.State}
    (ht : Scanner.Token scanner) : nullCount scanner.main.all ≤ 1 ∧
      (Session.Ended (.scan cfg scanner) → nullCount scanner.main.all = 1) := by
  have hone := ht.one
  refine ⟨by rw [Scanner.State.signals] at hone; omega, fun ⟨hbody, hstop⟩ => ?_⟩
  -- nobody claims the end any more, and it is not left unclaimed
  have hassigned : scanner.assigned = true :=
    Bool.of_not_eq_false fun hassigned => (ht.early hassigned).2.1 hbody
  have htask : scanner.scanningTask = false := ht.spent (.inr (.inl hbody))
  have hbodyClaims : scanner.bodyClaims = false := by simp [Scanner.State.bodyClaims, hbody]
  have hstopClaims : scanner.stopClaims = false := by
    rcases hstop with hstop | hstop <;> simp [Scanner.State.stopClaims, hstop]
  rw [Scanner.State.signals, Scanner.State.unclaimed, hbodyClaims, hstopClaims, hassigned,
    htask] at hone
  simpa using hone

/-- What every scanner keeps to. -/
structure Concluding (scanner : Scanner.State) : Prop where
  token : Scanner.Token scanner
  ordered : Scanner.Ordered scanner

/-- A scan starts so. -/
theorem concluding_init : Concluding Scanner.init := ⟨Scanner.token_init, Scanner.ordered_init⟩

/-- Every step in time keeps it. -/
theorem concluding_step {cfg : Scanner.Config} {scanner scanner' : Scanner.State}
    (hs : Concluding scanner) (h : ScannerStep Timely cfg scanner scanner') :
    Concluding scanner' := by
  obtain ⟨label, ⟨hafter, hsignal, hsettled⟩, htransition⟩ := h
  exact ⟨Scanner.token_step hs.token hafter hsignal htransition,
    Scanner.ordered_step hs.ordered hsettled htransition⟩

/-- **The events of a handler.** However often Flutter listens and cancels, with whatever WiFi
    there is each time, every `eventSink` gets hosts and then at most one nil, and exactly one
    when its scan has come to its end, as long as the steps of all scanners are timely. -/
theorem events_of_timelySignals (ls : List Label) (s : State)
    (h : (handler.restrict (Lifted Timely)).run init ls = some s) :
    ∀ session ∈ s.sessions, ∃ (hosts : List Host) (nils : Nat),
      session.main.all = hosts.map .host ++ List.replicate nils .null ∧ nils ≤ 1 ∧
        (session.Ended → nils = 1) := by
  have hall : ∀ session ∈ s.sessions, session.Holds Concluding :=
    handler.forall_component_of_run (Lifted Timely) Started State.sessions
      (fun t l t' hs hc hstep =>
        have htransition := transition_of_step hstep
        ⟨started_step hs htransition, evolves_of_transition hs hc htransition⟩)
      (Session.Holds.of_fresh concluding_init)
      (Session.Holds.of_step fun _ _ _ => concluding_step)
      ⟨fun i cfg scanner hi => by simp [init] at hi⟩
      (fun _ hmem => absurd hmem List.not_mem_nil) h
  intro session hmem
  -- each session is a scan or an `onListen` without WiFi
  cases session with
  | scan cfg scanner =>
    have hs : Concluding scanner := hall _ hmem
    obtain ⟨hosts, heq⟩ := hs.ordered.order.exists_hosts
    obtain ⟨hle, hone⟩ := nullCount_of_token cfg hs.token
    exact ⟨hosts, nullCount scanner.main.all, heq, hle, hone⟩
  | noWifi main => exact ⟨[], 1, hall _ hmem, Nat.le_refl 1, fun _ => rfl⟩

/-! ## A run -/

/-- A session without WiFi, one that is stopped, and one whose scan finds two hosts and comes to
    its end; the last one is cancelled afterwards. -/
def threeSessions : List Label :=
  [.onListen none (some 24) (fun _ => true), .session 0 .deliver, .onCancel,
    .onListen (some 3232235521) (some 30) (fun _ => true), .assign, .session 1 .body,
    .session 1 (.worker 0), .onCancel, .stop, .stop, .stop, .stop, .session 1 .deliver,
    .onListen (some 3232235521) (some 30) (fun _ => true), .assign] ++
    Scanner.pairRun.tail.map (.session 2) ++ [.onCancel, .stop]

/-- The state after them. -/
def threeSessionsState : State :=
  ((handler.restrict (Lifted Timely)).run init threeSessions).get (by decide)

/-- The last `eventSink` gets both hosts and then one nil. -/
theorem events_of_timelySignals_three : ∃ hosts : List Host,
    hosts.map Host.hostname = [some "tv", some "printer"] ∧
      (threeSessionsState.sessions.get ⟨2, by decide⟩).main.all =
        hosts.map .host ++ [.null] := by
  obtain ⟨hosts, nils, hall, -, hone⟩ :=
    events_of_timelySignals threeSessions threeSessionsState (Option.some_get _).symm _
      (List.get_mem threeSessionsState.sessions ⟨2, by decide⟩)
  rw [hone (by decide)] at hall
  -- The hosts are read off the third session, where they can be computed.
  have hhosts : hostsOf (threeSessionsState.sessions.get ⟨2, by decide⟩).main.all = hosts := by
    rw [hall, hostsOf_append, hostsOf_map_host]
    exact List.append_nil hosts
  refine ⟨hosts, ?_, hall⟩
  rw [← hhosts]
  decide

end LanScan.Ios.Handler
