import LanScan.Spec.Android.HandlerNull
import LanScan.Spec.Android.ScanCorrect

/-!
# What an eventSink receives (Android)

The events of all sessions of a handler: each `eventSink` gets hosts and then one null, as
long as `onCancel` finds a scanner that is still running, and `stopScanning` posts its null
with no coroutine past its last check.

## Key results

- `one_le_nulls_step`: a null that is due is not lost
- `events_of_timelyCancels`: hosts, then one null
-/

namespace LanScan.Android

/-! ## One scanner -/

namespace Scanner

variable {cfg : Config} {s s' : State} {l : Label}

/-- Once a null is due, it has been posted or is about to be. -/
theorem one_le_nulls_step (hs : s.nullDue = true → 1 ≤ s.nulls) (h : Transition cfg s l s')
    (hdue : s'.nullDue = true) : 1 ≤ s'.nulls := by
  cases h with
  -- the steps that post a null
  | lastCheck | postNull | stopCancel | stopAgain | stopPost =>
    simp only [State.nulls, Fifo.all_post, nullCount_append_null, if_true]
    omega
  -- the steps of the scan on the way to it
  | launch hpc | launchDead hpc | joinedDead hpc | arpDone hpc | arpDead hpc | lastCheckDead hpc
  | arp hpc | arpProcessHost hpc =>
    have hold := hs (by simpa [State.nullDue, hpc] using hdue)
    simpa [State.nulls, hpc] using hold
  | arpPost hpc =>
    have hold := hs (by simpa [State.nullDue, hpc] using hdue)
    simpa [State.nulls, hpc] using hold
  -- behind the workers the scan goes on to the table or to its last check
  | joined hpc =>
    have hafter : afterScan cfg ≠ .postingNull ∧ afterScan cfg ≠ .ended := by
      simp only [afterScan]
      split <;> simp
    have hold := hs (by simpa [State.nullDue, hpc, hafter] using hdue)
    simpa [State.nulls, hpc, hafter] using hold
  | worker =>
    have hold := hs (by simpa [State.nullDue, State.advance] using hdue)
    rw [State.nulls, nullCount_advance]
    exact hold
  | processHost | timeout => exact hs hdue
  | deliver hdeliver =>
    rw [State.nulls, Fifo.all_of_deliver hdeliver]
    exact hs hdue

/-- Hosts, then at most one null, which comes when it is due. -/
structure Concluding (s : State) : Prop where
  budget : NullBudget s
  ordered : Ordered s
  due : s.nullDue = true → 1 ≤ s.nulls

/-- A scan starts so. -/
theorem concluding_init : Concluding init :=
  ⟨nullBudget_init, ordered_init, fun h => absurd h (by decide)⟩

/-- `stopScanning` finds a scanner that is still running, and posts its null while no coroutine
    is past its last check. -/
def Timely (s : State) (l : Label) : Prop :=
  (l = .stopCancel → s.nullDue = false) ∧ SettledStop s l

instance (s : State) (l : Label) : Decidable (Timely s l) :=
  inferInstanceAs (Decidable ((_ → _) ∧ _))

/-- Every step in time keeps it. -/
theorem concluding_step (hs : Concluding s) (ht : Timely s l) (h : Transition cfg s l s') :
    Concluding s' :=
  ⟨nullBudget_step hs.budget ht.1 h, ordered_step hs.ordered ht.2 h, one_le_nulls_step hs.due h⟩

/-- The scan has posted its null or been stopped, and nobody is about to post one. -/
def State.Concluded (s : State) : Prop :=
  (s.pc = .ended ∨ s.job = false) ∧ s.pc ≠ .postingNull ∧ s.stopping = false

instance (s : State) : Decidable s.Concluded := inferInstanceAs (Decidable (_ ∧ _))

/-- There is one null at most, and one when the scan has come to its end. -/
theorem Concluding.nullCount_all (hs : Concluding s) :
    nullCount s.looper.all ≤ 1 ∧ (s.Concluded → nullCount s.looper.all = 1) := by
  have hle := hs.budget.le_one
  simp only [State.nulls] at hle
  refine ⟨by omega, fun hconcluded => ?_⟩
  obtain ⟨hover, hposting, hstopping⟩ := hconcluded
  -- A concluded session has its null due and nobody left to post it.
  have hdue : s.nullDue = true := by
    rcases hover with hpc | hjob <;> simp [State.nullDue, *]
  have hone := hs.due hdue
  simp only [State.nulls, hposting, hstopping, Bool.false_eq_true, if_false] at hone
  omega

end Scanner

/-! ## The handler -/

namespace Handler

variable {s s' : State} {l : Label}

/-- The scan of a session has come to its end or been stopped. -/
def Session.Ended : Session → Prop
  | .scan _ scanner => scanner.Concluded
  | .noWifi _ => True

instance (session : Session) : Decidable session.Ended := by
  unfold Session.Ended
  split <;> exact inferInstance

/-- **The events of a handler.** However often Flutter listens and cancels, with whatever WiFi
    there is each time, every `eventSink` gets hosts and then at most one null, and exactly one
    when its scan has come to its end or been stopped, as long as every `onCancel` finds a
    running scanner and settles it before its null. -/
theorem events_of_timelyCancels (ls : List Label) (s : State)
    (h : (handler.restrict (Lifted Scanner.Timely)).run init ls = some s) :
    ∀ session ∈ s.sessions, ∃ (hosts : List Host) (nulls : Nat),
      session.looper.all = hosts.map .host ++ List.replicate nulls .null ∧ nulls ≤ 1 ∧
        (session.Ended → nulls = 1) := by
  have hall : ∀ session ∈ s.sessions, session.Holds Scanner.Concluding :=
    forall_session_of_run (Lifted Scanner.Timely) (fun _ _ _ hc _ => hc) Scanner.concluding_init
      (fun _ _ _ _ hs hc => Scanner.concluding_step hs hc) h
  intro session hmem
  -- each session is a scan or an `onListen` without WiFi
  cases session with
  | scan cfg scanner =>
    have hs : Scanner.Concluding scanner := hall _ hmem
    obtain ⟨hosts, heq⟩ := hs.ordered.order.exists_hosts
    exact ⟨hosts, nullCount scanner.looper.all, heq, hs.nullCount_all⟩
  | noWifi looper => exact ⟨[], 1, hall _ hmem, Nat.le_refl 1, fun _ => rfl⟩

/-! ### A run -/

/-- A session without WiFi, one that is stopped in its scan, and one whose scan finds a host and
    comes to its end. -/
def threeSessions : List Label :=
  [.onListen true false quietConfig, .session 0 .deliver, .onCancel,
    .onListen true true quietConfig, .session 1 .launch, .session 1 (.worker 0), .onCancel,
    .onCancelPost, .session 1 .deliver, .onListen true true Scanner.pairConfig] ++
    Scanner.pairScan.map (.session 2)

/-- The state after them. -/
def threeSessionsState : State :=
  ((handler.restrict (Lifted Scanner.Timely)).run init threeSessions).get (by decide)

/-- The last `eventSink` gets the host and then one null. -/
theorem events_of_timelyCancels_three : ∃ hosts : List Host,
    hosts.map Host.hostname = [some "printer"] ∧
      (threeSessionsState.sessions.get ⟨2, by decide⟩).looper.all =
        hosts.map .host ++ [.null] := by
  obtain ⟨hosts, nulls, hall, -, hone⟩ :=
    events_of_timelyCancels threeSessions threeSessionsState (Option.some_get _).symm _
      (List.get_mem threeSessionsState.sessions ⟨2, by decide⟩)
  rw [hone (by decide)] at hall
  -- the hosts are those among the events of the session
  have hhosts : hostsOf (threeSessionsState.sessions.get ⟨2, by decide⟩).looper.all = hosts := by
    rw [hall, hostsOf_append, hostsOf_map_host]
    exact List.append_nil hosts
  refine ⟨hosts, ?_, hall⟩
  rw [← hhosts]
  decide

end Handler

end LanScan.Android
