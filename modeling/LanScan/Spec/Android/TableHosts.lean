import LanScan.Spec.Android.ArpHosts
import LanScan.Spec.Android.HandlerEvents
import LanScan.Spec.Android.ScannerCoverage

/-!
# The hosts of the neighbour table (Android)

Below API 33 a scan that is not stopped ends with the hosts of the table, whatever the probes
do and whether or not the five minutes are over first: each of them is posted once, with the
name that `processHost` found for it, and then the null.

## Key results

- `continuing_step`: a job that nobody stops does not die
- `delivered_of_run`: what has been delivered in the end
-/

namespace LanScan.Android.Scanner

open scoped List

variable {cfg : Config} {s s' : State} {l : Label}

/-! ## Jobs that go on -/

/-- Nobody calls `stopScanning`. -/
def Unstopped (_ : State) (l : Label) : Prop := l ≠ .stopCancel ∧ l ≠ .stopPost

instance (s : State) (l : Label) : Decidable (Unstopped s l) :=
  inferInstanceAs (Decidable (_ ∧ _))

/-- A job below API 33 that nobody stops. -/
structure Continuing (cfg : Config) (s : State) : Prop where
  traced : Traced cfg s
  quiet : ∀ w ∈ s.workers, w.Quiet
  jobActive : s.jobActive = true
  cause : s.cause = none ∨ s.cause = some .timedOut
  stopping : s.stopping = false
  pc : s.pc ≠ .dead
  concluding : Concluding s

/-- A scan starts so. -/
theorem continuing_init (cfg : Config) : Continuing cfg init where
  traced := by constructor <;> exact fun _ h => absurd h List.not_mem_nil
  quiet := by simp [init]
  jobActive := rfl
  cause := .inl rfl
  stopping := rfl
  pc := by simp [init]
  concluding := concluding_init

/-- With addresses of four bytes no worker raises. -/
theorem Traced.not_raised (ht : Traced cfg s) (hsdk : cfg.sdkInt < tiramisu)
    (hfour : ∀ x ∈ scanAddresses cfg.ipv4 cfg.cidrPrefixLength, HasFourBytes x) :
    ∀ w ∈ s.workers, w.pc ≠ .raised := by
  intro w hw hraised
  rcases ht.raised w hw hraised with ⟨x, hx, hno⟩ | ⟨hsdk', -⟩
  · exact hno (hfour x (ht.handled x hx))
  · omega

/-- The job goes on as long as no worker raises. -/
theorem pc_ne_dead_step (hc : Continuing cfg s)
    (hlo : -32768 ≤ cfg.cidrPrefixLength.toInt) (hhi : cfg.cidrPrefixLength.toInt ≤ 32)
    (hraised : ∀ w ∈ s.workers, w.pc ≠ .raised) (h : Transition cfg s l s') :
    s'.pc ≠ .dead := by
  have hactive := hc.jobActive
  cases h with
  | launchDead _ hdead =>
    rw [toInt_scanThreads hlo (by omega), hactive] at hdead
    rcases hdead with hdead | hdead
    · cases hdead
    · omega
  | joinedDead _ _ hdead =>
    -- the timeout does not end the job
    rcases hdead with ⟨w, hw, hpc⟩ | hcause | hcause
    · exact absurd hpc (hraised w hw)
    · rcases hc.cause with h | h <;> simp [h] at hcause
    · rcases hc.cause with h | h <;> simp [h] at hcause
  | arpDead _ _ hstopped | lastCheckDead _ hstopped => simp [hactive] at hstopped
  | joined =>
    simp only [afterScan]
    split <;> simp
  | launch | arpDone | lastCheck | postNull | arp | arpPost | arpProcessHost => simp
  | worker | processHost | timeout | stopCancel | stopAgain | stopPost | deliver => exact hc.pc

/-- As long as nobody stops the scan and no worker raises, it can only run out of time. -/
theorem cause_step (hc : Continuing cfg s) (hl : Unstopped s l) (h : Transition cfg s l s')
    (hraised : ∀ w ∈ s'.workers, w.pc ≠ .raised) :
    s'.jobActive = true ∧ s'.stopping = false ∧
      (s'.cause = none ∨ s'.cause = some .timedOut) := by
  cases h with
  | stopCancel | stopAgain => exact absurd rfl hl.1
  | stopPost => exact absurd rfl hl.2
  | timeout => exact ⟨hc.jobActive, hc.stopping, .inr rfl⟩
  | @worker k w w' effect hk hw =>
    have hraises : effect.raises = false := by
      cases hraises : effect.raises with
      | false => rfl
      | true =>
        -- the worker would be a raised one
        have hmem : w' ∈ (s.advance k w' effect).workers :=
          List.mem_of_getElem? (List.getElem?_set_self (List.getElem?_eq_some_iff.mp hk).1)
        exact absurd (hw.pc_of_raises hraises) (hraised w' hmem)
    refine ⟨hc.jobActive, hc.stopping, ?_⟩
    simp only [State.advance, hraises]
    exact hc.cause
  | _ => exact ⟨hc.jobActive, hc.stopping, hc.cause⟩

/-- Every step of a scan that nobody stops keeps it. -/
theorem continuing_step (hsdk : cfg.sdkInt < tiramisu)
    (hlo : -32768 ≤ cfg.cidrPrefixLength.toInt) (hhi : cfg.cidrPrefixLength.toInt ≤ 32)
    (hfour : ∀ x ∈ scanAddresses cfg.ipv4 cfg.cidrPrefixLength, HasFourBytes x)
    (hc : Continuing cfg s) (hl : Unstopped s l) (h : Transition cfg s l s') :
    Continuing cfg s' := by
  have htraced := traced_step hlo (by omega) hc.traced h
  have hpc := pc_ne_dead_step hc hlo hhi (hc.traced.not_raised hsdk hfour) h
  obtain ⟨hactive, hstopping, hcause⟩ :=
    cause_step hc hl h (htraced.not_raised hsdk hfour)
  exact ⟨htraced, quiet_step hsdk hc.quiet h, hactive, hcause, hstopping, hpc,
    concluding_step hc.concluding ⟨fun h => absurd h hl.1, fun h => absurd h hl.2⟩ h⟩

/-! ## Completed scans -/

/-- The job has completed, and the looper has run dry. -/
def State.Completed (s : State) : Prop := (s.pc = .ended ∨ s.pc = .dead) ∧ s.looper.queue = []

instance (s : State) : Decidable s.Completed := inferInstanceAs (Decidable (_ ∧ _))

/-- In the end the hosts of the table have been delivered, each with the name that was found for
    it, and then the null. -/
theorem delivered_of_run (hsdk : cfg.sdkInt < tiramisu)
    (hlo : -32768 ≤ cfg.cidrPrefixLength.toInt) (hhi : cfg.cidrPrefixLength.toInt ≤ 32)
    (hfour : ∀ x ∈ scanAddresses cfg.ipv4 cfg.cidrPrefixLength, HasFourBytes x) {ls : List Label}
    (h : ((scanner cfg).restrict Unstopped).run init ls = some s) (hdone : s.Completed) :
    ∃ hosts : List Host, s.looper.delivered = hosts.map .host ++ [.null] ∧
      hosts.Perm (withNames (foundNames ls) cfg.arpTable) := by
  have hc : Continuing cfg s :=
    (scanner cfg).run_restrict_invariant Unstopped (Continuing cfg)
      (fun _ _ _ hc hl hstep => continuing_step hsdk hlo hhi hfour hc hl
        (transition_of_step hstep)) (continuing_init cfg) h
  -- the scan has not died, so it has ended and posted its null
  have hended : s.pc = .ended := hdone.1.resolve_right hc.pc
  obtain ⟨hosts, hall⟩ := hc.concluding.ordered.order.exists_hosts
  have hone := hc.concluding.nullCount_all.2 ⟨.inl hended, by simp [hended], hc.stopping⟩
  rw [hone] at hall
  refine ⟨hosts, (Fifo.delivered_eq_all hdone.2).trans hall, ?_⟩
  have hrun := (scanner cfg).run_of_run_restrict Unstopped h
  -- then each host of the table has been posted once
  have hperm := hosts_perm_of_ended hsdk hrun hc.jobActive hended
  have hhosts : hostsOf s.looper.all = hosts := by
    rw [hall, hostsOf_append, hostsOf_map_host]
    exact List.append_nil hosts
  rwa [hhosts] at hperm

end LanScan.Android.Scanner
