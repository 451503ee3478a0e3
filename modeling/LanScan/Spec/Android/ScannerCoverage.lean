import LanScan.Spec.Android.ScannerTermination
import LanScan.Spec.Android.ScannerTrace
import LanScan.Spec.Events

/-!
# Every address once, every host once (Android)

The ledger of an undisturbed scan in which no worker has raised: the addresses
handled and those still to come make up the scan, and the hosts posted and those
on their way make up the reachable ones among the addresses handled.  When the
scan is complete nothing is left to come.

## Key results

- `accounted_of_run`: the ledger balances in every reachable state
- `covered_or_dead`: a completed run has covered the scan and delivered its null
  last, or its job died without a null
-/

namespace LanScan.Android.Scanner

open scoped List

variable {cfg : Config} {s s' : State} {l : Label}

/-! ## The ledger -/

/-- The addresses that a worker has yet to handle. -/
def Worker.remaining (cfg : Config) (w : Worker) : List Int32 :=
  w.pending.map (numericIp cfg.ipv4 cfg.cidrPrefixLength)

/-- `isReachable` will return true. -/
def Config.isReachable (cfg : Config) (address : InetAddress) : Bool := cfg.probe address = .success

/-- The host on its way from a worker to the main looper, by its address. -/
def Worker.inFlight (cfg : Config) (w : Worker) : List String :=
  match w.pc with
  | .probing address => if cfg.isReachable address then [address.hostAddress] else []
  | .resolving host | .resolved host | .posting host => [host.ip]
  | .atHead | .checked _ | .done | .raised => []

/-- The addresses of the reachable hosts among those handled. -/
def reachableHosts (cfg : Config) (handled : List Int32) : List String :=
  ((handled.map inetAddress).filter cfg.isReachable).map InetAddress.hostAddress

/-- Where a scan stands whose workers are all well. -/
structure Ledger (cfg : Config) (s : State) : Prop where
  launched : cfg.cidrPrefixLength.toInt ≤ 32
  well : ∀ w ∈ s.workers, w.pc ≠ .raised
  finished : ∀ w ∈ s.workers, w.pc = .done → w.rest = []
  addresses : (s.handled ++ s.workers.flatMap (Worker.remaining cfg)).Perm
    (scanAddresses cfg.ipv4 cfg.cidrPrefixLength)
  fourBytes : ∀ x ∈ s.handled, HasFourBytes x
  probed : s.probed = s.handled.map inetAddress
  hosts : tiramisu ≤ cfg.sdkInt →
    ((hostsOf s.looper.all).map Host.ip ++ s.workers.flatMap (Worker.inFlight cfg)).Perm
      (reachableHosts cfg s.handled)
  outcomes : tiramisu ≤ cfg.sdkInt → ∀ address ∈ s.probed, cfg.probe address = .ioException →
    ∃ w ∈ s.workers, w.probing = some address

section Worker

variable {w w' : Worker} {effect : Effect}

/-- A step of an active worker that does not raise leaves it well. -/
theorem WorkerStep.well (h : WorkerStep cfg true w w' effect) (hr : effect.raises = false) :
    w'.pc ≠ .raised ∧ (w'.pc = .done → w'.rest = []) := by
  cases h with
  | leave hrest => exact ⟨nofun, fun _ => hrest⟩
  -- an active worker is not stopped at a check
  | stop hactive | drop hactive => exact nomatch hactive
  | raiseAddress | raiseProbe => exact nomatch hr
  | _ => exact ⟨nofun, nofun⟩

/-- What a worker handles is what it no longer has before it. -/
theorem WorkerStep.remaining_eq (h : WorkerStep cfg true w w' effect) :
    w.remaining cfg = effect.handled.toList ++ w'.remaining cfg := by
  cases h <;> rfl

/-- A worker that does not raise probes the address it handles. -/
theorem WorkerStep.probed_eq (h : WorkerStep cfg true w w' effect) (hr : effect.raises = false) :
    effect.probed = effect.handled.map inetAddress ∧
      ∀ x, effect.handled = some x → HasFourBytes x := by
  cases h with
  | probe haddr =>
    obtain ⟨hfour, rfl⟩ := eq_inetAddress_of_getByAddress haddr
    refine ⟨rfl, fun x hx => ?_⟩
    cases hx
    exact hfour
  | raiseAddress | raiseProbe => exact nomatch hr
  | _ => exact ⟨rfl, nofun⟩

/-- A reachable address is in flight from its probe to its post. -/
theorem WorkerStep.inFlight_eq (h : WorkerStep cfg true w w' effect)
    (hr : effect.raises = false) (hsdk : tiramisu ≤ cfg.sdkInt) :
    effect.posted.toList.map Host.ip ++ w'.inFlight cfg =
      w.inFlight cfg ++ reachableHosts cfg effect.handled.toList := by
  cases h with
  -- an address is handled, and its host is in flight if it is reachable
  | @probe index rest address haddr =>
    obtain ⟨-, rfl⟩ := eq_inetAddress_of_getByAddress haddr
    simp only [Worker.inFlight, reachableHosts, Option.toList, List.map_cons, List.map_nil,
      List.nil_append, List.filter_cons, List.filter_nil]
    split <;> rfl
  | connected hlt => exact absurd hsdk (Nat.not_le.mpr hlt)
  -- the host stays in flight, or there is none
  | @reachable address rest _ hprobe =>
    have hreach : cfg.isReachable address = true := decide_eq_true hprobe
    simp only [Worker.inFlight, hreach, if_true]
    rfl
  | @unreachable address rest _ hprobe =>
    have hreach : cfg.isReachable address = false := by
      rw [Config.isReachable, hprobe]
      rfl
    simp only [Worker.inFlight, hreach]
    rfl
  | drop hactive => exact nomatch hactive
  | raiseAddress | raiseProbe => exact nomatch hr
  | _ => rfl

/-- A worker is probing the address whose probe it has started. -/
theorem WorkerStep.probing_of_probed (h : WorkerStep cfg true w w' effect) {address : InetAddress}
    (hprobed : effect.probed = some address) : w'.probing = some address := by
  cases h with
  | probe => cases hprobed; rfl
  | _ => exact nomatch hprobed

/-- A probe that raises makes the worker raise. -/
theorem WorkerStep.probe_ne_ioException (h : WorkerStep cfg true w w' effect)
    (hr : effect.raises = false) (hsdk : tiramisu ≤ cfg.sdkInt) {address : InetAddress}
    (hprobing : w.probing = some address) : cfg.probe address ≠ .ioException := by
  cases h with
  | connected hlt => exact absurd hsdk (Nat.not_le.mpr hlt)
  | reachable _ hprobe | unreachable _ hprobe =>
    cases hprobing
    rw [hprobe]
    nofun
  | raiseProbe => exact nomatch hr
  | _ => exact nomatch hprobing

end Worker

/-- The reachable hosts of two lists are those of each. -/
theorem reachableHosts_append (handled handled' : List Int32) :
    reachableHosts cfg (handled ++ handled') =
      reachableHosts cfg handled ++ reachableHosts cfg handled' := by
  simp only [reachableHosts, List.map_append, List.filter_append]

/-- The hosts posted after a step of a worker. -/
theorem hostsOf_looper_advance (s : State) (k : Nat) (w : Worker) (effect : Effect) :
    hostsOf (s.advance k w effect).looper.all = hostsOf s.looper.all ++ effect.posted.toList := by
  cases h : effect.posted with
  | none => simp only [State.advance, h, Option.toList, List.append_nil]
  | some host =>
    simp only [State.advance, h, Fifo.all_post, hostsOf_append, Option.toList]
    rfl

/-- A step of a worker that does not raise keeps the ledger. -/
theorem ledger_advance (hl : Ledger cfg s) {k : Nat} {w w' : Worker} {effect : Effect}
    (hk : s.workers[k]? = some w) (hw : WorkerStep cfg true w w' effect)
    (hr : effect.raises = false) : Ledger cfg (s.advance k w' effect) := by
  obtain ⟨hwell, hfinished⟩ := hw.well hr
  obtain ⟨hprobed, hfour⟩ := hw.probed_eq hr
  constructor
  · exact hl.launched
  · exact List.forall_mem_set hl.well hwell
  · exact List.forall_mem_set hl.finished hfinished
  -- the address handled moves from the worker's remaining ones to `handled`
  · have hperm : (effect.handled.toList ++ w'.remaining cfg).Perm (w.remaining cfg ++ []) := by
      rw [List.append_nil, hw.remaining_eq]
    have hset := List.flatMap_set_perm_of_perm (Worker.remaining cfg) hk hperm
    rw [List.append_nil] at hset
    calc (s.handled ++ effect.handled.toList) ++ (s.workers.set k w').flatMap (Worker.remaining cfg)
        = s.handled ++ (effect.handled.toList ++
            (s.workers.set k w').flatMap (Worker.remaining cfg)) := List.append_assoc ..
      _ ~ s.handled ++ s.workers.flatMap (Worker.remaining cfg) := hset.append_left _
      _ ~ scanAddresses cfg.ipv4 cfg.cidrPrefixLength := hl.addresses
  · intro x hx
    rcases List.mem_append.mp hx with hx | hx
    · exact hl.fourBytes x hx
    · exact hfour x (Option.mem_toList.mp hx)
  · have hlist : effect.probed.toList = effect.handled.toList.map inetAddress := by
      rw [hprobed]
      cases effect.handled <;> rfl
    show s.probed ++ effect.probed.toList = (s.handled ++ effect.handled.toList).map inetAddress
    rw [hl.probed, hlist, List.map_append]
  · intro hsdk
    -- a host posted leaves the flight, a reachable address handled enters it
    have hset := List.flatMap_set_perm_of_perm (Worker.inFlight cfg) hk
      (List.Perm.of_eq (hw.inFlight_eq hr hsdk))
    rw [hostsOf_looper_advance, List.map_append, List.append_assoc]
    show List.Perm _ (reachableHosts cfg (s.handled ++ effect.handled.toList))
    rw [reachableHosts_append]
    refine (hset.append_left _).trans ?_
    rw [← List.append_assoc]
    exact (hl.hosts hsdk).append_right _
  · intro hsdk address haddress hio
    rcases List.mem_append.mp haddress with haddress | haddress
    · obtain ⟨v, hv, hprobing⟩ := hl.outcomes hsdk address haddress hio
      refine ⟨v, List.mem_set_of_mem_of_ne hk hv ?_, hprobing⟩
      rintro rfl
      exact hw.probe_ne_ioException hr hsdk hprobing hio
    · have hprobing := hw.probing_of_probed (Option.mem_toList.mp haddress)
      exact ⟨w', List.mem_set (List.getElem?_eq_some_iff.mp hk).1 _, hprobing⟩

/-- `processHost` keeps the ledger: the host stays in flight. -/
theorem ledger_processHost (hl : Ledger cfg s) {k : Nat} {host : Host} {rest : List Int}
    {hostname : Option String} (hk : s.workers[k]? = some ⟨.resolving host, rest⟩) :
    Ledger cfg (s.advance k ⟨.resolved { host with hostname := hostname }, rest⟩ {}) := by
  have hhandled : s.handled ++ (none : Option Int32).toList = s.handled := List.append_nil _
  have hprobed : s.probed ++ (none : Option InetAddress).toList = s.probed := List.append_nil _
  refine ⟨hl.launched, ?_, ?_, ?_, ?_, ?_, ?_, ?_⟩ <;>
    simp only [State.advance, hhandled, hprobed]
  · exact List.forall_mem_set hl.well (by simp)
  · exact List.forall_mem_set hl.finished (by simp)
  -- what the worker has left and has in flight does not depend on the name
  · have hset := List.flatMap_set_perm (Worker.remaining cfg)
      ⟨.resolved { host with hostname := hostname }, rest⟩ hk
    have hset' := (List.perm_append_left_iff _).mp hset
    exact (hset'.append_left _).trans hl.addresses
  · exact hl.fourBytes
  · exact hl.probed
  · intro hsdk
    have hset := List.flatMap_set_perm (Worker.inFlight cfg)
      ⟨.resolved { host with hostname := hostname }, rest⟩ hk
    have hset' := (List.perm_append_left_iff _).mp hset
    exact (hset'.append_left _).trans (hl.hosts hsdk)
  · intro hsdk address haddress hio
    -- the worker that probes the address is another one
    obtain ⟨v, hv, hprobing⟩ := hl.outcomes hsdk address haddress hio
    refine ⟨v, List.mem_set_of_mem_of_ne hk hv ?_, hprobing⟩
    rintro rfl
    cases hprobing

/-- The indices of the workers make up those of the scan. -/
theorem remaining_launchWorkers (cfg : Config) :
    (launchWorkers cfg).flatMap (Worker.remaining cfg) =
      ((List.range (scanThreads cfg.cidrPrefixLength).toInt.toNat).flatMap
        (workerIndices cfg.cidrPrefixLength)).map (numericIp cfg.ipv4 cfg.cidrPrefixLength) := by
  rw [launchWorkers, List.flatMap_map, List.map_flatMap]
  rfl

/-- No worker starts with a host in flight. -/
theorem inFlight_launchWorkers (cfg : Config) :
    (launchWorkers cfg).flatMap (Worker.inFlight cfg) = [] := by
  rw [launchWorkers, List.flatMap_map, List.flatMap_eq_nil_iff]
  exact fun _ _ => rfl

/-- The ledger that the job opens when it launches the workers. -/
theorem ledger_launch (hlo : -32768 ≤ cfg.cidrPrefixLength.toInt)
    (hhi : cfg.cidrPrefixLength.toInt ≤ 32) (hhandled : s.handled = []) (hprobed : s.probed = [])
    (hlooper : s.looper.all = []) :
    Ledger cfg { s with pc := .joining, workers := launchWorkers cfg } := by
  refine ⟨hhi, ?_, ?_, ?_, ?_, ?_, ?_, ?_⟩ <;> simp only [hhandled, hprobed, hlooper]
  · intro w hw hpc
    obtain ⟨k, _, rfl⟩ := List.mem_map.mp hw
    exact nomatch hpc
  · intro w hw hpc
    obtain ⟨k, _, rfl⟩ := List.mem_map.mp hw
    exact nomatch hpc
  · rw [remaining_launchWorkers, List.nil_append]
    -- the stripes of the workers make up the addresses of the subnet
    exact (flatMap_workerIndices_perm hlo hhi).map _
  · exact fun x hx => absurd hx List.not_mem_nil
  · rfl
  · rw [inFlight_launchWorkers]
    exact fun _ => List.Perm.nil
  · exact fun _ _ haddress => absurd haddress List.not_mem_nil

/-- The ledger is about the workers, what they handled and, from API 33 on, the
    hosts posted. -/
theorem Ledger.congr (hl : Ledger cfg s) (hworkers : s'.workers = s.workers)
    (hhandled : s'.handled = s.handled) (hprobed : s'.probed = s.probed)
    (hhosts : tiramisu ≤ cfg.sdkInt → hostsOf s'.looper.all = hostsOf s.looper.all) :
    Ledger cfg s' := by
  -- Every clause reads workers, handled, probed or hosts, which are the same.
  refine ⟨hl.launched, ?_, ?_, ?_, ?_, ?_, ?_, ?_⟩ <;> simp only [hworkers, hhandled, hprobed]
  · exact hl.well
  · exact hl.finished
  · exact hl.addresses
  · exact hl.fourBytes
  · exact hl.probed
  · intro hsdk
    rw [hhosts hsdk]
    exact hl.hosts hsdk
  · exact hl.outcomes

/-! ## The null -/

/-- The messages posted so far are hosts, and behind them the null of a job that
    has ended. -/
def Closing (s : State) : Prop :=
  s.looper.all = (hostsOf s.looper.all).map .host ++ if s.pc = .ended then [.null] else []

/-- It depends on the events and on whether the scan has ended. -/
theorem Closing.congr (hc : Closing s) (hall : s'.looper.all = s.looper.all)
    (hpc : s'.pc = .ended ↔ s.pc = .ended) : Closing s' := by
  simp only [Closing, hall, hpc]
  exact hc

/-- A host may be posted until the job has ended. -/
theorem Closing.post_host (hc : Closing s) {host : Host}
    (hall : s'.looper.all = s.looper.all ++ [.host host]) (hpc : s.pc ≠ .ended)
    (hpc' : s'.pc ≠ .ended) : Closing s' := by
  rw [Closing, if_neg hpc, List.append_nil] at hc
  rw [Closing, if_neg hpc', hall, hostsOf_append, List.map_append, ← hc, List.append_nil]
  rfl

/-- A worker posts before the scan has ended. -/
theorem Closing.advance (hc : Closing s) (hpc : s.pc ≠ .ended) (k : Nat) (w : Worker)
    (effect : Effect) : Closing (s.advance k w effect) := by
  cases hposted : effect.posted with
  | none => exact hc.congr (by simp only [State.advance, hposted]) Iff.rfl
  | some host =>
    have hall : (s.advance k w effect).looper.all = s.looper.all ++ [.host host] := by
      simp only [State.advance, hposted, Fifo.all_post]
    exact hc.post_host hall hpc hpc

/-- Every step of an undisturbed scan keeps it. -/
theorem closing_step (hwf : WellFormed s) (hu : Undisturbed s l) (hc : Closing s)
    (h : Transition cfg s l s') : Closing s' := by
  cases h with
  | launch hpc | launchDead hpc | joinedDead hpc | arpDone hpc | arpDead hpc | lastCheck hpc
  | lastCheckDead hpc | arp hpc | arpProcessHost hpc =>
    exact hc.congr rfl (by simp [hpc])
  | joined hpc =>
    refine hc.congr rfl ⟨fun h => ?_, by simp [hpc]⟩
    simp only [afterScan] at h
    split at h <;> cases h
  | worker hk hw =>
    have hpc := hwf.joining_of_mem (List.mem_of_getElem? hk) hw.isOver_eq_false
    exact hc.advance (by simp [hpc]) _ _ _
  | processHost hk =>
    have hpc := hwf.joining_of_mem (List.mem_of_getElem? hk) rfl
    exact hc.advance (by simp [hpc]) _ _ _
  | arpPost hpc => exact hc.post_host (Fifo.all_post _ _) (by simp [hpc]) (by simp)
  | postNull hpc =>
    have hne : s.pc ≠ .ended := by simp [hpc]
    -- up to here only hosts have been posted, so the null comes last
    rw [Closing, if_neg hne, List.append_nil] at hc
    rw [Closing, if_pos rfl, Fifo.all_post, hostsOf_append, List.map_append, ← hc,
      List.append_assoc]
    rfl
  | deliver hdeliver => exact hc.congr (Fifo.all_of_deliver hdeliver) Iff.rfl
  | timeout => exact absurd rfl hu.1
  | stopCancel | stopAgain => exact absurd rfl hu.2.1
  | stopPost => exact absurd rfl hu.2.2

/-! ## The invariant -/

/-- The bookkeeping of an undisturbed scan: only a worker that raised disturbs it. -/
structure Accounted (cfg : Config) (s : State) : Prop where
  wellFormed : WellFormed s
  closing : Closing s
  active : s.jobActive = true
  cause : s.cause = none ∨ (s.cause = some .failed ∧ ∃ w ∈ s.workers, w.pc = .raised)
  fresh : s.pc = .created →
    s.cause = none ∧ s.handled = [] ∧ s.probed = [] ∧ s.looper.all = []
  ledger : s.pc ≠ .created → s.pc ≠ .dead → s.cause = none → Ledger cfg s
  finished : s.pc ≠ .created → s.pc ≠ .joining → s.pc ≠ .dead → s.cause = none
  dead : s.pc = .dead →
    (∃ w ∈ s.workers, w.pc = .raised) ∨ 32 < cfg.cidrPrefixLength.toInt
  arp : ∀ tasks, s.pc = .arp tasks → cfg.sdkInt < tiramisu

/-- A scan starts so. -/
theorem accounted_init (cfg : Config) : Accounted cfg init where
  wellFormed := wellFormed_init
  closing := rfl
  active := rfl
  cause := .inl rfl
  -- Before the launch there is nothing to account for.
  fresh _ := ⟨rfl, rfl, rfl, rfl⟩
  ledger h := absurd rfl h
  finished h := absurd rfl h
  dead h := nomatch h
  arp _ h := nomatch h

/-- The books while the workers run. -/
theorem Accounted.of_joining (hwf : WellFormed s) (hc : Closing s) (hactive : s.jobActive = true)
    (hpc : s.pc = .joining)
    (hcause : s.cause = none ∨ (s.cause = some .failed ∧ ∃ w ∈ s.workers, w.pc = .raised))
    (hledger : s.cause = none → Ledger cfg s) : Accounted cfg s where
  wellFormed := hwf
  closing := hc
  active := hactive
  cause := hcause
  -- While joining, only the ledger has to be shown; the other phases are excluded.
  fresh h := nomatch hpc.symm.trans h
  ledger _ _ := hledger
  finished _ h := absurd hpc h
  dead h := nomatch hpc.symm.trans h
  arp _ h := nomatch hpc.symm.trans h

/-- The books once all workers have finished well. -/
theorem Accounted.of_finished (hwf : WellFormed s) (hc : Closing s) (hactive : s.jobActive = true)
    (hcreated : s.pc ≠ .created) (hdead : s.pc ≠ .dead) (hcause : s.cause = none)
    (hledger : Ledger cfg s) (harp : ∀ tasks, s.pc = .arp tasks → cfg.sdkInt < tiramisu) :
    Accounted cfg s where
  wellFormed := hwf
  closing := hc
  active := hactive
  cause := .inl hcause
  fresh h := absurd h hcreated
  ledger _ _ _ := hledger
  finished _ _ _ := hcause
  dead h := absurd h hdead
  arp := harp

/-- The books of a job that died. -/
theorem Accounted.of_dead (hwf : WellFormed s) (hc : Closing s) (hactive : s.jobActive = true)
    (hpc : s.pc = .dead)
    (hcause : s.cause = none ∨ (s.cause = some .failed ∧ ∃ w ∈ s.workers, w.pc = .raised))
    (hdead : (∃ w ∈ s.workers, w.pc = .raised) ∨ 32 < cfg.cidrPrefixLength.toInt) :
    Accounted cfg s where
  wellFormed := hwf
  closing := hc
  active := hactive
  cause := hcause
  fresh h := nomatch hpc.symm.trans h
  ledger _ h := absurd hpc h
  finished _ _ h := absurd hpc h
  dead _ := hdead
  arp _ h := nomatch hpc.symm.trans h

/-- Behind the workers the scan has not failed, and the ledger stands. -/
theorem Accounted.finished_ledger (ha : Accounted cfg s) (hcreated : s.pc ≠ .created)
    (hjoining : s.pc ≠ .joining) (hdead : s.pc ≠ .dead) : s.cause = none ∧ Ledger cfg s :=
  have hnone := ha.finished hcreated hjoining hdead
  ⟨hnone, ha.ledger hcreated hdead hnone⟩

/-- A step that raises leaves the worker raised. -/
theorem WorkerStep.pc_of_raises {isActive : Bool} {w w' : Worker} {effect : Effect}
    (h : WorkerStep cfg isActive w w' effect) (hr : effect.raises = true) : w'.pc = .raised := by
  cases h with
  | raiseAddress | raiseProbe => rfl
  | _ => exact nomatch hr

/-- A step of a worker keeps the books, also when it raises. -/
theorem accounted_advance (ha : Accounted cfg s) {k : Nat} {w w' : Worker} {effect : Effect}
    (hwf : WellFormed (s.advance k w' effect)) (hc : Closing (s.advance k w' effect))
    (hk : s.workers[k]? = some w) (hw : WorkerStep cfg s.isActive w w' effect) :
    Accounted cfg (s.advance k w' effect) := by
  have hpc : s.pc = .joining :=
    ha.wellFormed.joining_of_mem (List.mem_of_getElem? hk) hw.isOver_eq_false
  have hcause : (s.advance k w' effect).cause =
      if effect.raises then s.cause.or (some .failed) else s.cause := rfl
  cases hr : effect.raises with
  | true =>
    -- the first worker that raises cancels the scope, later ones change nothing
    have hfailed : (s.advance k w' effect).cause = some .failed := by
      rw [hcause, hr, if_pos rfl]
      rcases ha.cause with h | ⟨h, _⟩ <;> rw [h] <;> rfl
    have hraised : ∃ v ∈ s.workers.set k w', v.pc = .raised :=
      ⟨w', List.mem_set (List.getElem?_eq_some_iff.mp hk).1 _, hw.pc_of_raises hr⟩
    refine .of_joining hwf hc ha.active hpc (.inr ⟨hfailed, hraised⟩) fun hnone => ?_
    exact nomatch hfailed.symm.trans hnone
  | false =>
    have hsame : (s.advance k w' effect).cause = s.cause := by rw [hcause, hr, if_neg nofun]
    refine .of_joining hwf hc ha.active hpc ?_ fun hnone => ?_
    · rw [hsame]
      rcases ha.cause with h | ⟨h, v, hv, hraised⟩
      · exact .inl h
      · refine .inr ⟨h, v, List.mem_set_of_mem_of_ne hk hv ?_, hraised⟩
        rintro rfl
        have hover := hw.isOver_eq_false
        rw [Worker.isOver, hraised] at hover
        exact nomatch hover
    · rw [hsame] at hnone
      have hactive : s.isActive = true := by rw [State.isActive, hnone]; rfl
      rw [hactive] at hw
      exact ledger_advance (ha.ledger (by rw [hpc]; nofun) (by rw [hpc]; nofun) hnone) hk hw hr

/-- A name that is found keeps it. -/
theorem accounted_processHost (ha : Accounted cfg s) {k : Nat} {host : Host} {rest : List Int}
    {hostname : Option String} {s' : State}
    (hs' : s' = s.advance k ⟨.resolved { host with hostname := hostname }, rest⟩ {})
    (hwf : WellFormed s') (hc : Closing s') (hk : s.workers[k]? = some ⟨.resolving host, rest⟩) :
    Accounted cfg s' := by
  subst hs'
  have hpc : s.pc = .joining := ha.wellFormed.joining_of_mem (List.mem_of_getElem? hk) rfl
  refine .of_joining hwf hc ha.active hpc ?_ fun hnone => ?_
  -- A worker that raised is another one: this one goes on with its host.
  · rcases ha.cause with h | ⟨h, v, hv, hraised⟩
    · exact .inl h
    · refine .inr ⟨h, v, List.mem_set_of_mem_of_ne hk hv ?_, hraised⟩
      rintro rfl
      exact nomatch hraised
  · exact ledger_processHost (ha.ledger (by rw [hpc]; nofun) (by rw [hpc]; nofun) hnone) hk

/-- Every step of an undisturbed scan keeps it. -/
theorem accounted_step (hlo : -32768 ≤ cfg.cidrPrefixLength.toInt)
    (hhi : cfg.cidrPrefixLength.toInt ≤ 32767) (ha : Accounted cfg s) (hu : Undisturbed s l)
    (h : Transition cfg s l s') : Accounted cfg s' := by
  have hwf := wellFormed_step ha.wellFormed h
  have hc := closing_step ha.wellFormed hu ha.closing h
  have hactive := ha.active
  cases h with
  | launch hpc _ hsize =>
    rw [toInt_scanThreads hlo hhi] at hsize
    obtain ⟨hcause, hhandled, hprobed, hlooper⟩ := ha.fresh hpc
    exact .of_joining hwf hc hactive rfl (.inl hcause) fun _ =>
      ledger_launch hlo (by omega) hhandled hprobed hlooper
  | launchDead hpc hdead =>
    refine .of_dead hwf hc hactive rfl (.inl (ha.fresh hpc).1) (.inr ?_)
    rcases hdead with hdead | hsize
    · rw [hactive] at hdead
      cases hdead
    · rw [toInt_scanThreads hlo hhi] at hsize
      omega
  | worker hk hw => exact accounted_advance ha hwf hc hk hw
  | processHost hk => exact accounted_processHost ha rfl hwf hc hk
  | joined hpc _ _ hcause =>
    have hnone : s.cause = none := by
      -- an undisturbed scan is not cancelled by the timeout
      apply hcause.resolve_right
      intro htimeout
      rcases ha.cause with h | ⟨h, _⟩ <;> cases h.symm.trans htimeout
    have hledger := ha.ledger (by simp [hpc]) (by simp [hpc]) hnone
    refine .of_finished hwf hc hactive ?_ ?_ hnone (hledger.congr rfl rfl rfl fun _ => rfl) ?_
    · simp only [afterScan]; split <;> simp
    · simp only [afterScan]; split <;> simp
    · intro tasks htasks
      simp only [afterScan] at htasks
      split at htasks
      · assumption
      · cases htasks
  | joinedDead hpc _ hdead =>
    -- a scope is left with an exception only if a worker has raised
    refine .of_dead hwf hc hactive rfl ha.cause (.inl ?_)
    rcases hdead with h | h | h
    · exact h
    · rcases ha.cause with h' | ⟨h', _⟩ <;> cases h'.symm.trans h
    · rcases ha.cause with h' | ⟨_, h'⟩
      · cases h'.symm.trans h
      · exact h'
  | arpDone hpc | lastCheck hpc =>
    obtain ⟨hnone, hledger⟩ := ha.finished_ledger (by simp [hpc]) (by simp [hpc])
      (by simp [hpc])
    exact .of_finished hwf hc hactive (by simp) (by simp) hnone
      (hledger.congr rfl rfl rfl fun _ => rfl)
      (by simp)
  | postNull hpc =>
    obtain ⟨hnone, hledger⟩ := ha.finished_ledger (by simp [hpc]) (by simp [hpc])
      (by simp [hpc])
    have hhosts : hostsOf (s.looper.post .null).all = hostsOf s.looper.all := by
      rw [Fifo.all_post, hostsOf_append]
      exact List.append_nil _
    exact .of_finished hwf hc hactive (by simp) (by simp) hnone
      (hledger.congr rfl rfl rfl fun _ => hhosts) (by simp)
  | arp hpc | arpPost hpc | arpProcessHost hpc =>
    obtain ⟨hnone, hledger⟩ := ha.finished_ledger (by simp [hpc]) (by simp [hpc])
      (by simp [hpc])
    -- below API 33 the ledger does not follow the hosts
    have hsdk := ha.arp _ hpc
    exact .of_finished hwf hc hactive (by simp) (by simp) hnone
      (hledger.congr rfl rfl rfl fun h => absurd hsdk (Nat.not_lt.mpr h)) fun _ _ => hsdk
  | arpDead _ _ hdead | lastCheckDead _ hdead =>
    rw [hactive] at hdead
    cases hdead
  | deliver hdeliver =>
    have hall := Fifo.all_of_deliver hdeliver
    refine ⟨hwf, hc, hactive, ha.cause, fun hpc => ?_, fun hcreated hdead hnone => ?_,
      ha.finished, ha.dead, ha.arp⟩
    · obtain ⟨hcause, hhandled, hprobed, hlooper⟩ := ha.fresh hpc
      exact ⟨hcause, hhandled, hprobed, hall.trans hlooper⟩
    · have hhosts := congrArg hostsOf hall
      exact (ha.ledger hcreated hdead hnone).congr rfl rfl rfl fun _ => hhosts
  | timeout => exact absurd rfl hu.1
  | stopCancel | stopAgain => exact absurd rfl hu.2.1
  | stopPost => exact absurd rfl hu.2.2

/-- The books balance in every state that an undisturbed scan reaches. -/
theorem accounted_of_run (hlo : -32768 ≤ cfg.cidrPrefixLength.toInt)
    (hhi : cfg.cidrPrefixLength.toInt ≤ 32767) {ls : List Label}
    (h : (undisturbed cfg).run init ls = some s) : Accounted cfg s := by
  refine (undisturbed cfg).run_invariant (Accounted cfg) ?_ (accounted_init cfg) h
  intro t l t' ha hs
  obtain ⟨hu, ht⟩ := transition_of_undisturbed hs
  exact accounted_step hlo hhi ha hu ht

/-! ## Completed scans -/

/-- The scan has handled and probed every address once, no probe raised, and what
    it delivered is the hosts found, with the null behind them. -/
structure Covered (cfg : Config) (s : State) : Prop where
  launched : cfg.cidrPrefixLength.toInt ≤ 32
  handled : s.handled.Perm (scanAddresses cfg.ipv4 cfg.cidrPrefixLength)
  fourBytes : ∀ x ∈ s.handled, HasFourBytes x
  probed : s.probed = s.handled.map inetAddress
  outcomes : tiramisu ≤ cfg.sdkInt → ∀ x ∈ s.handled, cfg.probe (inetAddress x) ≠ .ioException
  delivered : s.looper.delivered = (hostsOf s.looper.delivered).map .host ++ [.null]
  hosts : tiramisu ≤ cfg.sdkInt →
    ((hostsOf s.looper.delivered).map Host.ip).Perm (reachableHosts cfg s.handled)

/-- A worker that is over and has not raised has nothing left to do. -/
theorem Ledger.done_of_isOver (hl : Ledger cfg s) {w : Worker} (hw : w ∈ s.workers)
    (hover : w.isOver = true) : w = ⟨.done, []⟩ := by
  have hraised := hl.well w hw
  have hrest := hl.finished w hw
  obtain ⟨pc, rest⟩ := w
  cases pc with
  | done => rw [Worker.mk.injEq]; exact ⟨rfl, hrest rfl⟩
  | raised => exact absurd rfl hraised
  | _ => exact nomatch hover

/-- When the workers are over the ledger has nothing left open. -/
theorem Ledger.covered (hl : Ledger cfg s) (hover : ∀ w ∈ s.workers, w.isOver = true)
    (hclosing : Closing s) (hended : s.pc = .ended) (hqueue : s.looper.queue = []) :
    Covered cfg s := by
  have hdone : ∀ w ∈ s.workers, w = ⟨.done, []⟩ := fun w hw => hl.done_of_isOver hw (hover w hw)
  have hremaining : s.workers.flatMap (Worker.remaining cfg) = [] := by
    rw [List.flatMap_eq_nil_iff]
    intro w hw
    rw [hdone w hw]
    rfl
  have hinFlight : s.workers.flatMap (Worker.inFlight cfg) = [] := by
    rw [List.flatMap_eq_nil_iff]
    intro w hw
    rw [hdone w hw]
    rfl
  have haddresses := hl.addresses
  have hhosts := hl.hosts
  rw [hremaining, List.append_nil] at haddresses
  rw [hinFlight, List.append_nil] at hhosts
  rw [Closing, if_pos hended] at hclosing
  rw [← Fifo.delivered_eq_all hqueue] at hclosing hhosts
  refine ⟨hl.launched, haddresses, hl.fourBytes, hl.probed, fun hsdk x hx hio => ?_, hclosing,
    hhosts⟩
  -- a probe that raises would keep its worker probing
  have hprobed : inetAddress x ∈ s.probed := by
    rw [hl.probed]
    exact List.mem_map_of_mem hx
  obtain ⟨w, hw, hprobing⟩ := hl.outcomes hsdk _ hprobed hio
  rw [hdone w hw] at hprobing
  exact nomatch hprobing

/-- A completed run has covered the scan, unless the job died: of an exception in
    a worker, or because the prefix is too long to start any. -/
theorem covered_or_dead (hlo : -32768 ≤ cfg.cidrPrefixLength.toInt)
    (hhi : cfg.cidrPrefixLength.toInt ≤ 32767) {ls : List Label}
    (h : (undisturbed cfg).run init ls = some s) (hterm : (undisturbed cfg).Terminal s) :
    Covered cfg s ∨ (.null ∉ s.looper.delivered ∧
      ((∃ w ∈ s.workers, w.pc = .raised) ∨ 32 < cfg.cidrPrefixLength.toInt)) := by
  have ha := accounted_of_run hlo hhi h
  obtain ⟨hpc, hqueue⟩ := completed_of_terminal hterm
  rcases hpc with hpc | hpc
  · left
    obtain ⟨_, hledger⟩ := ha.finished_ledger (by rw [hpc]; nofun) (by rw [hpc]; nofun)
      (by rw [hpc]; nofun)
    exact hledger.covered (isOver_of_terminal hterm) ha.closing hpc hqueue
  · right
    refine ⟨fun hnull => ?_, ha.dead hpc⟩
    -- a job that died has posted hosts only
    have hc := ha.closing
    rw [Closing, if_neg (by rw [hpc]; nofun), List.append_nil, ← Fifo.delivered_eq_all hqueue] at hc
    rw [hc, List.mem_map] at hnull
    obtain ⟨_, _, heq⟩ := hnull
    exact nomatch heq

end LanScan.Android.Scanner
