import LanScan.Spec.Android.ArpRoundTrip
import LanScan.Spec.Android.ScannerOrder
import LanScan.Spec.Android.ScannerTermination
import LanScan.Spec.Android.SubnetCorrect
import LanScan.Spec.Events

/-!
# Where the hosts below API 33 come from (Android)

Below API 33 the probes only fill the neighbour table, and every host is posted by
`handleArpTable`.  Nothing connects the hosts with the addresses that were probed: what is
posted is the table as the parser reads it, with entries of all interfaces and of both
protocols.

## Key results

- `hosts_step`: what is posted and what is still to be posted make up the table
- `ips_subperm_of_run`: no host is posted that the table does not have, and none twice
- `exists_run_ips_perm`: a run that posts the whole table
- `ips_in_subnet_iff`: for which tables the hosts are distinct addresses of the subnet
-/

namespace LanScan.Android.Scanner

open scoped List

variable {cfg : Config} {s s' : State} {l : Label}

/-! ## Workers below API 33 -/

/-- A worker that is not about to post a host. -/
def Worker.Quiet (w : Worker) : Prop :=
  match w.pc with
  | .resolving _ | .resolved _ | .posting _ => False
  | .atHead | .checked _ | .probing _ | .done | .raised => True

/-- Below API 33 the result of a probe is not used. -/
theorem WorkerStep.quiet {isActive : Bool} {w w' : Worker} {effect : Effect}
    (h : WorkerStep cfg isActive w w' effect) (hsdk : cfg.sdkInt < tiramisu) (hw : w.Quiet) :
    w'.Quiet ∧ effect.posted = none := by
  cases h with
  | reachable hsdk' => omega
  | pass | drop | post => exact absurd hw (by simp [Worker.Quiet])
  | _ => simp [Worker.Quiet]

/-- Workers start quiet. -/
theorem quiet_launchWorkers (cfg : Config) : ∀ w ∈ launchWorkers cfg, w.Quiet := by
  intro w hw
  obtain ⟨k, -, rfl⟩ := List.mem_map.mp hw
  exact trivial

/-- Below API 33 no worker ever posts a host. -/
theorem quiet_step (hsdk : cfg.sdkInt < tiramisu) (hquiet : ∀ w ∈ s.workers, w.Quiet)
    (h : Transition cfg s l s') : ∀ w ∈ s'.workers, w.Quiet := by
  cases h with
  | launch => exact quiet_launchWorkers cfg
  | worker hk hw =>
    exact List.forall_mem_set hquiet (hw.quiet hsdk (hquiet _ (List.mem_of_getElem? hk))).1
  | processHost hk => exact absurd (hquiet _ (List.mem_of_getElem? hk)) (by simp [Worker.Quiet])
  | _ => exact hquiet

/-! ## The ledger of the table -/

/-- The `ip` values of the hosts posted so far. -/
def State.ips (s : State) : List String := (hostsOf s.looper.all).map Host.ip

/-- The names that the calls of `processHost` in `handleArpTable` return from this step on, when
    `names` are those that they return after it. -/
def Label.foundNames (names : Nat → Option String) : Label → Nat → Option String
  | .arpProcessHost k hostname => fun i => if i = k then hostname else names i
  | _ => names

/-- The names that the calls of `processHost` in `handleArpTable` return in a run, one for each
    host of the table. -/
def foundNames : List Label → Nat → Option String
  | [] => fun _ => none
  | l :: ls => l.foundNames (foundNames ls)

/-- Each host of a table with the name that was found for it. -/
def withNames (names : Nat → Option String) (hosts : List Host) : List Host :=
  hosts.mapIdx fun k host => { host with hostname := names k }

/-- The host that `async` block `k` has yet to post. -/
def ArpTask.pending (names : Nat → Option String) (k : Nat) : ArpTask → List Host
  | .ready host | .resolving host => [{ host with hostname := names k }]
  | .posting host => [host]
  | .done => []

/-- The hosts of the table that have yet to be posted. -/
def State.pending (cfg : Config) (names : Nat → Option String) (s : State) : List Host :=
  match s.pc with
  | .created | .joining => withNames names cfg.arpTable
  | .arp tasks => (tasks.mapIdx (ArpTask.pending names)).flatten
  | .lastCheck | .postingNull | .ended | .dead => []

/-- Names do not change the addresses. -/
theorem map_ip_withNames (names : Nat → Option String) (hosts : List Host) :
    (withNames names hosts).map Host.ip = hosts.map Host.ip := by
  refine List.ext_getElem? fun k => ?_
  rw [List.getElem?_map, withNames, List.getElem?_mapIdx, List.getElem?_map, Option.map_map]
  rfl

/-- Before the first step of the tasks all hosts are pending. -/
theorem flatten_pending_ready (names : Nat → Option String) (hosts : List Host) :
    ((hosts.map ArpTask.ready).mapIdx (ArpTask.pending names)).flatten =
      withNames names hosts := by
  have hsingle : (hosts.map ArpTask.ready).mapIdx (ArpTask.pending names) =
      (withNames names hosts).map ([·]) := by
    refine List.ext_getElem? fun k => ?_
    rw [List.getElem?_mapIdx, List.getElem?_map, List.getElem?_map, withNames,
      List.getElem?_mapIdx, Option.map_map, Option.map_map]
    rfl
  rw [hsingle, ← List.flatMap_def, List.flatMap_singleton']

/-- When all tasks are done no host is pending. -/
theorem flatten_pending_done {names : Nat → Option String} {tasks : List ArpTask}
    (h : ∀ task ∈ tasks, task = .done) :
    (tasks.mapIdx (ArpTask.pending names)).flatten = [] := by
  rw [List.flatten_eq_nil_iff]
  intro hosts hhosts
  obtain ⟨k, hk, rfl⟩ := List.mem_mapIdx.mp hhosts
  rw [h _ (List.getElem_mem hk)]
  rfl

/-- A block that has been told a name is about to post the host with it. -/
theorem mapIdx_pending_posting {tasks : List ArpTask} {k : Nat} {host : Host}
    (hk : tasks[k]? = some (.resolving host)) (names : Nat → Option String)
    (hostname : Option String) :
    (tasks.set k (.posting { host with hostname := hostname })).mapIdx (ArpTask.pending names) =
      tasks.mapIdx (ArpTask.pending ((Label.arpProcessHost k hostname).foundNames names)) := by
  refine List.ext_getElem? fun i => ?_
  rw [List.getElem?_mapIdx, List.getElem?_mapIdx]
  -- the task itself holds the name now, which the label gave it before
  by_cases hi : k = i
  · subst hi
    rw [List.getElem?_set_self (List.getElem?_eq_some_iff.mp hk).1, hk]
    simp [ArpTask.pending, Label.foundNames]
  · rw [List.getElem?_set_ne hi]
    -- the other tasks keep their names
    cases htask : tasks[i]? with
    | none => rfl
    | some task => cases task <;> simp [ArpTask.pending, Label.foundNames, Ne.symm hi]

/-- A step leaves what is posted or yet to be posted as it is, unless a cancelled job
    drops some of it. -/
theorem hosts_step (hsdk : cfg.sdkInt < tiramisu) (hquiet : ∀ w ∈ s.workers, w.Quiet)
    (names : Nat → Option String) (h : Transition cfg s l s') :
    (hostsOf s'.looper.all ++ s'.pending cfg names).Perm
        (hostsOf s.looper.all ++ s.pending cfg (l.foundNames names)) ∨
      (s.jobActive = false ∨ s'.pc = .dead) ∧
        (hostsOf s'.looper.all ++ s'.pending cfg names).Subperm
          (hostsOf s.looper.all ++ s.pending cfg (l.foundNames names)) := by
  cases h with
  | launch hpc => left; simp [State.pending, hpc, Label.foundNames]
  | launchDead | joinedDead | arpDead | lastCheckDead =>
    refine .inr ⟨.inr rfl, ?_⟩
    simp only [State.pending, List.append_nil]
    exact (List.sublist_append_left _ _).subperm
  | worker hk hw =>
    left
    have hposted := (hw.quiet hsdk (hquiet _ (List.mem_of_getElem? hk))).2
    simp [State.pending, State.advance, hposted, Label.foundNames]
  | processHost hk => exact absurd (hquiet _ (List.mem_of_getElem? hk)) (by simp [Worker.Quiet])
  | timeout | stopCancel | stopAgain => exact .inl (List.Perm.refl _)
  | joined hpc =>
    left
    simp [State.pending, hpc, afterScan, hsdk, flatten_pending_ready, Label.foundNames]
  | arpDone hpc hdone =>
    left
    simp [State.pending, hpc, flatten_pending_done hdone]
  | lastCheck hpc => left; simp [State.pending, hpc]
  | postNull hpc => left; simp [State.pending, hpc, hostsOf]
  | stopPost => left; simp [State.pending, hostsOf, Label.foundNames]
  | deliver hdeliver =>
    left; simp [State.pending, Fifo.all_of_deliver hdeliver, Label.foundNames]
  | arp hpc hk htask =>
    simp only [State.pending, hpc]
    cases htask with
    | @check host =>
      have hperm := List.flatten_mapIdx_set_perm (ArpTask.pending names) (.resolving host) hk
        (List.nil_append _)
      exact .inl (hperm.append_left _)
    | @skip host hactive =>
      -- the host is neither posted nor yet to be posted
      refine .inr ⟨.inl hactive, (List.subperm_append_left _).mpr ?_⟩
      have hperm := List.flatten_mapIdx_set_perm (ArpTask.pending names) .done hk
        (List.append_nil _)
      exact (List.sublist_append_right _ _).subperm.trans hperm.subperm
  | @arpPost tasks k task task' host hpc hk htask =>
    left
    have hhosts : hostsOf (s.looper.all ++ [.host host]) = hostsOf s.looper.all ++ [host] :=
      hostsOf_append _ _
    simp only [State.pending, hpc, Fifo.all_post, hhosts, List.append_assoc]
    cases htask with
    | post =>
      have hperm := List.flatten_mapIdx_set_perm (ArpTask.pending names) .done hk
        (List.append_nil _)
      exact hperm.append_left _
  | @arpProcessHost tasks k host hostname hpc hk =>
    left
    simp only [State.pending, hpc, mapIdx_pending_posting hk]
    exact .refl _

/-! ## Runs below API 33 -/

/-- What is posted or yet to be posted at the end of a run is some of what was so at its
    start, with the names that the run has found. -/
theorem hosts_subperm_of_run (hsdk : cfg.sdkInt < tiramisu) {ls : List Label}
    (hquiet : ∀ w ∈ s.workers, w.Quiet) (h : (scanner cfg).run s ls = some s') :
    (hostsOf s'.looper.all ++ s'.pending cfg (fun _ => none)).Subperm
      (hostsOf s.looper.all ++ s.pending cfg (foundNames ls)) := by
  induction ls generalizing s with
  | nil => cases h; exact List.Subperm.refl _
  | cons l ls ih =>
    obtain ⟨t, hstep, hrun⟩ := (scanner cfg).run_cons_eq_some.mp h
    have ht := transition_of_step hstep
    have hsub := ih (quiet_step hsdk hquiet ht) hrun
    -- Either the step keeps all hosts or it is one that drops pending ones.
    rcases hosts_step hsdk hquiet (foundNames ls) ht with hperm | ⟨-, hdrop⟩
    · exact hsub.trans hperm.subperm
    · exact hsub.trans hdrop

/-- The hosts posted in a run are some of those in the table, none more often than there. -/
theorem ips_subperm_of_run (hsdk : cfg.sdkInt < tiramisu) {ls : List Label}
    (h : (scanner cfg).run init ls = some s) : s.ips.Subperm (cfg.arpTable.map Host.ip) := by
  have hsub : (hostsOf s.looper.all).Subperm (withNames (foundNames ls) cfg.arpTable) :=
    (List.sublist_append_left _ _).subperm.trans (hosts_subperm_of_run hsdk (by simp [init]) h)
  obtain ⟨hosts, hperm, hsublist⟩ := hsub
  rw [← map_ip_withNames (foundNames ls)]
  exact ⟨hosts.map Host.ip, hperm.map _, hsublist.map _⟩

/-- The job is neither cancelled nor dead. -/
def State.GoesOn (s : State) : Prop := s.jobActive = true ∧ s.pc ≠ .dead

/-- A job that goes on after a step did so before it. -/
theorem goesOn_of_step (h : Transition cfg s l s') (hgoes : s'.GoesOn) : s.GoesOn := by
  obtain ⟨hactive, hpc⟩ := hgoes
  cases h with
  | launchDead | joinedDead | arpDead | lastCheckDead => exact absurd rfl hpc
  | stopCancel => cases hactive
  | launch hs | joined hs | arpDone hs | lastCheck hs | postNull hs | arp hs | arpPost hs
  | arpProcessHost hs => exact ⟨hactive, by simp [hs]⟩
  | worker | processHost | timeout | stopAgain | stopPost | deliver => exact ⟨hactive, hpc⟩

/-- If the job goes on to the end of a run, the run has dropped no host. -/
theorem hosts_perm_of_run (hsdk : cfg.sdkInt < tiramisu) {ls : List Label}
    (hquiet : ∀ w ∈ s.workers, w.Quiet) (h : (scanner cfg).run s ls = some s')
    (hgoes : s'.GoesOn) :
    s.GoesOn ∧ (hostsOf s'.looper.all ++ s'.pending cfg (fun _ => none)).Perm
      (hostsOf s.looper.all ++ s.pending cfg (foundNames ls)) := by
  induction ls generalizing s with
  | nil => cases h; exact ⟨hgoes, List.Perm.refl _⟩
  | cons l ls ih =>
    obtain ⟨t, hstep, hrun⟩ := (scanner cfg).run_cons_eq_some.mp h
    have ht := transition_of_step hstep
    obtain ⟨htgoes, hperm⟩ := ih (quiet_step hsdk hquiet ht) hrun
    have hsgoes := goesOn_of_step ht htgoes
    refine ⟨hsgoes, ?_⟩
    -- no step of a run that goes on drops a host
    rcases hosts_step hsdk hquiet (foundNames ls) ht with hkept | ⟨hdropped | hdead, -⟩
    · exact hperm.trans hkept
    · rw [hsgoes.1] at hdropped
      cases hdropped
    · exact absurd hdead htgoes.2

/-- A job that has ended, and was not cancelled, has posted the table. -/
theorem hosts_perm_of_ended (hsdk : cfg.sdkInt < tiramisu) {ls : List Label}
    (h : (scanner cfg).run init ls = some s) (hactive : s.jobActive = true)
    (hended : s.pc = .ended) :
    (hostsOf s.looper.all).Perm (withNames (foundNames ls) cfg.arpTable) := by
  have hgoes : s.GoesOn := ⟨hactive, by simp [hended]⟩
  obtain ⟨-, hperm⟩ := hosts_perm_of_run hsdk (by simp [init]) h hgoes
  rwa [State.pending, hended, List.append_nil] at hperm

/-- The five minutes are over before a worker has probed anything, and the job goes on. -/
structure TimedOut (s : State) : Prop where
  workers : ∀ w ∈ s.workers, w.pc = .atHead ∨ w.pc = .done
  cause : s.cause = some .timedOut
  jobActive : s.jobActive = true
  pc : s.pc ≠ .created ∧ s.pc ≠ .dead

/-- A worker that finds the scope cancelled leaves its loop. -/
theorem WorkerStep.of_not_active {w w' : Worker} {effect : Effect}
    (h : WorkerStep cfg false w w' effect) (hw : w.pc = .atHead ∨ w.pc = .done) :
    w'.pc = .done ∧ effect.raises = false := by
  cases h with
  | leave | stop => exact ⟨rfl, rfl⟩
  | _ => simp_all

/-- The scan that has run out of time stays so. -/
theorem timedOut_step (hsdk : cfg.sdkInt < tiramisu) (ht : TimedOut s) (hl : Undisturbed s l)
    (h : Transition cfg s l s') : TimedOut s' := by
  have ⟨hworkers, hcause, hactive, hpc⟩ := ht
  have hinactive : s.isActive = false := by simp [State.isActive, hcause]
  cases h with
  | launch hcreated | launchDead hcreated => exact absurd hcreated hpc.1
  | worker hk hw =>
    rw [hinactive] at hw
    obtain ⟨hdone, hraises⟩ := hw.of_not_active (hworkers _ (List.mem_of_getElem? hk))
    exact ⟨List.forall_mem_set hworkers (.inr hdone), by simp [State.advance, hraises, hcause],
      hactive, hpc⟩
  | processHost hk => exact absurd (hworkers _ (List.mem_of_getElem? hk)) (by simp)
  | timeout _ hnone => simp [hcause] at hnone
  | joined => exact ⟨hworkers, hcause, hactive, by simp [afterScan, hsdk]⟩
  | joinedDead _ _ hdead =>
    -- no worker has raised, and the timeout does not end the job
    rcases hdead with ⟨w, hw, hraised⟩ | hother | hother
    · rcases hworkers w hw with hwpc | hwpc <;> simp [hwpc] at hraised
    · simp [hcause] at hother
    · simp [hcause] at hother
  | arpDead _ _ hstopped | lastCheckDead _ hstopped => simp [hactive] at hstopped
  | arpDone | lastCheck | postNull | arp | arpPost | arpProcessHost =>
    exact ⟨hworkers, hcause, hactive, by simp⟩
  | deliver => exact ⟨hworkers, hcause, hactive, hpc⟩
  | stopCancel | stopAgain => exact absurd rfl hl.2.1
  | stopPost => exact absurd rfl hl.2.2

/-- After a timeout at the start, a job that is left alone posts the whole table. -/
theorem exists_run_ips_perm (hsdk : cfg.sdkInt < tiramisu)
    (hlo : -32768 ≤ cfg.cidrPrefixLength.toInt) (hhi : cfg.cidrPrefixLength.toInt ≤ 32) :
    ∃ ls s, (scanner cfg).run init ls = some s ∧ s.ips.Perm (cfg.arpTable.map Host.ip) := by
  have hsize : 0 ≤ (scanThreads cfg.cidrPrefixLength).toInt := by
    rw [toInt_scanThreads hlo (by omega)]
    omega
  let t : State :=
    { init with pc := .joining, workers := launchWorkers cfg, cause := some .timedOut }
  -- the five minutes run out before the first probe
  have hstart : (scanner cfg).run init [.launch, .timeout] = some t := by
    simp [Lts.run, scanner, step, stepLaunch, init, hsize, t]
  have ht : TimedOut t := by
    refine ⟨?_, rfl, rfl, by simp [t]⟩
    intro w hw
    obtain ⟨k, -, rfl⟩ := List.mem_map.mp hw
    exact .inl rfl
  -- from there the scan is run to its end
  obtain ⟨ls, s, hrun, hterm⟩ := exists_completed_run cfg t
  have hs : TimedOut s := by
    refine (undisturbed cfg).run_invariant TimedOut ?_ ht hrun
    intro u l u' hu hstep
    obtain ⟨hl, hstep⟩ := transition_of_undisturbed hstep
    exact timedOut_step hsdk hu hl hstep
  have hended : s.pc = .ended := (completed_of_terminal hterm).1.resolve_right hs.pc.2
  have hwhole : (scanner cfg).run init ([.launch, .timeout] ++ ls) = some s := by
    rw [Lts.run_append, hstart]
    exact run_of_undisturbed hrun
  -- at its end all hosts of the table have been posted
  have hperm := (hosts_perm_of_ended hsdk hwhole hs.jobActive hended).map Host.ip
  rw [map_ip_withNames] at hperm
  exact ⟨_, s, hwhole, hperm⟩

/-! ## The subnet -/

/-- The `ip` values are distinct, and each names an address that `startScanning`
    enumerates. -/
def InSubnet (cfg : Config) (getByName : List Char → Option InetAddress) (ips : List String) :
    Prop :=
  ips.Nodup ∧ ∀ ip ∈ ips, ∃ x ∈ scanAddresses cfg.ipv4 cfg.cidrPrefixLength,
    getByName ip.toList = some (inetAddress x)

instance (cfg : Config) (getByName : List Char → Option InetAddress) (ips : List String) :
    Decidable (InSubnet cfg getByName ips) :=
  inferInstanceAs (Decidable (_ ∧ _))

/-- **Hosts of the subnet.** Below API 33, for a prefix of 4 to 32 bits and every content of
    the neighbour table, the hosts posted in a run are distinct addresses of the subnet, in
    every run, if and only if no two listed entries of the table are printed alike and the
    address of each belongs to the subnet. -/
theorem ips_in_subnet_iff (cfg : Config) (hsdk : cfg.sdkInt < tiramisu)
    (hlo : 4 ≤ cfg.cidrPrefixLength.toInt) (hhi : cfg.cidrPrefixLength.toInt ≤ 32)
    {env : NeighEnv} (entries : List (NeighEntry env))
    (getByName : List Char → Option InetAddress) (hnum : ∀ e ∈ entries, e.IsNumeric getByName)
    (htable : cfg.arpTable = parseAndExtractValidArpFromInputStream getByName 0
      (doShowOrFlush env (entries.map NeighEntry.msg))) :
    (∀ (ls : List Label) (s : State), (scanner cfg).run init ls = some s →
      InSubnet cfg getByName s.ips) ↔
    ((entries.filter NeighEntry.isListed).map NeighEntry.ip).Nodup ∧
      ∀ e ∈ entries, e.isListed = true →
        ∃ x ∈ scanAddresses cfg.ipv4 cfg.cidrPrefixLength, e.address = inetAddress x := by
  have hips : cfg.arpTable.map Host.ip =
      ((entries.filter NeighEntry.isListed).map NeighEntry.ip).map String.ofList := by
    rw [htable, NeighEntry.parse_table entries hnum, NeighEntry.map_ip_filterMap_host]
  constructor
  · intro h
    -- a run that posts the whole table shows that its entries lie in the subnet
    obtain ⟨ls, s, hrun, hperm⟩ := exists_run_ips_perm hsdk (by omega) hhi
    obtain ⟨hnodup, hmem⟩ := h ls s hrun
    rw [hips] at hperm
    refine ⟨(hperm.nodup_iff.mp hnodup).of_map _, ?_⟩
    intro e he hlisted
    have hposted : String.ofList e.ip ∈ s.ips :=
      hperm.mem_iff.mpr (List.mem_map_of_mem (List.mem_map_of_mem
        (List.mem_filter.mpr ⟨he, hlisted⟩)))
    obtain ⟨x, hx, hname⟩ := hmem _ hposted
    rw [String.toList_ofList, (hnum e he).getByName_ip] at hname
    exact ⟨x, hx, Option.some.inj hname⟩
  · rintro ⟨hnodup, hmem⟩ ls s hrun
    -- any run posts some of the entries
    have hsub := ips_subperm_of_run hsdk hrun
    rw [hips] at hsub
    constructor
    · obtain ⟨posted, hperm, hsublist⟩ := hsub
      exact hperm.nodup_iff.mp
        (hsublist.nodup (hnodup.map fun _ _ heq => String.ofList_injective heq))
    · intro ip hip
      obtain ⟨text, htext, rfl⟩ := List.mem_map.mp (hsub.subset hip)
      obtain ⟨e, he, rfl⟩ := List.mem_map.mp htext
      obtain ⟨he, hlisted⟩ := List.mem_filter.mp he
      obtain ⟨x, hx, haddress⟩ := hmem e he hlisted
      rw [String.toList_ofList, (hnum e he).getByName_ip, haddress]
      exact ⟨x, hx, rfl⟩

/-- Android 11 in 192.168.1.0/30, with a neighbour table that is read as these hosts. -/
def tableConfig (arpTable : List Host) : Config where
  sdkInt := 30
  ipv4 := -1062731518
  cidrPrefixLength := 30
  probe _ := .failure
  arpTable := arpTable

/-- The router of that network, and a printer that also has an IPv6 address. -/
def neighbours : List (NeighEntry wlanEnv) := (wlanTable.take 2).map Neighbour.toNeighEntry

/-- The numeric names of the two. -/
def numericNames (text : List Char) : Option InetAddress :=
  (neighbours.map NeighEntry.address).find? (·.hostAddress.toList = text)

/-- The names of both are numeric. -/
theorem isNumeric_neighbours : ∀ e ∈ neighbours, e.IsNumeric numericNames :=
  Neighbour.isNumeric_of_mem
    (show ∀ e ∈ wlanTable.take 2, e.IsNumeric numericNames by decide)

/-- The host of the router. -/
def routerHost : Host := { ip := "192.168.1.1", mac := some "a0:0b:cc:01:02:ff" }

/-- The host of the printer. -/
def printerHost : Host := { ip := "2001:db8:1:2:3:4:5:6", mac := some "00:01:02:03:04:05" }

/-- The router and a laptop of 192.168.1.0/29. -/
def insiders : List (Neighbour wlanEnv) :=
  wlanTable.take 1 ++ [wlanLaptop]

/-- `getByName` on the two addresses. -/
def insiderNames (text : List Char) : Option InetAddress :=
  (insiders.map fun e => e.address).find? (·.hostAddress.toList = text)

/-- The scan of their network. -/
def insiderConfig : Config :=
  { tableConfig [routerHost, { ip := "192.168.1.3", mac := some "00:01:02:03:04:09" }] with
    cidrPrefixLength := 29 }

/-- The five minutes are over before the workers start, and the laptop is posted first. -/
def insiderRun : List Label :=
  [.launch, .timeout] ++ (List.range 12).map .worker ++
    [.job, .arp 0, .arp 1, .arpProcessHost 1 none, .arp 1, .arpProcessHost 0 (some "router.lan"),
      .arp 0]

/-- Both are posted, each once and as an address of the subnet. -/
theorem ips_in_subnet_router : ∃ s, (scanner insiderConfig).run init insiderRun = some s ∧
    s.ips = ["192.168.1.3", "192.168.1.1"] ∧ InSubnet insiderConfig insiderNames s.ips := by
  have hnum : ∀ e ∈ insiders.map Neighbour.toNeighEntry, e.IsNumeric insiderNames :=
    Neighbour.isNumeric_of_mem (show ∀ e ∈ insiders, e.IsNumeric insiderNames by decide)
  have hiff := ips_in_subnet_iff insiderConfig (by decide) (by decide) (by decide)
    (insiders.map Neighbour.toNeighEntry) insiderNames hnum
    ((NeighEntry.parse_table _ hnum).trans (by decide)).symm
  -- The run in full: both entries of the subnet are posted, the router last.
  have hrun : ((scanner insiderConfig).run init insiderRun).map State.ips =
    some ["192.168.1.3", "192.168.1.1"] := by decide
  obtain ⟨s, hs, hips⟩ := Option.map_eq_some_iff.mp hrun
  exact ⟨s, hs, hips, hiff.mpr ⟨by decide, by decide⟩ insiderRun s hs⟩

/-- The printer is posted with its IPv6 address, which is none of those that were probed. -/
theorem ips_outside_subnet : ¬ ∀ (cfg : Config), cfg.sdkInt < tiramisu →
    4 ≤ cfg.cidrPrefixLength.toInt → cfg.cidrPrefixLength.toInt ≤ 32 →
    ∀ (env : NeighEnv) (entries : List (NeighEntry env))
      (getByName : List Char → Option InetAddress), (∀ e ∈ entries, e.IsNumeric getByName) →
    cfg.arpTable = parseAndExtractValidArpFromInputStream getByName 0
      (doShowOrFlush env (entries.map NeighEntry.msg)) →
    ∀ (ls : List Label) (s : State), (scanner cfg).run init ls = some s →
      InSubnet cfg getByName s.ips := by
  intro h
  have hrun : ((scanner (tableConfig [routerHost, printerHost])).run init (silentScan ++
      [.arp 0, .arpProcessHost 0 none, .arp 0, .arp 1, .arpProcessHost 1 none, .arp 1])).map
      State.ips = some ["192.168.1.1", "2001:db8:1:2:3:4:5:6"] := by decide
  obtain ⟨s, hs, hips⟩ := Option.map_eq_some_iff.mp hrun
  -- the IPv6 host is posted, and it is none of the enumerated addresses
  have hin := h (tableConfig [routerHost, printerHost]) (by decide) (by decide) (by decide) wlanEnv
    neighbours numericNames isNumeric_neighbours
    ((NeighEntry.parse_table _ isNumeric_neighbours).trans (by decide)).symm _ s hs
  rw [hips] at hin
  exact absurd hin (by decide)

end LanScan.Android.Scanner
