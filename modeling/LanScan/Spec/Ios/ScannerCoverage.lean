import LanScan.Spec.Ios.ScannerOrder
import LanScan.Spec.Ios.ScannerTermination
import LanScan.Spec.Ios.SubnetCorrect

/-!
# Every address once, every host once (iOS)

The ledger of an undisturbed scan: the addresses pinged and those still to come make up
the scan, and the hosts dispatched and those on their way make up the addresses pinged
whose ping succeeds.  When the scan is complete nothing is left to come.

## Key results

- `accounted_of_run`: the ledger balances in every reachable state, and nothing traps
- `covered_of_terminal`: a completed run has nothing left open
-/

namespace LanScan.Ios.Scanner

open scoped List

variable {cfg : Config} {plan : ScanPlan} {s s' : State} {l : Label}

/-! ## The ledger -/

/-- The indices for which a worker has yet to ping the address. -/
def Worker.pending (w : Worker) : List Int :=
  match w.pc with
  | .checked index => index :: w.rest
  | _ => w.rest

/-- The addresses that a worker has yet to ping. -/
def Worker.remaining (plan : ScanPlan) (w : Worker) : List String := w.pending.map plan.address

/-- The host on its way from a worker to the main queue, by its address. -/
def Worker.inFlight (cfg : Config) (w : Worker) : List String :=
  match w.pc with
  | .pinging ipAddress => if cfg.ping ipAddress then [ipAddress] else []
  | .pinged ipAddress pingSuccess => if pingSuccess then [ipAddress] else []
  | .checking ipAddress _ | .inStage ipAddress _ => [ipAddress]
  | .resolved host => [host.ip]
  | .atHead | .checked _ | .done => []

/-- Where a scan stands. -/
structure Ledger (cfg : Config) (plan : ScanPlan) (s : State) : Prop where
  pending : ∀ w ∈ s.workers, ∀ index ∈ w.pending,
    index ∈ List.stride 0 plan.numberOfHosts.toInt 1
  finished : ∀ w ∈ s.workers, w.pc = .done → w.rest = []
  addresses : (s.pings ++ s.workers.flatMap (Worker.remaining plan)).Perm plan.addresses
  hosts : ((hostsOf s.main.all).map Host.ip ++ s.workers.flatMap (Worker.inFlight cfg)).Perm
    (s.pings.filter cfg.ping)

section Worker

variable {view : View} {w w' : Worker} {effect : Effect}

/-- A worker never takes on a new index. -/
theorem WorkerStep.pending_subset (h : WorkerStep cfg plan view w (.next w' effect)) :
    ∀ index ∈ w'.pending, index ∈ w.pending := by
  cases h with
  -- the index that is pinged is pending no more
  | ping => exact fun index hindex => List.mem_cons_of_mem _ hindex
  | _ => exact fun index hindex => hindex

/-- A worker that is not cancelled leaves its loop at the end only. -/
theorem WorkerStep.finished (h : WorkerStep cfg plan view w (.next w' effect))
    (hactive : view.taskCancelled = false) : w'.pc = .done → w'.rest = [] := by
  cases h with
  | leave hrest => exact fun _ => hrest
  | stop hcancelled | stopPinged hcancelled =>
    rw [hactive] at hcancelled
    cases hcancelled
  | _ => nofun

/-- What a worker pings is what it no longer has before it. -/
theorem WorkerStep.remaining_eq (h : WorkerStep cfg plan view w (.next w' effect))
    (hpending : ∀ index ∈ w.pending, plan.ipAddress index = some (plan.address index)) :
    w.remaining plan = effect.pinged.toList ++ w'.remaining plan := by
  cases h with
  | @ping index rest ipAddress haddr =>
    have heq := (hpending index List.mem_cons_self).symm.trans haddr
    rw [← Option.some.inj heq]
    rfl
  | _ => rfl

/-- An address whose ping succeeds is in flight from its ping to its dispatch. -/
theorem WorkerStep.inFlight_eq (h : WorkerStep cfg plan view w (.next w' effect))
    (hactive : view.taskCancelled = false) (hactive' : view.scanCancelled = false) :
    effect.dispatched.toList.map Host.ip ++ w'.inFlight cfg =
      w.inFlight cfg ++ effect.pinged.toList.filter cfg.ping := by
  cases h with
  | @ping index rest ipAddress haddr =>
    simp only [Worker.inFlight, Option.toList, List.map_nil, List.nil_append, List.filter_cons,
      List.filter_nil]
  -- The scan is active, so no worker finds itself cancelled.
  | stopPinged hcancelled =>
    rw [hactive] at hcancelled
    cases hcancelled
  | skipStage hcancelled =>
    rw [hactive'] at hcancelled
    cases hcancelled
  | _ => simp [Worker.inFlight]

/-- With the indices of the plan, nothing traps. -/
theorem WorkerStep.not_trap
    (hpending : ∀ index ∈ w.pending, plan.ipAddress index = some (plan.address index)) :
    ¬ WorkerStep cfg plan view w .trap := by
  intro h
  cases h with
  | @trap index rest haddr =>
    rw [hpending index List.mem_cons_self] at haddr
    cases haddr

/-- The return of a stage moves a host along. -/
theorem StageStep.books (cfg : Config) (h : StageStep w (.next w' effect)) :
    w'.pc ≠ .done ∧ w'.pending = w.pending ∧ w'.inFlight cfg = w.inFlight cfg := by
  cases h <;> exact ⟨nofun, rfl, rfl⟩

end Worker

/-- The hosts dispatched after a step of a worker. -/
theorem hostsOf_main_advance (s : State) (k : Nat) (w : Worker) (effect : Effect) :
    hostsOf (s.advance k w effect).main.all =
      hostsOf s.main.all ++ effect.dispatched.toList := by
  rw [main_all_advance, hostsOf_append]
  cases effect.dispatched <;> rfl

/-- An exchange of worker `k` keeps the ledger when what it has before it and what it has
    in flight are accounted for. -/
theorem Ledger.advance (hl : Ledger cfg plan s) {k : Nat} {w w' : Worker} {effect : Effect}
    (hk : s.workers[k]? = some w) (hpending : ∀ index ∈ w'.pending, index ∈ w.pending)
    (hfinished : w'.pc = .done → w'.rest = [])
    (hremaining : w.remaining plan = effect.pinged.toList ++ w'.remaining plan)
    (hinFlight : effect.dispatched.toList.map Host.ip ++ w'.inFlight cfg =
      w.inFlight cfg ++ effect.pinged.toList.filter cfg.ping) :
    Ledger cfg plan (s.advance k w' effect) := by
  have hmem := List.mem_of_getElem? hk
  constructor
  · exact List.forall_mem_set hl.pending fun index hindex =>
      hl.pending w hmem index (hpending index hindex)
  · exact List.forall_mem_set hl.finished hfinished
  -- the address pinged moves from the worker's remaining ones to `pings`
  · have hperm : (effect.pinged.toList ++ w'.remaining plan).Perm (w.remaining plan ++ []) := by
      rw [List.append_nil, hremaining]
    have hset := List.flatMap_set_perm_of_perm (Worker.remaining plan) hk hperm
    rw [List.append_nil] at hset
    calc (s.pings ++ effect.pinged.toList) ++ (s.workers.set k w').flatMap (Worker.remaining plan)
        = s.pings ++ (effect.pinged.toList ++
            (s.workers.set k w').flatMap (Worker.remaining plan)) := List.append_assoc ..
      _ ~ s.pings ++ s.workers.flatMap (Worker.remaining plan) := hset.append_left _
      _ ~ plan.addresses := hl.addresses
  -- a host dispatched leaves the flight, an address pinged with success enters it
  · have hset := List.flatMap_set_perm_of_perm (Worker.inFlight cfg) hk
      (List.Perm.of_eq hinFlight)
    rw [hostsOf_main_advance, List.map_append, List.append_assoc]
    show List.Perm _ ((s.pings ++ effect.pinged.toList).filter cfg.ping)
    rw [List.filter_append]
    refine (hset.append_left _).trans ?_
    rw [← List.append_assoc]
    exact hl.hosts.append_right _

/-- The ledger is about the workers, the pings and the hosts dispatched. -/
theorem Ledger.congr (hl : Ledger cfg plan s) (hworkers : s'.workers = s.workers)
    (hpings : s'.pings = s.pings) (hhosts : hostsOf s'.main.all = hostsOf s.main.all) :
    Ledger cfg plan s' := by
  constructor
  · rw [hworkers]; exact hl.pending
  · rw [hworkers]; exact hl.finished
  · rw [hworkers, hpings]; exact hl.addresses
  · rw [hworkers, hpings, hhosts]; exact hl.hosts

/-- The ledger that the body opens when it starts the workers. -/
theorem ledger_launch (hipv4 : 0 ≤ cfg.ipv4.toInt ∧ cfg.ipv4.toInt < 2 ^ 32)
    (hcidr : 0 ≤ cfg.cidrPrefixLength.toInt ∧ cfg.cidrPrefixLength.toInt ≤ 32)
    (hplan : scanPlan cfg.ipv4 cfg.cidrPrefixLength = some plan) (hpings : s.pings = [])
    (hmain : s.main.all = []) :
    Ledger cfg plan { s with body := .running plan, workers := launchWorkers plan } := by
  have hperm := flatMap_workerIndices_perm hipv4 hcidr hplan
  -- the stripes of the workers make up the addresses of the plan
  have hpending : (launchWorkers plan).flatMap Worker.pending =
      (List.range plan.concurrentThreads.toInt.toNat).flatMap plan.workerIndices := by
    rw [launchWorkers, List.flatMap_map]
    rfl
  have hremaining : (launchWorkers plan).flatMap (Worker.remaining plan) =
      ((launchWorkers plan).flatMap Worker.pending).map plan.address := by
    rw [List.map_flatMap]
    rfl
  -- and no host is in flight yet
  have hinFlight : (launchWorkers plan).flatMap (Worker.inFlight cfg) = [] := by
    rw [launchWorkers, List.flatMap_map, List.flatMap_eq_nil_iff]
    exact fun _ _ => rfl
  constructor
  · intro w hw index hindex
    rw [← hperm.mem_iff, ← hpending]
    exact List.mem_flatMap.mpr ⟨w, hw, hindex⟩
  · intro w hw hpc
    obtain ⟨k, _, rfl⟩ := List.mem_map.mp hw
    cases hpc
  · show (s.pings ++ (launchWorkers plan).flatMap (Worker.remaining plan)).Perm plan.addresses
    rw [hpings, List.nil_append, hremaining, hpending]
    exact hperm.map _
  · show ((hostsOf s.main.all).map Host.ip ++
      (launchWorkers plan).flatMap (Worker.inFlight cfg)).Perm (s.pings.filter cfg.ping)
    rw [hmain, hpings, hinFlight]
    exact List.Perm.nil

/-! ## The invariant -/

/-- The bookkeeping of an undisturbed scan with the given plan. -/
structure Accounted (cfg : Config) (plan : ScanPlan) (s : State) : Prop where
  wellFormed : WellFormed s
  crashed : s.crashed = false
  cancelled : s.cancelled = false
  fresh : s.body = .created → s.pings = [] ∧ s.main.all = []
  running : ∀ plan', s.body = .running plan' → plan' = plan
  ledger : s.body ≠ .created → Ledger cfg plan s

/-- A scan starts so. -/
theorem accounted_init (cfg : Config) (plan : ScanPlan) : Accounted cfg plan init where
  wellFormed := wellFormed_init
  crashed := rfl
  cancelled := rfl
  fresh _ := ⟨rfl, rfl⟩
  running _ h := nomatch h
  ledger h := absurd rfl h

/-- The books once the body has started. -/
theorem Accounted.of_started (hwf : WellFormed s) (hcrashed : s.crashed = false)
    (hcancelled : s.cancelled = false) (hbody : s.body ≠ .created)
    (hrunning : ∀ plan', s.body = .running plan' → plan' = plan) (hl : Ledger cfg plan s) :
    Accounted cfg plan s where
  wellFormed := hwf
  crashed := hcrashed
  cancelled := hcancelled
  fresh h := absurd h hbody
  running := hrunning
  ledger _ := hl

/-- A resolver whose name can be assigned does not make the scanner trap. -/
theorem crashed_of_stageReturns {k : Nat} {hostname : Option String}
    (hset : didSetHostname hostname ≠ none) (hcrashed : s.crashed = false)
    (h : step cfg s (.stageReturns k hostname) = some s') : s'.crashed = false := by
  simp only [step, hcrashed, stepStageReturns] at h
  cases hk : s.workers[k]? with
  | none => simp [hk] at h
  | some w =>
    obtain ⟨pc, rest⟩ := w
    obtain ⟨hostname', hset'⟩ := Option.ne_none_iff_exists'.mp hset
    simp only [hk] at h
    obtain ⟨outcome, hw, rfl⟩ := Option.map_eq_some_iff.mp h
    cases outcome with
    | next w' effect => exact hcrashed
    -- only the setter traps, and it takes this name
    | trap =>
      simp only [Worker.stageReturns] at hw
      split at hw
      · split at hw
        · cases hw
        · rw [hset'] at hw
          cases hw
      · cases hw

/-- Every step of an undisturbed scan keeps it. -/
theorem accounted_step (hipv4 : 0 ≤ cfg.ipv4.toInt ∧ cfg.ipv4.toInt < 2 ^ 32)
    (hcidr : 0 ≤ cfg.cidrPrefixLength.toInt ∧ cfg.cidrPrefixLength.toInt ≤ 32)
    (hplan : scanPlan cfg.ipv4 cfg.cidrPrefixLength = some plan) (ha : Accounted cfg plan s)
    (hs : (undisturbed cfg).step s l = some s') : Accounted cfg plan s' := by
  obtain ⟨hu, hs⟩ := step_of_undisturbed hs
  obtain ⟨hcrashed, h⟩ := transition_of_step hs
  have hwf := wellFormed_step ha.wellFormed h
  have hcancelled := ha.cancelled
  -- nobody is cancelled, so no check stops a worker
  have htask : s.view.taskCancelled = false := hcancelled
  have hscan : s.view.scanCancelled = false := by
    show (s.scanningTask && s.cancelled) = false
    rw [hcancelled, Bool.and_false]
  cases h with
  | assign =>
    exact ⟨hwf, hcrashed, hcancelled, ha.fresh, ha.running, fun hbody =>
      (ha.ledger hbody).congr rfl rfl rfl⟩
  | start hbody hplan' =>
    obtain rfl := Option.some.inj (hplan.symm.trans hplan')
    obtain ⟨hpings, hmain⟩ := ha.fresh hbody
    refine .of_started hwf hcrashed hcancelled (by simp) ?_
      (ledger_launch hipv4 hcidr hplan hpings hmain)
    intro plan' hplan'
    cases hplan'
    rfl
  | startTrap _ hnone =>
    rw [hplan] at hnone
    cases hnone
  | joined hbody | finalCheck hbody | finalCheckNil hbody | clear hbody =>
    have hl := ha.ledger (by simp [hbody])
    exact .of_started hwf hcrashed hcancelled (by simp) (by simp) (hl.congr rfl rfl rfl)
  | dispatch hbody =>
    have hl := ha.ledger (by simp [hbody])
    have hhosts : hostsOf (s.main.post .null).all = hostsOf s.main.all := by
      rw [Fifo.all_post, hostsOf_append]
      exact List.append_nil _
    exact .of_started hwf hcrashed hcancelled (by simp) (by simp) (hl.congr rfl rfl hhosts)
  | @worker k w w' plan' effect hbody hk hw =>
    obtain rfl := ha.running plan' hbody
    have hl := ha.ledger (by simp [hbody])
    have haddr : ∀ index ∈ w.pending, plan'.ipAddress index = some (plan'.address index) :=
      fun index hindex => ipAddress_of_mem hipv4 hcidr hplan
        (hl.pending w (List.mem_of_getElem? hk) index hindex)
    refine .of_started hwf hcrashed hcancelled ?_ ha.running
      (hl.advance hk hw.pending_subset (hw.finished htask) (hw.remaining_eq haddr)
        (hw.inFlight_eq htask hscan))
    show s.body ≠ .created
    simp [hbody]
  | @workerTrap k w plan' hbody hk hw =>
    obtain rfl := ha.running plan' hbody
    have hl := ha.ledger (by simp [hbody])
    exact absurd hw (WorkerStep.not_trap fun index hindex => ipAddress_of_mem hipv4 hcidr hplan
      (hl.pending w (List.mem_of_getElem? hk) index hindex))
  | @stageReturns k w w' hostname effect hk hw =>
    obtain ⟨plan', hbody⟩ := ha.wellFormed.running_of_mem (List.mem_of_getElem? hk) hw.pc_ne_done
    have hl := ha.ledger (by simp [hbody])
    obtain ⟨hpc, hpending, hinFlight⟩ := hw.books cfg
    obtain rfl := hw.effect_eq
    refine .of_started hwf hcrashed hcancelled ?_ ha.running (hl.advance hk ?_ ?_ ?_ ?_)
    · show s.body ≠ .created
      simp [hbody]
    · rw [hpending]
      exact fun index hindex => hindex
    · exact fun hdone => absurd hdone hpc
    · rw [Worker.remaining, Worker.remaining, hpending]
      rfl
    · rw [hinFlight]
      exact (List.append_nil _).symm
  | stageTrap =>
    have hno := crashed_of_stageReturns hu hcrashed hs
    cases hno
  | deliver hdeliver =>
    have hall := Fifo.all_of_deliver hdeliver
    refine ⟨hwf, hcrashed, hcancelled, fun hbody => ?_, ha.running, fun hbody =>
      (ha.ledger hbody).congr rfl rfl (congrArg hostsOf hall)⟩
    obtain ⟨hpings, hmain⟩ := ha.fresh hbody
    exact ⟨hpings, hall.trans hmain⟩
  | stopCheck | stopCheckNil | stopCancel | stopClear | stopDispatch => exact hu.elim

/-- The books balance in every state that an undisturbed scan reaches. -/
theorem accounted_of_run (hipv4 : 0 ≤ cfg.ipv4.toInt ∧ cfg.ipv4.toInt < 2 ^ 32)
    (hcidr : 0 ≤ cfg.cidrPrefixLength.toInt ∧ cfg.cidrPrefixLength.toInt ≤ 32)
    (hplan : scanPlan cfg.ipv4 cfg.cidrPrefixLength = some plan) {ls : List Label}
    (h : (undisturbed cfg).run init ls = some s) : Accounted cfg plan s :=
  (undisturbed cfg).run_invariant (Accounted cfg plan)
    (fun _ _ _ ha hs => accounted_step hipv4 hcidr hplan ha hs) (accounted_init cfg plan) h

/-! ## Completed scans -/

/-- In a completed run everything has been pinged, and everything dispatched has been
    delivered. -/
theorem covered_of_terminal (ha : Accounted cfg plan s) (hterm : (undisturbed cfg).Terminal s) :
    s.pings.Perm plan.addresses ∧
      ((hostsOf s.main.delivered).map Host.ip).Perm (s.pings.filter cfg.ping) := by
  have hdone := done_of_terminal ha.wellFormed ha.crashed hterm
  obtain ⟨-, hbody, hqueue⟩ := completed_of_terminal ha.wellFormed ha.crashed hterm
  have hl := ha.ledger (by simp [hbody])
  -- all workers are done, so none has an address left
  have hremaining : s.workers.flatMap (Worker.remaining plan) = [] := by
    rw [List.flatMap_eq_nil_iff]
    intro w hw
    rw [Worker.remaining, Worker.pending, hdone w hw, hl.finished w hw (hdone w hw)]
    rfl
  -- nor a host in flight
  have hinFlight : s.workers.flatMap (Worker.inFlight cfg) = [] := by
    rw [List.flatMap_eq_nil_iff]
    intro w hw
    rw [Worker.inFlight, hdone w hw]
  have haddresses := hl.addresses
  have hhosts := hl.hosts
  rw [hremaining, List.append_nil] at haddresses
  rw [hinFlight, List.append_nil, ← Fifo.delivered_eq_all hqueue] at hhosts
  exact ⟨haddresses, hhosts⟩

end LanScan.Ios.Scanner
