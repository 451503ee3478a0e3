import LanScan.Native.Android.Scanner

/-!
# What one step of the Android scanner can do

`WorkerStep` and `Transition` list the transitions of a worker and of the whole
scanner, one constructor for each, with the guard of the branch and the state
after it.  `workerStep_of_step` and `transition_of_step` derive them from the
executable step functions, so that no later proof unfolds those.
-/

namespace LanScan.Android.Scanner

variable {cfg : Config} {s s' : State}

/-! ## Workers -/

/-- The transitions of one worker. -/
inductive WorkerStep (cfg : Config) (isActive : Bool) : Worker → Worker → Effect → Prop
  | leave {rest} (hrest : rest = []) :
      WorkerStep cfg isActive ⟨.atHead, rest⟩ ⟨.done, rest⟩ {}
  | stop {rest} (hactive : isActive = false) :
      WorkerStep cfg isActive ⟨.atHead, rest⟩ ⟨.done, rest⟩ {}
  | check {index rest} (hactive : isActive = true) :
      WorkerStep cfg isActive ⟨.atHead, index :: rest⟩ ⟨.checked index, rest⟩ {}
  | raiseAddress {index rest} (haddr : InetAddress.getByAddress (toByteArray
        (numericIp cfg.ipv4 cfg.cidrPrefixLength index).toInt) = none) :
      WorkerStep cfg isActive ⟨.checked index, rest⟩ ⟨.raised, rest⟩
        { handled := some (numericIp cfg.ipv4 cfg.cidrPrefixLength index), raises := true }
  | probe {index rest address} (haddr : InetAddress.getByAddress (toByteArray
        (numericIp cfg.ipv4 cfg.cidrPrefixLength index).toInt) = some address) :
      WorkerStep cfg isActive ⟨.checked index, rest⟩ ⟨.probing address, rest⟩
        { handled := some (numericIp cfg.ipv4 cfg.cidrPrefixLength index), probed := some address }
  | connected {address rest} (hsdk : cfg.sdkInt < tiramisu) :
      WorkerStep cfg isActive ⟨.probing address, rest⟩ ⟨.atHead, rest⟩ {}
  | reachable {address rest} (hsdk : tiramisu ≤ cfg.sdkInt)
      (hprobe : cfg.probe address = .success) :
      WorkerStep cfg isActive ⟨.probing address, rest⟩
        ⟨.resolving { ip := address.hostAddress }, rest⟩ {}
  | unreachable {address rest} (hsdk : tiramisu ≤ cfg.sdkInt)
      (hprobe : cfg.probe address = .failure) :
      WorkerStep cfg isActive ⟨.probing address, rest⟩ ⟨.atHead, rest⟩ {}
  | raiseProbe {address rest} (hsdk : tiramisu ≤ cfg.sdkInt)
      (hprobe : cfg.probe address = .ioException) :
      WorkerStep cfg isActive ⟨.probing address, rest⟩ ⟨.raised, rest⟩ { raises := true }
  | pass {host rest} (hactive : isActive = true) :
      WorkerStep cfg isActive ⟨.resolved host, rest⟩ ⟨.posting host, rest⟩ {}
  | drop {host rest} (hactive : isActive = false) :
      WorkerStep cfg isActive ⟨.resolved host, rest⟩ ⟨.done, rest⟩ {}
  | post {host rest} :
      WorkerStep cfg isActive ⟨.posting host, rest⟩ ⟨.atHead, rest⟩ { posted := some host }

/-- The steps of a worker. -/
theorem workerStep_of_step {isActive : Bool} {w w' : Worker} {effect : Effect}
    (h : w.step cfg isActive = some (w', effect)) : WorkerStep cfg isActive w w' effect := by
  obtain ⟨pc, rest⟩ := w
  cases pc with
  -- at the head of its loop the worker is finished, or checks the scope
  | atHead =>
    cases rest with
    | nil => cases h; exact .leave rfl
    | cons index rest =>
      cases isActive with
      | true => cases h; exact .check rfl
      | false => cases h; exact .stop rfl
  | checked index =>
    simp only [Worker.step] at h
    split at h
    · rename_i haddr; cases h; exact .raiseAddress haddr
    · rename_i address haddr; cases h; exact .probe haddr
  -- below API 33 the connection is all, from there on `isReachable` decides
  | probing address =>
    simp only [Worker.step] at h
    split at h
    · rename_i hsdk; cases h; exact .connected hsdk
    · rename_i hsdk
      split at h
      · rename_i hp; cases h; exact .reachable (by omega) hp
      · rename_i hp; cases h; exact .unreachable (by omega) hp
      · rename_i hp; cases h; exact .raiseProbe (by omega) hp
  | resolved host =>
    cases isActive with
    | true => cases h; exact .pass rfl
    | false => cases h; exact .drop rfl
  | posting host => cases h; exact .post
  | resolving host => exact nomatch h
  | done => exact nomatch h
  | raised => exact nomatch h

/-- `processHost` is run while a host is resolved, and gives it its name. -/
theorem eq_resolving_of_processHost {hostname : Option String} {w w' : Worker}
    (h : w.processHost hostname = some w') :
    ∃ host rest, w = ⟨.resolving host, rest⟩ ∧
      w' = ⟨.resolved { host with hostname := hostname }, rest⟩ := by
  obtain ⟨pc, rest⟩ := w
  cases pc with
  | resolving host => cases h; exact ⟨host, rest, rfl, rfl⟩
  | _ => exact nomatch h

/-! ## The coroutines of handleArpTable -/

/-- The transitions of one `async` block. -/
inductive ArpStep (isActive : Bool) : ArpTask → ArpTask → Option Host → Prop
  | check {host} (hactive : isActive = true) : ArpStep isActive (.ready host) (.resolving host) none
  | skip {host} (hactive : isActive = false) : ArpStep isActive (.ready host) .done none
  | post {host} : ArpStep isActive (.posting host) .done (some host)

/-- The steps of a task of `handleArpTable`. -/
theorem arpStep_of_step {isActive : Bool} {task task' : ArpTask} {posted : Option Host}
    (h : task.step isActive = some (task', posted)) : ArpStep isActive task task' posted := by
  cases task with
  | ready host =>
    cases isActive with
    | true => cases h; exact .check rfl
    | false => cases h; exact .skip rfl
  | posting host => cases h; exact .post
  | resolving host => exact nomatch h
  | done => exact nomatch h

/-! ## The scanner -/

/-- The transitions of the scanner. -/
inductive Transition (cfg : Config) (s : State) : Label → State → Prop
  | launch (hpc : s.pc = .created) (hactive : s.jobActive = true)
      (hsize : 0 ≤ (scanThreads cfg.cidrPrefixLength).toInt) :
      Transition cfg s .launch { s with pc := .joining, workers := launchWorkers cfg }
  | launchDead (hpc : s.pc = .created)
      (hdead : s.jobActive = false ∨ (scanThreads cfg.cidrPrefixLength).toInt < 0) :
      Transition cfg s .launch { s with pc := .dead }
  | worker {k w w' effect} (hk : s.workers[k]? = some w)
      (hw : WorkerStep cfg s.isActive w w' effect) :
      Transition cfg s (.worker k) (s.advance k w' effect)
  | processHost {k host rest hostname} (hk : s.workers[k]? = some ⟨.resolving host, rest⟩) :
      Transition cfg s (.processHost k hostname)
        (s.advance k ⟨.resolved { host with hostname := hostname }, rest⟩ {})
  | timeout (hpc : s.pc = .joining) (hcause : s.cause = none) :
      Transition cfg s .timeout { s with cause := some .timedOut }
  | joined (hpc : s.pc = .joining) (hover : ∀ w ∈ s.workers, w.isOver = true)
      (hraised : ∀ w ∈ s.workers, w.pc ≠ .raised)
      (hcause : s.cause = none ∨ s.cause = some .timedOut) :
      Transition cfg s .job { s with pc := afterScan cfg }
  | joinedDead (hpc : s.pc = .joining) (hover : ∀ w ∈ s.workers, w.isOver = true)
      (hdead : (∃ w ∈ s.workers, w.pc = .raised) ∨
        s.cause = some .cancelled ∨ s.cause = some .failed) :
      Transition cfg s .job { s with pc := .dead }
  | arpDone {tasks} (hpc : s.pc = .arp tasks) (hdone : ∀ task ∈ tasks, task = .done)
      (hactive : s.jobActive = true) : Transition cfg s .job { s with pc := .lastCheck }
  | arpDead {tasks} (hpc : s.pc = .arp tasks) (hdone : ∀ task ∈ tasks, task = .done)
      (hactive : s.jobActive = false) : Transition cfg s .job { s with pc := .dead }
  | lastCheck (hpc : s.pc = .lastCheck) (hactive : s.jobActive = true) :
      Transition cfg s .job { s with pc := .postingNull }
  | lastCheckDead (hpc : s.pc = .lastCheck) (hactive : s.jobActive = false) :
      Transition cfg s .job { s with pc := .dead }
  | postNull (hpc : s.pc = .postingNull) :
      Transition cfg s .job { s with pc := .ended, looper := s.looper.post .null }
  | arp {tasks k task task'} (hpc : s.pc = .arp tasks) (hk : tasks[k]? = some task)
      (htask : ArpStep s.jobActive task task' none) :
      Transition cfg s (.arp k) { s with pc := .arp (tasks.set k task') }
  | arpPost {tasks k task task' host} (hpc : s.pc = .arp tasks) (hk : tasks[k]? = some task)
      (htask : ArpStep s.jobActive task task' (some host)) :
      Transition cfg s (.arp k)
        { s with pc := .arp (tasks.set k task'), looper := s.looper.post (.host host) }
  | arpProcessHost {tasks k host hostname} (hpc : s.pc = .arp tasks)
      (hk : tasks[k]? = some (.resolving host)) :
      Transition cfg s (.arpProcessHost k hostname)
        { s with pc := .arp (tasks.set k (.posting { host with hostname := hostname })) }
  | stopCancel (hstopping : s.stopping = false) (hjob : s.job = true) :
      Transition cfg s .stopCancel
        { s with
          jobActive := false
          cause := s.cause.or (some .cancelled)
          job := false
          stopping := true }
  | stopAgain (hstopping : s.stopping = false) (hjob : s.job = false) :
      Transition cfg s .stopCancel { s with stopping := true }
  | stopPost (hstopping : s.stopping = true) :
      Transition cfg s .stopPost { s with stopping := false, looper := s.looper.post .null }
  | deliver {looper} (hdeliver : s.looper.deliver = some looper) :
      Transition cfg s .deliver { s with looper }

/-- The steps of the job. -/
private theorem transition_of_stepJob (h : stepJob cfg s = some s') :
    Transition cfg s .job s' := by
  unfold stepJob at h
  split at h
  · rename_i hpc
    split at h
    -- `joinAll` returns: the workers decide how the scope is left
    · rename_i hover
      have hover' : ∀ w ∈ s.workers, w.isOver = true := List.all_eq_true.mp hover
      split at h
      · rename_i hany
        obtain ⟨w, hw, hpcw⟩ := List.any_eq_true.mp hany
        cases h
        -- an exception of a worker comes before the cause of the cancellation
        exact .joinedDead hpc hover' (.inl ⟨w, hw, by simpa using hpcw⟩)
      · rename_i hany
        have hraised : ∀ w ∈ s.workers, w.pc ≠ .raised := by
          intro w hw hpcw
          exact hany (List.any_eq_true.mpr ⟨w, hw, by simp [hpcw]⟩)
        split at h
        · rename_i hc; cases h; exact .joined hpc hover' hraised (.inl hc)
        · rename_i hc; cases h; exact .joined hpc hover' hraised (.inr hc)
        · rename_i hc; cases h; exact .joinedDead hpc hover' (.inr (.inl hc))
        · rename_i hc; cases h; exact .joinedDead hpc hover' (.inr (.inr hc))
    · exact nomatch h
  · rename_i tasks hpc
    split at h
    · rename_i hdone
      have hdone' : ∀ task ∈ tasks, task = .done := by simpa using hdone
      by_cases hactive : s.jobActive = true
      · rw [if_pos hactive] at h; cases h; exact .arpDone hpc hdone' hactive
      · rw [if_neg hactive] at h; cases h; exact .arpDead hpc hdone' (by simpa using hactive)
    · exact nomatch h
  · rename_i hpc
    by_cases hactive : s.jobActive = true
    · rw [if_pos hactive] at h; cases h; exact .lastCheck hpc hactive
    · rw [if_neg hactive] at h; cases h; exact .lastCheckDead hpc (by simpa using hactive)
  · rename_i hpc; cases h; exact .postNull hpc
  all_goals exact nomatch h

/-- Every step of the scanner is one of the listed transitions. -/
theorem transition_of_step {l : Label} (h : step cfg s l = some s') : Transition cfg s l s' := by
  cases l with
  | launch =>
    simp only [step, stepLaunch] at h
    split at h
    · rename_i hpc
      split at h
      · rename_i hok; cases h; exact .launch hpc hok.1 hok.2
      -- either half of the guard can have failed
      · rename_i hno
        cases h
        apply Transition.launchDead hpc
        cases hactive : s.jobActive with
        | false => exact .inl rfl
        | true => exact .inr (Int.not_le.mp fun hsize => hno ⟨hactive, hsize⟩)
    · exact nomatch h
  | worker k =>
    simp only [step] at h
    split at h
    · exact nomatch h
    · rename_i w hk
      obtain ⟨⟨w', effect⟩, hw, heq⟩ := Option.map_eq_some_iff.mp h
      cases heq
      exact .worker hk (workerStep_of_step hw)
  | processHost k hostname =>
    simp only [step] at h
    split at h
    · exact nomatch h
    · rename_i w hk
      obtain ⟨w', hw, heq⟩ := Option.map_eq_some_iff.mp h
      cases heq
      obtain ⟨host, rest, rfl, rfl⟩ := eq_resolving_of_processHost hw
      exact .processHost hk
  | timeout =>
    simp only [step] at h
    split at h
    · rename_i hok; cases h; exact .timeout hok.1 hok.2
    · exact nomatch h
  | job => exact transition_of_stepJob h
  | arp k =>
    simp only [step, stepArp] at h
    split at h
    · rename_i tasks hpc
      split at h
      · exact nomatch h
      · rename_i task hk
        split at h
        · exact nomatch h
        · rename_i task' posted htask
          have harp := arpStep_of_step htask
          cases posted with
          | none => cases h; exact .arp hpc hk harp
          | some host => cases h; exact .arpPost hpc hk harp
    · exact nomatch h
  | arpProcessHost k hostname =>
    simp only [step, stepArpProcessHost] at h
    split at h
    · rename_i tasks hpc
      split at h
      · exact nomatch h
      · rename_i task hk
        cases task with
        | resolving host => cases h; exact .arpProcessHost hpc hk
        | _ => exact nomatch h
    · exact nomatch h
  | stopCancel =>
    simp only [step, stepStopCancel] at h
    split at h
    · exact nomatch h
    · rename_i hstopping
      split at h
      · rename_i hjob; cases h; exact .stopCancel (by simpa using hstopping) hjob
      · rename_i hjob; cases h; exact .stopAgain (by simpa using hstopping) (by simpa using hjob)
  | stopPost =>
    simp only [step] at h
    split at h
    · rename_i hstopping; cases h; exact .stopPost hstopping
    · exact nomatch h
  | deliver =>
    obtain ⟨looper, hlooper, heq⟩ := Option.map_eq_some_iff.mp h
    cases heq
    exact .deliver hlooper

end LanScan.Android.Scanner
