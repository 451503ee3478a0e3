import LanScan.Spec.Android.ScannerInvariant
import LanScan.Spec.Events

/-!
# No host after a null (Android)

A coroutine that has passed its last `isActive` check still posts its host, even
when `stopScanning` cancels the job and posts a null in between.  In
`handleReachability` the check stands right before the post; in `handleArpTable`
the whole of `processHost` lies between them.  The order of events is kept
exactly as long as `stopScanning` posts its null with no coroutine in that
window.

## Key results

- `looper_all_of_transition`: a step posts nothing, a null, or the host of a
  coroutine past its last check
- `noHostAfterNull_of_settledStop`: no host follows a null in runs whose calls of
  `stopScanning` find no coroutine past its last check
- `host_after_null`: a run in which a host follows a null
-/

namespace LanScan.Android.Scanner

variable {cfg : Config} {s s' : State} {l : Label}

/-! ## Coroutines past their last check -/

/-- The worker will post its host without checking `isActive` again. -/
def Worker.pastCheck (w : Worker) : Bool :=
  match w.pc with
  | .posting _ => true
  | _ => false

/-- The `async` block will post its host without checking `isActive` again. -/
def ArpTask.pastCheck : ArpTask → Bool
  | .resolving _ | .posting _ => true
  | .ready _ | .done => false

/-- The coroutines of `handleArpTable`, when the job is there. -/
def State.arpTasks (s : State) : List ArpTask :=
  match s.pc with
  | .arp tasks => tasks
  | _ => []

/-- Some coroutine has passed its last check and not yet posted its host. -/
def State.pastCheck (s : State) : Bool :=
  s.workers.any Worker.pastCheck || s.arpTasks.any ArpTask.pastCheck

/-- `stopScanning` posts its null only while no coroutine is past its last check. -/
def SettledStop (s : State) (l : Label) : Prop := l = .stopPost → s.pastCheck = false

instance (s : State) (l : Label) : Decidable (SettledStop s l) :=
  inferInstanceAs (Decidable (_ → _))

/-- Nobody is past its last check. -/
theorem pastCheck_eq_false_iff : s.pastCheck = false ↔
    (∀ w ∈ s.workers, w.pastCheck = false) ∧ ∀ t ∈ s.arpTasks, t.pastCheck = false := by
  simp only [State.pastCheck, Bool.or_eq_false_iff, List.any_eq_false, Bool.not_eq_true]

/-- A worker that is over posts nothing any more. -/
theorem Worker.pastCheck_of_isOver {w : Worker} (h : w.isOver = true) : w.pastCheck = false := by
  obtain ⟨pc, rest⟩ := w
  cases pc <;> first | rfl | exact nomatch h

/-- A worker posts a host only from past its last check. -/
theorem WorkerStep.pastCheck_of_posted {isActive : Bool} {w w' : Worker} {effect : Effect}
    {host : Host} (h : WorkerStep cfg isActive w w' effect) (hposted : effect.posted = some host) :
    w.pastCheck = true := by
  cases h <;> first | rfl | exact nomatch hposted

/-- An inactive worker does not get past its last check. -/
theorem WorkerStep.pastCheck_eq_false {w w' : Worker} {effect : Effect}
    (h : WorkerStep cfg false w w' effect) : w'.pastCheck = false := by
  cases h with
  | pass hactive => exact nomatch hactive
  | _ => rfl

/-- An inactive coroutine of `handleArpTable` before its check stays before it. -/
theorem ArpStep.pastCheck_eq_false {t t' : ArpTask} {posted : Option Host}
    (h : ArpStep false t t' posted) : t'.pastCheck = false := by
  cases h with
  | check hactive => exact nomatch hactive
  | skip | post => rfl

/-- What a step can append to the messages posted so far: nothing, the null of
    `stopScanning` or of the job's end, or the host of a coroutine past its check. -/
theorem looper_all_of_transition (h : Transition cfg s l s') :
    s'.looper.all = s.looper.all ∨
      (l = .stopPost ∧ s.stopping = true ∧
        s' = { s with stopping := false, looper := s.looper.post .null }) ∨
      (s.pc = .postingNull ∧ s' = { s with pc := .ended, looper := s.looper.post .null }) ∨
      ∃ host, s'.looper.all = s.looper.all ++ [.host host] ∧ s.pastCheck = true := by
  cases h with
  | @worker k w w' effect hk hw =>
    cases hposted : effect.posted with
    | none => exact .inl (by simp only [State.advance, hposted])
    | some host =>
      refine .inr (.inr (.inr ⟨host, by simp only [State.advance, hposted, Fifo.all_post], ?_⟩))
      have hany : s.workers.any Worker.pastCheck = true :=
        List.any_eq_true.mpr ⟨w, List.mem_of_getElem? hk, hw.pastCheck_of_posted hposted⟩
      simp only [State.pastCheck, hany, Bool.true_or]
  | @arpPost tasks k task task' host hpc hk htask =>
    refine .inr (.inr (.inr ⟨host, Fifo.all_post _ _, ?_⟩))
    have hpast : task.pastCheck = true := by cases htask; rfl
    have hany : tasks.any ArpTask.pastCheck = true :=
      List.any_eq_true.mpr ⟨task, List.mem_of_getElem? hk, hpast⟩
    simp only [State.pastCheck, State.arpTasks, hpc, hany, Bool.or_true]
  | postNull hpc => exact .inr (.inr (.inl ⟨hpc, rfl⟩))
  | stopPost hstopping => exact .inr (.inl ⟨rfl, hstopping, rfl⟩)
  -- delivery moves a message, it posts none
  | deliver hdeliver => exact .inl (Fifo.all_of_deliver hdeliver)
  | _ => exact .inl rfl

/-! ## The invariant -/

/-- No coroutine will post a host any more. -/
structure Settled (s : State) : Prop where
  pastCheck : s.pastCheck = false
  halted : s.jobActive = false ∨ s.pc = .ended

/-- Once settled, the scanner stays settled: a check that is still to come fails. -/
theorem settled_step (hwf : WellFormed s) (hs : Settled s) (h : Transition cfg s l s') :
    Settled s' := by
  obtain ⟨hpast, hover⟩ := hs
  have ⟨hworkers, htasks⟩ := pastCheck_eq_false_iff.mp hpast
  have hjobActive : s.pc ≠ .ended → s.jobActive = false := fun hne => hover.resolve_right hne
  cases h with
  | launch hpc hactive =>
    rw [hjobActive (by simp [hpc])] at hactive
    cases hactive
  | launchDead hpc =>
    refine ⟨pastCheck_eq_false_iff.mpr ⟨hworkers, fun t ht => absurd ht List.not_mem_nil⟩, .inl ?_⟩
    exact hjobActive (by simp [hpc])
  | @worker k w w' effect hk hw =>
    have hpc := hwf.joining_of_mem (List.mem_of_getElem? hk) hw.isOver_eq_false
    have hja := hjobActive (by simp [hpc])
    -- the worker sees `isActive = false` and cannot pass its check
    rw [hwf.inactive hja] at hw
    refine ⟨pastCheck_eq_false_iff.mpr ⟨?_, htasks⟩, .inl hja⟩
    exact List.forall_mem_set hworkers hw.pastCheck_eq_false
  | @processHost k host rest hostname hk =>
    have hpc := hwf.joining_of_mem (List.mem_of_getElem? hk) rfl
    refine ⟨pastCheck_eq_false_iff.mpr ⟨?_, htasks⟩, .inl (hjobActive (by simp [hpc]))⟩
    exact List.forall_mem_set hworkers rfl
  | timeout hpc =>
    exact ⟨hpast, .inl (hjobActive (by simp [hpc]))⟩
  | joined hpc =>
    refine ⟨pastCheck_eq_false_iff.mpr ⟨hworkers, fun t ht => ?_⟩,
      .inl (hjobActive (by simp [hpc]))⟩
    -- the coroutines of `handleArpTable` start before their check
    simp only [State.arpTasks, afterScan] at ht
    split at ht
    · rename_i tasks heq
      split at heq <;> cases heq
      obtain ⟨host, _, rfl⟩ := List.mem_map.mp ht
      rfl
    · exact absurd ht List.not_mem_nil
  | joinedDead hpc | lastCheckDead hpc =>
    refine ⟨pastCheck_eq_false_iff.mpr ⟨hworkers, fun t ht => absurd ht List.not_mem_nil⟩, .inl ?_⟩
    exact hjobActive (by simp [hpc])
  -- these need an active job, and a settled job that has not ended is cancelled
  | arpDone hpc _ hactive | lastCheck hpc hactive =>
    rw [hjobActive (by simp [hpc])] at hactive
    cases hactive
  | arpDead hpc _ hactive =>
    exact ⟨pastCheck_eq_false_iff.mpr ⟨hworkers, fun t ht => absurd ht List.not_mem_nil⟩,
      .inl hactive⟩
  | postNull hpc =>
    exact ⟨pastCheck_eq_false_iff.mpr ⟨hworkers, fun t ht => absurd ht List.not_mem_nil⟩, .inr rfl⟩
  | @arp tasks k task task' hpc hk htask | @arpPost tasks k task task' host hpc hk htask =>
    have hja := hjobActive (by simp [hpc])
    -- the coroutine sees the cancelled job at its own check
    rw [hja] at htask
    simp only [State.arpTasks, hpc] at htasks
    exact ⟨pastCheck_eq_false_iff.mpr
      ⟨hworkers, List.forall_mem_set htasks htask.pastCheck_eq_false⟩, .inl hja⟩
  | @arpProcessHost tasks k host hostname hpc hk =>
    -- a coroutine inside `processHost` is past its check already
    simp only [State.arpTasks, hpc] at htasks
    cases htasks _ (List.mem_of_getElem? hk)
  | stopCancel => exact ⟨hpast, .inl rfl⟩
  | stopAgain | stopPost | deliver => exact ⟨hpast, hover⟩

/-- Hosts precede nulls, and once a null has been posted the scanner is settled. -/
structure Ordered (s : State) : Prop where
  wellFormed : WellFormed s
  order : NoHostAfterNull s.looper.all
  settled : .null ∈ s.looper.all → Settled s

/-- A scan starts so. -/
theorem ordered_init : Ordered init :=
  ⟨wellFormed_init, List.Pairwise.nil, fun h => absurd h List.not_mem_nil⟩

/-- Every step keeps it, if `stopScanning` waits for the coroutines past their checks. -/
theorem ordered_step (ho : Ordered s) (hstop : SettledStop s l) (h : Transition cfg s l s') :
    Ordered s' := by
  have hwf := ho.wellFormed
  rcases looper_all_of_transition h with heq | ⟨rfl, hstopping, rfl⟩ | ⟨hpc, rfl⟩ |
    ⟨host, heq, hpast⟩
  -- nothing is posted: an earlier null has settled the scanner for good
  · refine ⟨wellFormed_step hwf h, by rw [heq]; exact ho.order, fun hmem => ?_⟩
    rw [heq] at hmem
    exact settled_step hwf (ho.settled hmem) h
  · -- `stopScanning` has cancelled the job before it posts
    exact ⟨wellFormed_step hwf h, Fifo.all_post _ _ ▸ ho.order.append_null,
      fun _ => ⟨hstop rfl, .inl (hwf.stopping hstopping)⟩⟩
  · -- the job posts its null after all its coroutines
    have hover := hwf.joined (by rw [hpc]; exact nofun) (by rw [hpc]; exact nofun)
    refine ⟨wellFormed_step hwf h, Fifo.all_post _ _ ▸ ho.order.append_null,
      fun _ => ⟨?_, .inr rfl⟩⟩
    exact pastCheck_eq_false_iff.mpr
      ⟨fun w hw => Worker.pastCheck_of_isOver (hover w hw), fun t ht => absurd ht List.not_mem_nil⟩
  · -- a host comes from a coroutine past its check, so no null has been posted yet
    have hnot : .null ∉ s.looper.all := fun hmem => by
      rw [(ho.settled hmem).pastCheck] at hpast
      exact nomatch hpast
    refine ⟨wellFormed_step hwf h, by rw [heq]; exact ho.order.append_host hnot host,
      fun hmem => ?_⟩
    rw [heq, List.mem_append, List.mem_singleton] at hmem
    exact hmem.elim (fun hmem => absurd hmem hnot) nofun

/-- **Order of events.** In every run in which each call of `stopScanning` posts
    its null while no coroutine is past its last check, no host is delivered
    after a null. -/
theorem noHostAfterNull_of_settledStop (cfg : Config) (ls : List Label) (s : State)
    (h : ((scanner cfg).restrict SettledStop).run init ls = some s) :
    NoHostAfterNull s.looper.delivered := by
  have ho : Ordered s :=
    (scanner cfg).run_restrict_invariant SettledStop Ordered
      (fun _ _ _ ho hstop hs => ordered_step ho hstop (transition_of_step hs)) ordered_init h
  exact ho.order.delivered

/-! ## Runs -/

/-- Android 11 in 192.168.0.0/30, with one neighbour in the table. -/
def neighbourConfig : Config where
  sdkInt := 30
  ipv4 := -1062731775
  cidrPrefixLength := 30
  probe _ := .failure
  arpTable := [{ ip := "192.168.0.2", mac := some "00:11:22:33:44:55" }]

/-- The workers of a /30 probe its two addresses, find nobody, and `joinAll` returns. -/
def silentScan : List Label :=
  [.launch] ++ (List.range 8).map .worker ++
    [.worker 0, .worker 0, .worker 0, .worker 1, .worker 1, .worker 1, .job]

/-- A call of `stopScanning` after the neighbour's host has been posted. -/
theorem noHostAfterNull_of_settledStop_neighbour :
    NoHostAfterNull ((((scanner neighbourConfig).restrict SettledStop).run init
      (silentScan ++ [.arp 0, .arpProcessHost 0 none, .arp 0, .stopCancel, .stopPost,
        .deliver, .deliver])).get (by decide)).looper.delivered :=
  noHostAfterNull_of_settledStop _ _ _ (Option.some_get _).symm

/-- `stopScanning` is called while `processHost` runs for the neighbour, whose
    host is then posted behind the null. -/
theorem host_after_null : ¬ ∀ (cfg : Config) (ls : List Label) (s : State),
    ls.count .stopCancel ≤ 1 → (scanner cfg).run init ls = some s →
    NoHostAfterNull s.looper.delivered := by
  intro h
  -- The scan is stopped while the task of a neighbour looks up its name.
  let ls := silentScan ++
    [.arp 0, .stopCancel, .stopPost, .arpProcessHost 0 none, .arp 0, .deliver, .deliver]
  have hrun : ((scanner neighbourConfig).run init ls).map (·.looper.delivered) =
      some [.null, .host { ip := "192.168.0.2", mac := some "00:11:22:33:44:55" }] := by decide
  obtain ⟨s, hs, hdelivered⟩ := Option.map_eq_some_iff.mp hrun
  have hordered := h neighbourConfig ls s (by decide) hs
  rw [hdelivered] at hordered
  exact absurd hordered (by decide)

end LanScan.Android.Scanner
