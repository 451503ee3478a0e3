import LanScan.Spec.Android.HandlerStep
import LanScan.Spec.Android.ScannerOrder

/-!
# How many nulls an eventSink receives (Android)

Neither the scanner nor the handler records that a null has been posted.  An
`onCancel` after the scan has come to its end posts a second one, and so does
one that reaches the scanner of an earlier session.  As long as every `onCancel`
finds a scanner that has not come to its final check and has not been stopped
before, each sink receives at most one.

## Key results

- `nullBudget_step`: a scanner posts at most one null if it is stopped once and
  in time
- `nullCount_le_one_of_timelyCancel`: so do all sessions of a handler
- `second_null`: a run in which a sink receives two
-/

namespace LanScan.Android

/-! ## One scanner -/

namespace Scanner

variable {cfg : Config} {s s' : State} {l : Label}

/-- A null of this scanner has been posted or is bound to be: the job is past its
    final check, or `stopScanning` has been called. -/
def State.nullDue (s : State) : Bool := !s.job || s.pc == .postingNull || s.pc == .ended

/-- The nulls posted so far and those bound to be posted. -/
def State.nulls (s : State) : Nat :=
  nullCount s.looper.all + (if s.stopping then 1 else 0) + (if s.pc = .postingNull then 1 else 0)

/-- At most one null, and none before one is due. -/
structure NullBudget (s : State) : Prop where
  wellFormed : WellFormed s
  le_one : s.nulls ≤ 1
  eq_zero : s.nullDue = false → s.nulls = 0

/-- A scan has posted nothing at its start. -/
theorem nullBudget_init : NullBudget init := ⟨wellFormed_init, by decide, fun _ => by decide⟩

/-- The budget carries over to a state that differs in none of what it counts. -/
theorem NullBudget.of_unchanged (hb : NullBudget s) (hwf : WellFormed s')
    (hcount : nullCount s'.looper.all = nullCount s.looper.all)
    (hstopping : s'.stopping = s.stopping) (hjob : s'.job = s.job)
    (hposting : (s'.pc == .postingNull) = (s.pc == .postingNull))
    (hended : (s'.pc == .ended) = (s.pc == .ended)) : NullBudget s' := by
  have hnulls : s'.nulls = s.nulls := by
    have hiff : s'.pc = .postingNull ↔ s.pc = .postingNull := by
      rw [← beq_iff_eq, hposting, beq_iff_eq]
    simp only [State.nulls, hcount, hstopping, hiff]
  have hdue : s'.nullDue = s.nullDue := by
    simp only [State.nullDue, hjob, hposting, hended]
  exact ⟨hwf, hnulls ▸ hb.le_one, fun h => hnulls.trans (hb.eq_zero (hdue ▸ h))⟩

/-- A worker's step posts no null. -/
theorem nullCount_advance (k : Nat) (w : Worker) (effect : Effect) :
    nullCount (s.advance k w effect).looper.all = nullCount s.looper.all := by
  simp only [State.advance]
  split
  · rfl
  · rw [Fifo.all_post, nullCount_append_host]

/-- Every step keeps the budget, provided that `stopScanning` comes before the
    job's final check and is not called twice. -/
theorem nullBudget_step (hb : NullBudget s) (htimely : l = .stopCancel → s.nullDue = false)
    (h : Transition cfg s l s') : NullBudget s' := by
  have hwf' := wellFormed_step hb.wellFormed h
  have hle := hb.le_one
  cases h with
  | launch hpc | launchDead hpc | joinedDead hpc | lastCheckDead hpc | arpDone hpc | arpDead hpc
  | arp hpc | arpProcessHost hpc =>
    exact hb.of_unchanged hwf' rfl rfl rfl (by rw [hpc]; rfl) (by rw [hpc]; rfl)
  | joined hpc =>
    have hafter : (afterScan cfg == .postingNull) = false ∧ (afterScan cfg == .ended) = false := by
      simp only [afterScan]
      split <;> exact ⟨rfl, rfl⟩
    exact hb.of_unchanged hwf' rfl rfl rfl (by rw [hpc]; exact hafter.1)
      (by rw [hpc]; exact hafter.2)
  | worker hk hw =>
    exact hb.of_unchanged hwf' (nullCount_advance _ _ _) rfl rfl rfl rfl
  | processHost hk => exact hb.of_unchanged hwf' rfl rfl rfl rfl rfl
  | timeout hpc => exact hb.of_unchanged hwf' rfl rfl rfl rfl rfl
  | arpPost hpc =>
    -- a host is posted, and hosts do not count
    refine hb.of_unchanged hwf' ?_ rfl rfl (by rw [hpc]; rfl) (by rw [hpc]; rfl)
    rw [Fifo.all_post, nullCount_append_host]
  | deliver hdeliver =>
    exact hb.of_unchanged hwf' (by rw [Fifo.all_of_deliver hdeliver]) rfl rfl rfl rfl
  | lastCheck hpc hactive =>
    -- an active job has not been stopped, so the null it is about to post is the first
    have hjob : s.job = true := by
      cases hjob : s.job with
      | true => rfl
      | false =>
        have := hb.wellFormed.dropped hjob
        rw [hactive] at this
        cases this
    have hzero := hb.eq_zero (by simp [State.nullDue, hjob, hpc])
    simp only [State.nulls, hpc, reduceCtorEq, if_false] at hzero
    refine ⟨hwf', ?_, fun hdue => ?_⟩
    · simp only [State.nulls, if_true]; omega
    · simp [State.nullDue] at hdue
  | postNull hpc =>
    -- the null that was due becomes a posted one
    simp only [State.nulls, hpc, if_true] at hle
    refine ⟨hwf', ?_, fun hdue => ?_⟩
    · simp only [State.nulls, Fifo.all_post, nullCount_append_null, reduceCtorEq, if_false]
      omega
    · simp [State.nullDue] at hdue
  | stopCancel hstopping hjob =>
    -- no null has been posted nor is due, so the one of `stopScanning` is the first
    have hzero := hb.eq_zero (htimely rfl)
    simp only [State.nulls, hstopping, Bool.false_eq_true, if_false] at hzero
    refine ⟨hwf', ?_, fun hdue => ?_⟩
    · simp only [State.nulls, if_true]; omega
    · simp [State.nullDue] at hdue
  | stopAgain hstopping hjob =>
    -- a second call is not timely
    have := htimely rfl
    simp [State.nullDue, hjob] at this
  | stopPost hstopping =>
    simp only [State.nulls, hstopping, if_true] at hle
    -- the pending null of `stopScanning` becomes a posted one
    have hnulls : State.nulls { s with stopping := false, looper := s.looper.post .null } =
        s.nulls := by
      simp only [State.nulls, Fifo.all_post, nullCount_append_null, hstopping, if_true,
        Bool.false_eq_true, if_false]
    exact ⟨hwf', hnulls ▸ hb.le_one, fun hdue => hnulls.trans (hb.eq_zero hdue)⟩

/-- The null count of what was delivered is bounded by that of what was posted. -/
theorem NullBudget.nullCount_delivered (hb : NullBudget s) :
    nullCount s.looper.delivered ≤ 1 := by
  have hle := hb.le_one
  have hsub : nullCount s.looper.delivered ≤ nullCount s.looper.all :=
    s.looper.delivered_sublist_all.count_le _
  simp only [State.nulls] at hle
  omega

end Scanner

/-! ## The handler -/

namespace Handler

open Scanner (NullBudget)

/-- `onCancel` finds no scanner, or one that has neither come to its final check
    nor been stopped before. -/
def TimelyCancel (s : State) : Label → Prop
  | .onCancel =>
    match s.scanner with
    | none => True
    | some (_, _, scanner) => scanner.nullDue = false
  | _ => True

instance (s : State) (l : Label) : Decidable (TimelyCancel s l) := by
  cases l <;> simp only [TimelyCancel]
  all_goals first
    | infer_instance
    | (split <;> infer_instance)

/-- A timely step of the handler is no step of a scanner, or a timely one. -/
theorem lifted_of_timelyCancel {s s' : State} {l : Label} (ht : TimelyCancel s l)
    (h : step s l = some s') :
    Lifted (fun scanner label => label = .stopCancel → scanner.nullDue = false) s l := by
  intro move hmove session hsession
  cases session with
  | noWifi => trivial
  | scan cfg scanner =>
    intro hcancel
    cases l with
    | onListen => cases hmove
    | onCancel =>
      obtain ⟨i, hlast, rfl⟩ := Option.map_eq_some_iff.mp hmove
      have hscanner : s.scanner = some (i, cfg, scanner) := by
        rw [State.scanner, hlast, Session.scannerOf, hsession]
      simpa only [TimelyCancel, hscanner] using ht
    | onCancelPost =>
      obtain ⟨i, -, rfl⟩ := Option.map_eq_some_iff.mp hmove
      cases hcancel
    | session i label =>
      -- a session does not stop itself
      obtain rfl := Option.some.inj hmove
      obtain rfl : label = .stopCancel := hcancel
      have hi : s.sessions[i]? = some (.scan cfg scanner) := hsession
      simp [step, hi] at h

/-- **One null for each sink.** In every run in which each `onCancel` finds no
    scanner, or one that has neither come to its final check nor been stopped
    before, every `eventSink` receives at most one null. -/
theorem nullCount_le_one_of_timelyCancel (ls : List Label) (s : State)
    (h : (handler.restrict TimelyCancel).run init ls = some s) :
    ∀ session ∈ s.sessions, nullCount session.looper.delivered ≤ 1 := by
  have hall : ∀ session ∈ s.sessions, session.Holds NullBudget :=
    forall_session_of_run TimelyCancel (fun _ _ _ => lifted_of_timelyCancel)
      Scanner.nullBudget_init (fun _ _ _ _ hs hc => Scanner.nullBudget_step hs hc) h
  intro session hmem
  cases session with
  | scan cfg scanner => exact (hall _ hmem : NullBudget scanner).nullCount_delivered
  -- Without Wi-Fi `onListen` posts the one null itself.
  | noWifi looper =>
    have hnull : looper.all = [.null] := hall _ hmem
    have hle := looper.delivered_sublist_all.count_le .null
    rwa [hnull] at hle

/-! ### Runs -/

/-- A scan of 192.168.0.0/30 on Android 13, where nobody answers. -/
def quietConfig : Scanner.Config where
  sdkInt := 33
  ipv4 := -1062731775
  cidrPrefixLength := 30
  probe _ := .failure
  arpTable := []

/-- The WiFi stays away for a first session, and a second one is cancelled while
    its scan is running. -/
def cancelledSessions : State :=
  ((handler.restrict TimelyCancel).run init
    [.onListen true false quietConfig, .onCancel, .onListen true true quietConfig,
      .session 1 .launch, .onCancel, .onCancelPost, .session 0 .deliver,
      .session 1 .deliver]).get (by decide)

/-- Neither of two sessions that are cancelled in time gets a second null. -/
theorem nullCount_le_one_of_timelyCancel_quiet :
    nullCount (cancelledSessions.sessions.get ⟨0, by decide⟩).looper.delivered ≤ 1 ∧
      nullCount (cancelledSessions.sessions.get ⟨1, by decide⟩).looper.delivered ≤ 1 :=
  have h := nullCount_le_one_of_timelyCancel _ cancelledSessions (Option.some_get _).symm
  ⟨h _ (List.get_mem _ _), h _ (List.get_mem _ _)⟩

/-- The scan posts its null and is cancelled afterwards. -/
theorem second_null : ¬ ∀ (ls : List Label) (s : State), handler.run init ls = some s →
    ∀ session ∈ s.sessions, nullCount session.looper.delivered ≤ 1 := by
  intro h
  -- The scan ends by itself and posts its null; `onCancel` then posts another one.
  let ls : List Label := [.onListen true true quietConfig] ++ Scanner.silentScan.map (.session 0) ++
    [.session 0 .job, .session 0 .job, .session 0 .deliver, .onCancel, .onCancelPost,
      .session 0 .deliver]
  have hrun : (handler.run init ls).map (fun s => s.sessions.map (·.looper.delivered)) =
      some [[.null, .null]] := by decide
  obtain ⟨s, hs, hdelivered⟩ := Option.map_eq_some_iff.mp hrun
  obtain ⟨session, hsession⟩ := List.map_eq_singleton_iff.mp hdelivered
  have hle := h ls s hs session (by rw [hsession.1]; exact List.mem_singleton.mpr rfl)
  rw [hsession.2] at hle
  exact absurd hle (by decide)

end Handler

end LanScan.Android
