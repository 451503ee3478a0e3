import LanScan.Spec.Ios.PingCompletion

/-!
# Completed pings (iOS)

A ping comes to its end by itself: a measure that every step decreases leaves it fifteen steps at
most, replies included, since a reply that is handled invalidates the socket.  When nothing more
can happen, the completion has been called and the socket is gone.

## Key results

- `measure_lt_of_transition`: every step decreases `measure`
- `accounted_step`: what has ended has called the completion, or is about to
- `terminal_iff`: what it means for a ping to be over
- `completed_of_run`: every ping ends, and completes
- `replied_iff_of_run`: the completion is called with `true` exactly if a reply has arrived
-/

namespace LanScan.Ios.ICMPPing

variable {s s' : State} {l : Label} {ls : List Label}

/-! ## The measure -/

/-- `createSocket` has yet to come to its result. -/
def PingPc.beforeSocket : PingPc → Bool
  | .resolving | .resolved | .creating => true
  | _ => false

/-- Steps that `startPing` may still take. -/
def PingPc.measure : PingPc → Nat
  | .resolving => 8
  | .resolved => 7
  -- a socket that is not created costs a step, and saves those of the handler
  | .creating | .socketFailed => 6
  | .created => 5
  | .sending => 4
  | .sendPacket => 3
  | .assigning => 2
  | .scheduling | .resolveFailed | .noAddress => 1
  | .finished => 0

/-- Steps that the timeout work item may still take. -/
def TimerPc.measure : TimerPc → Nat
  | .unscheduled | .scheduled => 3
  | .firing => 2
  | .stopping => 1
  | .done => 0

/-- Steps that `handleSocketData` may still take, with the reply that calls it. -/
def HandlerPc.measure (canReply : Bool) : HandlerPc → Nat
  | .idle => if canReply then 4 else 0
  | .cancelling => 3
  | .completing => 2
  | .stopping => 1

/-- A reply may still arrive: there is a socket, or there may be one yet. -/
def State.canReply (s : State) : Bool := s.socket || s.pc.beforeSocket

/-- Steps that the ping may still take. -/
def State.measure (s : State) : Nat :=
  s.pc.measure + s.timer.measure + s.handler.measure s.canReply

/-- A handler that no reply can start has less to do. -/
theorem HandlerPc.measure_le (handler : HandlerPc) {b b' : Bool} (h : b' = true → b = true) :
    handler.measure b' ≤ handler.measure b := by
  cases handler <;> simp only [HandlerPc.measure, Nat.le_refl]
  split <;> simp_all

/-- What `startPing` sets in motion waits for it. -/
structure Staged (s : State) : Prop where
  /-- replies need the socket, and the socket needs `createSocket` -/
  closed : s.pc.beforeSocket = true → s.socket = false ∧ s.handler = .idle
  unscheduled : s.pc ≠ .finished → s.timer = .unscheduled

theorem staged_init : Staged init := by
  constructor <;> simp [init]

/-- A handler runs behind the socket. -/
theorem Staged.of_handler (hs : Staged s) (h : s.handler ≠ .idle) : s.pc.beforeSocket = false :=
  Bool.of_not_eq_true fun hpc => h (hs.closed hpc).2

/-- Every step keeps it. -/
theorem staged_step (hs : Staged s) (h : Transition s l s') : Staged s' := by
  obtain ⟨hclosed, hunscheduled⟩ := hs
  cases h with
  | resolve hpc | resolveFail hpc | createSocket hpc | createSocketFail hpc | callSocketFailed hpc
  | noAddress hpc | assign hpc =>
    constructor <;> simp_all [State.complete, PingPc.beforeSocket]
  | callFailed hpc =>
    constructor <;> rcases hpc with hpc | hpc <;> simp_all [State.complete, PingPc.beforeSocket]
  | hop hpc =>
    constructor <;> rcases hpc with ⟨hpc, rfl⟩ | ⟨hpc, rfl⟩ | ⟨hpc, -, rfl⟩ | ⟨hpc, rfl⟩ <;>
      simp_all [PingPc.beforeSocket]
  -- behind the schedule the timeout is no longer unscheduled
  | schedule hpc => exact ⟨by simp [PingPc.beforeSocket], fun h => absurd rfl h⟩
  | skip htimer | fire htimer | callTimeout htimer =>
    exact ⟨hclosed, fun hpc => by simp [hunscheduled hpc] at htimer⟩
  | stopTimer htimer =>
    exact ⟨fun hpc => ⟨rfl, (hclosed hpc).2⟩, fun hpc => by simp [hunscheduled hpc] at htimer⟩
  -- a reply needs the socket
  | reply hsocket =>
    exact ⟨fun hpc => by simp [(hclosed hpc).1] at hsocket, hunscheduled⟩
  | cancel hhandler | callReply hhandler | stopHandler hhandler =>
    exact ⟨fun hpc => by simp [(hclosed hpc).2] at hhandler, hunscheduled⟩

/-- Where `startPing` goes on, it has come closer to its end, and opens no new way for replies. -/
theorem measure_lt_of_pc (htimer : s'.timer = s.timer) (hhandler : s'.handler = s.handler)
    (hpc : s'.pc.measure < s.pc.measure) (hreply : s'.canReply = true → s.canReply = true) :
    s'.measure < s.measure := by
  have hle := s.handler.measure_le hreply
  simp only [State.measure, htimer, hhandler]
  omega

/-- Every step decreases the measure. -/
theorem measure_lt_of_transition (hs : Staged s) (h : Transition s l s') :
    s'.measure < s.measure := by
  cases h with
  | resolve hpc | resolveFail hpc | createSocket hpc | noAddress hpc | assign hpc
  | callSocketFailed hpc =>
    refine measure_lt_of_pc rfl rfl ?_ ?_ <;>
      simp_all [State.complete, PingPc.measure, State.canReply, PingPc.beforeSocket]
  | callFailed hpc =>
    refine measure_lt_of_pc rfl rfl ?_ ?_ <;> rcases hpc with hpc | hpc <;>
      simp_all [State.complete, PingPc.measure, State.canReply, PingPc.beforeSocket]
  | hop hpc =>
    refine measure_lt_of_pc rfl rfl ?_ ?_ <;>
      rcases hpc with ⟨hpc, rfl⟩ | ⟨hpc, rfl⟩ | ⟨hpc, -, rfl⟩ | ⟨hpc, rfl⟩ <;>
      simp_all [PingPc.measure, State.canReply, PingPc.beforeSocket]
  -- without a socket no reply can come any more
  | createSocketFail hpc =>
    obtain ⟨hsocket, hhandler⟩ := hs.closed (by simp [hpc, PingPc.beforeSocket])
    simp [State.measure, State.canReply, hpc, hhandler, hsocket, PingPc.measure,
      HandlerPc.measure, PingPc.beforeSocket]
  | schedule hpc =>
    have htimer := hs.unscheduled (by simp [hpc])
    simp [State.measure, State.canReply, hpc, htimer, PingPc.measure, TimerPc.measure,
      PingPc.beforeSocket]
  | skip htimer | fire htimer | callTimeout htimer =>
    simp [State.measure, State.canReply, State.complete, htimer, TimerPc.measure]
  -- nor behind `stopPing`
  | stopTimer htimer =>
    have hle : s.handler.measure s.stopPing.canReply ≤ s.handler.measure s.canReply :=
      s.handler.measure_le fun h => by
        simp only [State.stopPing, State.canReply, Bool.false_or] at h ⊢
        simp [h]
    simp only [State.measure, State.stopPing, htimer, TimerPc.measure, State.canReply] at hle ⊢
    omega
  | reply hsocket hhandler =>
    simp [State.measure, State.canReply, hsocket, hhandler, HandlerPc.measure]
  | cancel hhandler | callReply hhandler =>
    simp [State.measure, State.complete, hhandler, HandlerPc.measure]
  | stopHandler hhandler =>
    have hpc := hs.of_handler (by simp [hhandler])
    simp [State.measure, State.stopPing, State.canReply, hhandler, hpc, HandlerPc.measure]

/-! ## The end of a ping -/

/-- What has ended has called the completion, or is about to. -/
structure Accounted (s : State) : Prop where
  /-- only failures end `startPing` before the timeout is scheduled -/
  failed : s.pc = .finished → s.timer = .unscheduled → s.calls ≠ []
  cancelled : s.itemCancelled = true → s.handler = .completing ∨ s.calls ≠ []
  fired : s.timer = .stopping → s.calls ≠ []
  done : s.timer = .done → s.handler = .completing ∨ s.calls ≠ []

theorem accounted_init : Accounted init := by
  constructor <;> simp [init]

/-- Every step keeps it. -/
theorem accounted_step (ha : Accounted s) (h : Transition s l s') : Accounted s' := by
  obtain ⟨hfailed, hcancelled, hfired, hdone⟩ := ha
  cases h with
  | resolve | resolveFail | createSocket | createSocketFail | noAddress | assign =>
    exact ⟨by simp, hcancelled, hfired, hdone⟩
  | hop hpc =>
    refine ⟨fun h => ?_, hcancelled, hfired, hdone⟩
    rcases hpc with ⟨-, rfl⟩ | ⟨-, rfl⟩ | ⟨-, -, rfl⟩ | ⟨-, rfl⟩ <;> cases h
  | schedule => exact ⟨by simp, hcancelled, by simp, by simp⟩
  | callFailed | callSocketFailed | callTimeout | callReply =>
    constructor <;> simp [State.complete]
  | skip htimer hitem => exact ⟨by simp, hcancelled, by simp, fun _ => hcancelled hitem⟩
  | fire => exact ⟨by simp, hcancelled, by simp, by simp⟩
  | stopTimer htimer => exact ⟨by simp, hcancelled, by simp, fun _ => .inr (hfired htimer)⟩
  -- the handler is idle before the one and about to be behind the other
  | reply _ hhandler | stopHandler hhandler =>
    have hcalls {p : Prop} (h : p → s.handler = .completing ∨ s.calls ≠ []) (hp : p) :
        s.calls ≠ [] := (h hp).resolve_left (by simp [hhandler])
    exact ⟨hfailed, fun h => .inr (hcalls hcancelled h), hfired, fun h => .inr (hcalls hdone h)⟩
  | cancel => exact ⟨hfailed, fun _ => .inl rfl, hfired, fun _ => .inl rfl⟩

/-- The ping is over when `startPing` has finished, no reply is being handled or can still come,
    and the work item is not pending. -/
theorem terminal_iff : icmpPing.Terminal s ↔ s.pc = .finished ∧ s.socket = false ∧
    s.handler = .idle ∧ (s.timer = .unscheduled ∨ s.timer = .done) := by
  constructor
  · intro hterm
    -- each party could go on anywhere else
    have hhandler : s.handler = .idle := by
      have := hterm .handler
      cases hhandler : s.handler <;> simp [icmpPing, step, stepHandler, hhandler] at this ⊢
    have hpc : s.pc = .finished := by
      have hnext := hterm .next
      have hresolve := hterm (.resolve true)
      have hcreate := hterm (.createSocket true)
      cases hpc : s.pc <;>
        simp [icmpPing, step, stepPing, hpc, hhandler] at hnext hresolve hcreate ⊢
    have hsocket : s.socket = false := by
      have := hterm .reply
      simpa [icmpPing, step, State.mainBusy, hpc, hhandler] using this
    have htimer : s.timer = .unscheduled ∨ s.timer = .done := by
      have := hterm .timer
      cases htimer : s.timer <;> simp [icmpPing, step, stepTimer, htimer] at this ⊢
    exact ⟨hpc, hsocket, hhandler, htimer⟩
  · rintro ⟨hpc, hsocket, hhandler, htimer⟩ l
    cases l with
    | timer => rcases htimer with h | h <;> simp [icmpPing, step, stepTimer, h]
    | resolve | createSocket | next | reply | handler =>
      simp [icmpPing, step, stepPing, stepHandler, hpc, hsocket, hhandler]

/-- The invariants hold along every run, and its length is bounded. -/
theorem accounted_of_run (h : icmpPing.run init ls = some s) : Accounted s ∧ ls.length ≤ 15 := by
  have hlength := icmpPing.length_add_measure_le_of_run Staged State.measure
    (fun _ _ _ hs hl => ⟨staged_step hs (transition_of_step hl),
      measure_lt_of_transition hs (transition_of_step hl)⟩) staged_init h
  have hinit : init.measure = 15 := by decide
  refine ⟨icmpPing.run_invariant Accounted
    (fun _ _ _ ha hl => accounted_step ha (transition_of_step hl)) accounted_init h, ?_⟩
  omega

/-- When nothing more can happen the completion has been called. -/
theorem Accounted.completed (ha : Accounted s) (hterm : icmpPing.Terminal s) : s.calls ≠ [] := by
  obtain ⟨hpc, -, hhandler, htimer⟩ := terminal_iff.mp hterm
  rcases htimer with htimer | htimer
  · exact ha.failed hpc htimer
  · exact (ha.done htimer).resolve_left (by simp [hhandler])

/-- **Every ping ends.** However the queues interleave, however often replies come, and whether
    or not the host is resolved and the socket created: a run has at most fifteen steps, and when
    nothing more can happen, the completion has been called, the socket is invalidated and the
    timeout is not pending. -/
theorem completed_of_run (ls : List Label) (s : State) (h : icmpPing.run init ls = some s) :
    ls.length ≤ 15 ∧ (icmpPing.Terminal s → s.calls ≠ [] ∧ s.socket = false ∧
      (s.timer = .unscheduled ∨ s.timer = .done)) := by
  obtain ⟨ha, hlength⟩ := accounted_of_run h
  refine ⟨hlength, fun hterm => ⟨ha.completed hterm, ?_⟩⟩
  obtain ⟨-, hsocket, -, htimer⟩ := terminal_iff.mp hterm
  exact ⟨hsocket, htimer⟩

/-- The reply that is handled too early, with all that follows: fifteen steps. -/
theorem completed_of_run_twice :
    let ls : List Label := sentPing ++
      [.reply, .handler, .handler, .handler, .next, .next, .timer, .timer, .timer]
    let s := (icmpPing.run init ls).get (by decide)
    ls.length ≤ 15 ∧ (icmpPing.Terminal s → s.calls ≠ [] ∧ s.socket = false ∧
      (s.timer = .unscheduled ∨ s.timer = .done)) :=
  completed_of_run _ _ (Option.some_get _).symm

/-! ## What the completion is called with -/

/-- The completion has been called with `true`, or is bound to be. -/
def State.Replied (s : State) : Prop :=
  true ∈ s.calls ∨ s.handler = .cancelling ∨ s.handler = .completing

/-- A reply has come if one came before or in this step. -/
theorem replied_iff_of_transition (h : Transition s l s') :
    s'.Replied ↔ s.Replied ∨ l = .reply := by
  simp only [State.Replied]
  cases h <;> simp_all [State.complete, State.stopPing]

/-- Replies are what completes a ping with `true`. -/
theorem replied_iff_of_run (h : icmpPing.run s ls = some s') :
    s'.Replied ↔ s.Replied ∨ .reply ∈ ls := by
  induction ls generalizing s with
  | nil => cases h; simp
  | cons l ls ih =>
    obtain ⟨t, hstep, hrun⟩ := icmpPing.run_cons_eq_some.mp h
    rw [ih hrun, replied_iff_of_transition (transition_of_step hstep), List.mem_cons,
      or_assoc, eq_comm (a := l)]

end LanScan.Ios.ICMPPing
