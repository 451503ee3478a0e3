import LanScan.Native.Ios.ICMPPing

/-!
# How often a ping completes (iOS)

The completion closure is called from five places.  Nothing records that it has
been called: a socket that cannot be created does not keep `sendPing` from
starting the timer, a reply that is handled before the work item is assigned
cancels nothing, and one that is handled after the item has begun to fire comes
too late.  Apart from these the calls exclude each other.

## Key results

- `transition_of_step`: what one step can do
- `budget_step`: at most one call is made or bound to be made, if every reply
  finds the work item pending
- `length_calls_le_one_of_timelyReply`: the completion is called at most once
- `completed_twice`: a run in which it is called twice
-/

namespace LanScan.Ios.ICMPPing

variable {s s' : State} {l : Label}

/-! ## Steps -/

/-- The transitions of a ping. -/
inductive Transition (s : State) : Label → State → Prop
  | resolve (hpc : s.pc = .resolving) :
      Transition s (.resolve true) { s with pc := .resolved, addressData := true }
  | resolveFail (hpc : s.pc = .resolving) :
      Transition s (.resolve false) { s with pc := .resolveFailed }
  | createSocket (hpc : s.pc = .creating) (hhandler : s.handler = .idle) :
      Transition s (.createSocket true) { s with pc := .created, socket := true }
  | createSocketFail (hpc : s.pc = .creating) :
      Transition s (.createSocket false) { s with pc := .socketFailed }
  | callFailed (hpc : s.pc = .resolveFailed ∨ s.pc = .noAddress) :
      Transition s .next { s.complete false with pc := .finished }
  | callSocketFailed (hpc : s.pc = .socketFailed) :
      Transition s .next { s.complete false with pc := .created }
  | hop {pc'} (hpc : s.pc = .resolved ∧ pc' = .creating ∨ s.pc = .created ∧ pc' = .sending ∨
        s.pc = .sending ∧ s.addressData = true ∧ pc' = .sendPacket ∨
        s.pc = .sendPacket ∧ pc' = .assigning) :
      Transition s .next { s with pc := pc' }
  | noAddress (hpc : s.pc = .sending) (hdata : s.addressData = false) :
      Transition s .next { s with pc := .noAddress }
  | assign (hpc : s.pc = .assigning) :
      Transition s .next { s with pc := .scheduling, timeoutWorkItem := true }
  | schedule (hpc : s.pc = .scheduling) :
      Transition s .next { s with pc := .finished, timer := .scheduled }
  | skip (htimer : s.timer = .scheduled) (hcancelled : s.itemCancelled = true) :
      Transition s .timer { s with timer := .done }
  | fire (htimer : s.timer = .scheduled) (hcancelled : s.itemCancelled = false) :
      Transition s .timer { s with timer := .firing }
  | callTimeout (htimer : s.timer = .firing) :
      Transition s .timer { s.complete false with timer := .stopping }
  | stopTimer (htimer : s.timer = .stopping) :
      Transition s .timer { s.stopPing with timer := .done }
  | reply (hsocket : s.socket = true) (hhandler : s.handler = .idle) :
      Transition s .reply { s with handler := .cancelling }
  | cancel (hhandler : s.handler = .cancelling) :
      Transition s .handler
        { s with handler := .completing, itemCancelled := s.itemCancelled || s.timeoutWorkItem }
  | callReply (hhandler : s.handler = .completing) :
      Transition s .handler { s.complete true with handler := .stopping }
  | stopHandler (hhandler : s.handler = .stopping) :
      Transition s .handler { s.stopPing with handler := .idle }

/-- The transitions of the thread that starts the ping. -/
private theorem transition_of_next (h : stepPing s .next = some s') : Transition s .next s' := by
  simp only [stepPing] at h
  split at h
  · rename_i hpc; cases h; exact .callFailed (.inl hpc)
  · rename_i hpc; cases h; exact .hop (.inl ⟨hpc, rfl⟩)
  · rename_i hpc; cases h; exact .callSocketFailed hpc
  · rename_i hpc; cases h; exact .hop (.inr (.inl ⟨hpc, rfl⟩))
  · rename_i hpc
    -- Without address data the ping ends before it sends.
    by_cases hdata : s.addressData = true
    · rw [if_pos hdata] at h; cases h; exact .hop (.inr (.inr (.inl ⟨hpc, hdata, rfl⟩)))
    · rw [if_neg hdata] at h; cases h; exact .noAddress hpc (by simpa using hdata)
  · rename_i hpc; cases h; exact .callFailed (.inr hpc)
  · rename_i hpc; cases h; exact .hop (.inr (.inr (.inr ⟨hpc, rfl⟩)))
  · rename_i hpc; cases h; exact .assign hpc
  · rename_i hpc; cases h; exact .schedule hpc
  all_goals exact nomatch h

/-- The transitions of the timeout. -/
private theorem transition_of_stepTimer (h : stepTimer s = some s') : Transition s .timer s' := by
  unfold stepTimer at h
  split at h
  · rename_i htimer
    -- A cancelled work item is taken off the queue without running.
    by_cases hcancelled : s.itemCancelled = true
    · rw [if_pos hcancelled] at h; cases h; exact .skip htimer hcancelled
    · rw [if_neg hcancelled] at h; cases h; exact .fire htimer (by simpa using hcancelled)
  · rename_i htimer; cases h; exact .callTimeout htimer
  · rename_i htimer; cases h; exact .stopTimer htimer
  all_goals exact nomatch h

/-- The transitions of the handler of a reply. -/
private theorem transition_of_stepHandler (h : stepHandler s = some s') :
    Transition s .handler s' := by
  unfold stepHandler at h
  split at h
  · exact nomatch h
  · rename_i hhandler; cases h; exact .cancel hhandler
  · rename_i hhandler; cases h; exact .callReply hhandler
  · rename_i hhandler; cases h; exact .stopHandler hhandler

/-- Every step of a ping is one of the listed transitions. -/
theorem transition_of_step (h : step s l = some s') : Transition s l s' := by
  cases l with
  -- the steps with an outcome: the host, the socket, and a reply
  | resolve resolved =>
    simp only [step, stepPing] at h
    split at h
    · rename_i hpc
      cases resolved with
      | true => cases h; exact .resolve hpc
      | false => cases h; exact .resolveFail hpc
    · exact nomatch h
  | createSocket created =>
    simp only [step, stepPing] at h
    split at h
    · rename_i hok
      cases created with
      | true => cases h; exact .createSocket hok.1 hok.2
      | false => cases h; exact .createSocketFail hok.1
    · exact nomatch h
  | next => exact transition_of_next h
  | timer => exact transition_of_stepTimer h
  | reply =>
    simp only [step] at h
    split at h
    · rename_i hok; cases h; exact .reply hok.1 hok.2.1
    · exact nomatch h
  | handler => exact transition_of_stepHandler h

/-! ## The budget -/

/-- The socket can be created, and every reply cancels the timeout work item after
    it was assigned and before it has begun to fire. -/
def TimelyReply (s : State) (l : Label) : Prop :=
  match l with
  | .createSocket created => created = true
  | .handler => s.handler = .cancelling →
      s.timeoutWorkItem = true ∧ (s.timer = .unscheduled ∨ s.timer = .scheduled)
  | _ => True

instance (s : State) (l : Label) : Decidable (TimelyReply s l) :=
  match l with
  | .createSocket _ => inferInstanceAs (Decidable (_ = _))
  | .handler => inferInstanceAs (Decidable (_ → _))
  | .resolve _ | .next | .timer | .reply => isTrue trivial

/-- The calls of the completion that are bound to be made by what has begun. -/
@[grind] def State.due (s : State) : Nat :=
  (if s.pc = .resolveFailed ∨ s.pc = .socketFailed ∨ s.pc = .noAddress then 1 else 0) +
    (if s.handler = .completing then 1 else 0) + (if s.timer = .firing then 1 else 0)

/-- The calls of the completion, made or bound to be made. -/
@[grind] def State.completions (s : State) : Nat := s.calls.length + s.due

/-- At most one call, and none that the pending work item does not know of. -/
structure Budget (s : State) : Prop where
  le_one : s.completions ≤ 1
  /-- the failures that would call the completion too soon do not occur -/
  noFailure : s.pc ≠ .socketFailed ∧ s.pc ≠ .noAddress
  data : s.pc = .resolved ∨ s.pc = .creating ∨ s.pc = .created ∨ s.pc = .sending →
    s.addressData = true
  /-- the work item is assigned right before it is scheduled -/
  assigned : s.timeoutWorkItem = true → s.pc = .scheduling ∨ s.pc = .finished
  scheduling : s.pc = .scheduling → s.timeoutWorkItem = true ∧ s.timer = .unscheduled
  /-- before that, only a failed resolution completes the ping -/
  early : s.timeoutWorkItem = false → s.timer = .unscheduled ∧ s.itemCancelled = false ∧
    (s.handler = .idle ∨ s.handler = .cancelling) ∧
    (s.pc ≠ .resolveFailed → s.pc ≠ .finished → s.completions = 0)
  /-- as long as the work item is pending, nothing has completed the ping -/
  pending : s.timeoutWorkItem = true → s.itemCancelled = false →
    s.timer = .unscheduled ∨ s.timer = .scheduled → s.completions = 0
  /-- the reply that cancelled the item is the last one -/
  cancelled : s.itemCancelled = true → s.handler = .completing ∨ s.handler = .stopping ∨
    s.handler = .idle ∧ s.socket = false

theorem budget_init : Budget init := by
  constructor <;> simp [init, State.completions, State.due]

/-- A work item that is scheduled has been assigned. -/
theorem Budget.timeoutWorkItem_of_scheduled (hb : Budget s) (htimer : s.timer = .scheduled) :
    s.timeoutWorkItem = true := by
  apply Bool.of_not_eq_false
  intro hitem
  have hunscheduled := (hb.early hitem).1
  rw [htimer] at hunscheduled
  exact nomatch hunscheduled

/-- A reply that is about to cancel the work item is the first to do so. -/
theorem Budget.itemCancelled_of_cancelling (hb : Budget s) (hhandler : s.handler = .cancelling) :
    s.itemCancelled = false := by
  apply Bool.of_not_eq_true
  intro hcancelled
  have hafter := hb.cancelled hcancelled
  simp [hhandler] at hafter

/-- Every step keeps it, if a reply comes in time to cancel the timeout. -/
theorem budget_step (hb : Budget s) (htimely : TimelyReply s l) (h : Transition s l s') :
    Budget s' := by
  have ⟨hle, hnoFailure, hdata, hassigned, hscheduling, hearly, hpending, hcancelled⟩ := hb
  cases h with
  -- the block would go on to `sendPing` and call the completion again
  | createSocketFail => exact nomatch htimely
  | resolve hpc | resolveFail hpc | createSocket hpc | hop hpc | noAddress hpc | assign hpc
  | schedule hpc =>
    -- `startPing` goes on: nothing completes the ping but a failed resolution
    constructor <;> grind -ring -linarith
  -- a call that was due is made: the sum stays
  | callFailed hpc | callSocketFailed hpc => constructor <;> grind -ring -linarith [State.complete]
  | fire htimer hnotCancelled =>
    have hitem := hb.timeoutWorkItem_of_scheduled htimer
    -- an item that fires was pending, so its call is the first
    have hzero := hpending hitem hnotCancelled (.inr htimer)
    constructor <;> grind -ring -linarith
  | skip htimer =>
    have hitem := hb.timeoutWorkItem_of_scheduled htimer
    constructor <;> grind -ring -linarith
  | callTimeout htimer | stopTimer htimer =>
    constructor <;> grind -ring -linarith [State.complete, State.stopPing]
  | reply hsocket hhandler => constructor <;> grind -ring -linarith
  | cancel hhandler =>
    -- the item is pending, so the handler takes over from it
    have ⟨hitem, htimer⟩ := htimely hhandler
    have hzero := hpending hitem (hb.itemCancelled_of_cancelling hhandler) htimer
    constructor <;> grind -ring -linarith
  | callReply hhandler | stopHandler hhandler =>
    constructor <;> grind -ring -linarith [State.complete, State.stopPing]

/-! ## At most one call -/

/-- **One completion.** In every run in which the socket can be created and each
    reply cancels the timeout work item after it was assigned and before it has
    begun to fire, the completion is called at most once. -/
theorem length_calls_le_one_of_timelyReply (ls : List Label) (s : State)
    (h : (icmpPing.restrict TimelyReply).run init ls = some s) : s.calls.length ≤ 1 := by
  have hb : Budget s :=
    icmpPing.run_restrict_invariant TimelyReply Budget
      (fun _ _ _ hb htimely hs => budget_step hb htimely (transition_of_step hs)) budget_init h
  have hle := hb.le_one
  rw [State.completions] at hle
  omega

/-- From the resolution to the packet. -/
def sentPing : List Label :=
  [.resolve true, .next, .createSocket true, .next, .next, .next]

/-- The reply comes while the timeout is pending. -/
theorem length_calls_le_one_of_timelyReply_pong :
    (((icmpPing.restrict TimelyReply).run init
      (sentPing ++ [.next, .next, .reply, .handler, .handler, .handler, .timer])).get
        (by decide)).calls.length ≤ 1 :=
  length_calls_le_one_of_timelyReply _ _ (Option.some_get _).symm

/-- The reply is handled after the packet was sent and before the work item is
    assigned; the timeout completes the ping a second time. -/
theorem completed_twice : ¬ ∀ (ls : List Label) (s : State), icmpPing.run init ls = some s →
    s.calls.length ≤ 1 := by
  intro h
  let ls := sentPing ++
    [.reply, .handler, .handler, .handler, .next, .next, .timer, .timer]
  have hrun : (icmpPing.run init ls).map (·.calls) = some [true, false] := by decide
  obtain ⟨s, hs, hcalls⟩ := Option.map_eq_some_iff.mp hrun
  have hle := h ls s hs
  rw [hcalls] at hle
  exact absurd hle (by decide)

end LanScan.Ios.ICMPPing
