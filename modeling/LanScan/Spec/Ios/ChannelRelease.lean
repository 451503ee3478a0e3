import LanScan.Native.Ios.MDNSChannel

/-!
# What an mDNS lookup holds (iOS)

`resolve` binds a channel, then schedules a task, and gives both back on the straight
path only.  An error that `joinGroup` or `writeAndFlush` throws leads past that code,
and nobody else knows the channel.

## Key results

- `transition_of_step`: what one step can do
- `held_or_leaked`: what is held as long as nothing is thrown, and after it
- `released_iff`: when all is given back by the time `resolve` returns
- `exists_run_returned`: `resolve` can always come to its end
-/

namespace LanScan.Ios.MDNSChannel

open MDNSResolver

variable {ip : String} {s s' : State} {l : Label}

/-! ## Steps -/

/-- Neither `joinGroup` nor `writeAndFlush` throws in this step. -/
def Succeeds (l : Label) : Prop := l ≠ .joinGroup false ∧ l ≠ .writeAndFlush false

instance : DecidablePred Succeeds := fun _ => inferInstanceAs (Decidable (_ ∧ _))

/-- The step runs into a trap. -/
def Traps (ip : String) (s : State) : Label → Prop
  | .bind _ => s.pc = .binding ∧ getBindPort ip = none
  | .next => s.pc = .requesting ∧ writeRequest ip = none
  | .channelRead responseBytes => s.channel = .open ∧ channelRead ip responseBytes = none
  | .joinGroup _ | .writeAndFlush _ | .timer => False

/-- A step that traps is not one that throws. -/
theorem succeeds_of_traps (h : Traps ip s l) : Succeeds l := by
  refine ⟨?_, ?_⟩ <;> rintro rfl <;> exact h

/-- The transitions of a lookup. -/
inductive Transition (ip : String) (s : State) : Label → State → Prop
  | bind (hpc : s.pc = .binding) :
      Transition ip s (.bind true) { s with pc := .joining, channel := .open }
  | bindThrows (hpc : s.pc = .binding) : Transition ip s (.bind false) s.catch
  | joinGroup (hpc : s.pc = .joining) :
      Transition ip s (.joinGroup true) { s with pc := .scheduling }
  | joinGroupThrows (hpc : s.pc = .joining) : Transition ip s (.joinGroup false) s.catch
  | schedule (hpc : s.pc = .scheduling) :
      Transition ip s .next { s with pc := .requesting, timer := .pending }
  | request {pc'} (hpc : s.pc = .requesting) (hpc' : pc' = .writing ∨ pc' = .awaiting) :
      Transition ip s .next { s with pc := pc' }
  | writeAndFlush (hpc : s.pc = .writing) :
      Transition ip s (.writeAndFlush true) { s with pc := .awaiting }
  | writeAndFlushThrows (hpc : s.pc = .writing) : Transition ip s (.writeAndFlush false) s.catch
  | get {name} (hpc : s.pc = .awaiting) (hpromise : s.promise = some name) :
      Transition ip s .next { s with pc := .cancelling name }
  | cancel {name} (hpc : s.pc = .cancelling name) :
      Transition ip s .next { s with pc := .closing name, timer := s.timer.cancel }
  | close {name} (hpc : s.pc = .closing name) :
      Transition ip s .next { s with pc := .returned name, channel := .closed }
  | channelRead {responseBytes} {promise} (hchannel : s.channel = .open)
      (hpromise : s.promise ≠ none → promise ≠ none) :
      Transition ip s (.channelRead responseBytes) { s with promise := promise }
  | timer (htimer : s.timer = .pending) :
      Transition ip s .timer { s.succeed none with timer := .ran }
  | trap {l'} (htraps : Traps ip s l') : Transition ip s l' { s with pc := .trapped }

/-- Every step of a lookup is one of the listed transitions. -/
theorem transition_of_step (h : step ip s l = some s') :
    s.pc ≠ .trapped ∧ Transition ip s l s' := by
  unfold step at h
  split at h
  · exact nomatch h
  rename_i htrapped
  refine ⟨htrapped, ?_⟩
  -- the steps of the four operations either succeed or throw
  cases l with
  | bind bound =>
    simp only [stepResolve] at h
    split at h
    · rename_i hpc
      split at h
      · rename_i hport; cases h; exact .trap ⟨hpc, hport⟩
      · cases bound with
        | true => cases h; exact .bind hpc
        | false => cases h; exact .bindThrows hpc
    · exact nomatch h
  | joinGroup joined =>
    simp only [stepResolve] at h
    split at h
    · rename_i hpc
      cases joined with
      | true => cases h; exact .joinGroup hpc
      | false => cases h; exact .joinGroupThrows hpc
    · exact nomatch h
  | writeAndFlush written =>
    simp only [stepResolve] at h
    split at h
    · rename_i hpc
      cases written with
      | true => cases h; exact .writeAndFlush hpc
      | false => cases h; exact .writeAndFlushThrows hpc
    · exact nomatch h
  | next =>
    simp only [stepResolve] at h
    split at h
    · rename_i hpc; cases h; exact .schedule hpc
    · rename_i hpc
      split at h
      · rename_i hrequest; cases h; exact .trap ⟨hpc, hrequest⟩
      · cases h; exact .request hpc (.inr rfl)
      · cases h; exact .request hpc (.inl rfl)
    · rename_i hpc
      -- `get` waits for the promise
      obtain ⟨name, hpromise, rfl⟩ := Option.map_eq_some_iff.mp h
      exact .get hpc hpromise
    · rename_i hpc; cases h; exact .cancel hpc
    · rename_i hpc; cases h; exact .close hpc
    all_goals exact nomatch h
  | channelRead responseBytes =>
    simp only at h
    split at h
    · rename_i hchannel
      split at h
      -- a datagram that the handler cannot read traps
      · rename_i hread; cases h; exact .trap ⟨hchannel, hread⟩
      · cases h; exact .channelRead hchannel id
      · cases h; exact .channelRead hchannel fun _ => by simp
    · exact nomatch h
  | timer =>
    simp only at h
    split at h
    · rename_i htimer; cases h; exact .timer htimer
    · exact nomatch h

/-! ## What is held -/

/-- The channel is not open, and the timeout task is not pending. -/
def Released (s : State) : Prop := s.channel ≠ .open ∧ s.timer ≠ .pending

/-- What `resolve` holds, step by step. -/
def Held (s : State) : Prop :=
  match s.pc with
  | .binding => s.channel = .unbound ∧ s.timer = .unscheduled
  | .joining | .scheduling => s.channel = .open ∧ s.timer = .unscheduled
  | .requesting | .writing | .awaiting | .cancelling _ =>
    s.channel = .open ∧ (s.timer = .pending ∨ s.timer = .ran)
  | .closing _ => s.channel = .open ∧ (s.timer = .cancelled ∨ s.timer = .ran)
  | .returned _ => Released s
  | .trapped => True

/-- `resolve` is over, and its channel is open. -/
def Leaked (s : State) : Prop :=
  s.channel = .open ∧ ((∃ name, s.pc = .returned name) ∨ s.pc = .trapped)

/-- At first there is no channel. -/
theorem held_init : Held init := ⟨rfl, rfl⟩

/-- Without an error from `joinGroup` or `writeAndFlush` all is given back in the end. -/
theorem held_step (hs : Held s) (hl : Succeeds l) (h : step ip s l = some s') : Held s' := by
  obtain ⟨-, ht⟩ := transition_of_step h
  unfold Held at hs
  cases ht with
  | bind hpc =>
    rw [hpc] at hs
    exact ⟨rfl, hs.2⟩
  | bindThrows hpc =>
    -- there is no channel yet
    rw [hpc] at hs
    exact ⟨by simp [State.catch, hs.1], by simp [State.catch, hs.2]⟩
  | joinGroup hpc =>
    rw [hpc] at hs
    exact hs
  | joinGroupThrows hpc => exact absurd rfl hl.1
  | schedule hpc =>
    rw [hpc] at hs
    exact ⟨hs.1, .inl rfl⟩
  | request hpc hpc' =>
    rw [hpc] at hs
    rcases hpc' with rfl | rfl <;> exact hs
  | writeAndFlush hpc =>
    rw [hpc] at hs
    exact hs
  | writeAndFlushThrows hpc => exact absurd rfl hl.2
  | get hpc hpromise =>
    rw [hpc] at hs
    exact hs
  | cancel hpc =>
    rw [hpc] at hs
    rcases hs with ⟨hchannel, htimer | htimer⟩
    · exact ⟨hchannel, .inl (by simp [htimer, Timer.cancel])⟩
    · exact ⟨hchannel, .inr (by simp [htimer, Timer.cancel])⟩
  | close hpc =>
    rw [hpc] at hs
    rcases hs with ⟨-, htimer | htimer⟩ <;> exact ⟨by simp, by simp [htimer]⟩
  | channelRead hchannel hpromise => exact hs
  | timer htimer =>
    -- the task is pending from its scheduling to its cancellation
    cases hpc : s.pc with
    | requesting | writing | awaiting | cancelling name =>
      rw [hpc] at hs
      simp only [Held, State.succeed, hpc]
      exact ⟨hs.1, .inr trivial⟩
    | binding | joining | scheduling | closing name =>
      rw [hpc] at hs
      simp [htimer] at hs
    | returned name =>
      rw [hpc] at hs
      exact absurd htimer hs.2
    | trapped => simp [Held, State.succeed, hpc]
  | trap => trivial

/-- An error that is thrown behind `bind` leaves the channel open. -/
theorem leaked_of_throws (hs : Held s) (hl : ¬ Succeeds l) (h : step ip s l = some s') :
    Leaked s' := by
  obtain ⟨-, ht⟩ := transition_of_step h
  unfold Held at hs
  cases ht with
  | joinGroupThrows hpc | writeAndFlushThrows hpc =>
    rw [hpc] at hs
    exact ⟨hs.1, .inl ⟨none, rfl⟩⟩
  | trap htraps => exact absurd (succeeds_of_traps htraps) hl
  | _ => exact absurd ⟨nofun, nofun⟩ hl

/-- Nothing closes it any more. -/
theorem leaked_step (hs : Leaked s) (h : step ip s l = some s') : Leaked s' := by
  obtain ⟨htrapped, ht⟩ := transition_of_step h
  obtain ⟨hchannel, hpc⟩ := hs
  obtain ⟨name, hreturned⟩ := hpc.resolve_right htrapped
  -- The lookup has returned; what still happens does not close the channel.
  cases ht with
  | channelRead _ _ => exact ⟨hchannel, .inl ⟨name, hreturned⟩⟩
  | timer _ => exact ⟨hchannel, .inl ⟨name, hreturned⟩⟩
  | trap => exact ⟨hchannel, .inr rfl⟩
  | bind hpc' | bindThrows hpc' | joinGroup hpc' | joinGroupThrows hpc' | schedule hpc'
  | writeAndFlush hpc' | writeAndFlushThrows hpc' | cancel hpc' | close hpc' =>
    rw [hreturned] at hpc'
    exact nomatch hpc'
  | request hpc' _ | get hpc' _ =>
    rw [hreturned] at hpc'
    exact nomatch hpc'

/-- What `resolve` holds after a run. -/
theorem held_or_leaked {ls : List Label}
    (h : (mdnsLookup ip).run (mdnsLookup ip).init ls = some s) :
    (∀ l ∈ ls, Succeeds l) ∧ Held s ∨ (∃ l ∈ ls, ¬ Succeeds l) ∧ Leaked s :=
  (mdnsLookup ip).run_invariant_until Held Leaked (fun _ _ _ => held_step)
    (fun _ _ _ => leaked_of_throws) (fun _ _ _ => leaked_step) held_init h

/-- By the time `resolve` returns, the channel is closed and the timeout task cancelled
    or run, if and only if neither `joinGroup` nor `writeAndFlush` has thrown. -/
theorem released_iff {name : Option String} {ls : List Label}
    (h : (mdnsLookup ip).run (mdnsLookup ip).init ls = some s) (hpc : s.pc = .returned name) :
    Released s ↔ ∀ l ∈ ls, l ≠ .joinGroup false ∧ l ≠ .writeAndFlush false := by
  rcases held_or_leaked h with ⟨hall, hheld⟩ | ⟨⟨l, hl, hthrows⟩, hleaked⟩
  · unfold Held at hheld
    rw [hpc] at hheld
    exact ⟨fun _ => hall, fun _ => hheld⟩
  · exact ⟨fun hreleased => absurd hleaked.1 hreleased.1, fun hall => absurd (hall l hl) hthrows⟩

/-- A lookup of 10.0.0.5 that nobody answers. -/
theorem released_timeout : Released ⟨.returned none, .closed, .ran, some none⟩ :=
  (released_iff (show (mdnsLookup "10.0.0.5").run init [.bind true, .joinGroup true, .next, .next,
    .writeAndFlush true, .timer, .next, .next, .next] = some _ by decide) rfl).mpr (by decide)

/-- `joinGroup` throws: `nil` is returned, and the channel is open. -/
theorem channel_leaked : ¬ ∀ ip ls (s : State) name,
    (mdnsLookup ip).run (mdnsLookup ip).init ls = some s → s.pc = .returned name →
      Released s := by
  intro h
  have hreleased := h "10.0.0.5" [.bind true, .joinGroup false]
    ⟨.returned none, .open, .unscheduled, none⟩ none (by decide) rfl
  exact hreleased.1 rfl

/-! ## Coming to an end -/

/-- No datagram comes. -/
def Quiet : Label → Prop
  | .channelRead _ => False
  | _ => True

instance : DecidablePred Quiet
  | .channelRead _ => inferInstanceAs (Decidable False)
  | .bind _ | .joinGroup _ | .writeAndFlush _ | .next | .timer => inferInstanceAs (Decidable True)

/-- The lookup without datagrams. -/
def quietLookup (ip : String) : Lts State Label := (mdnsLookup ip).restrict fun _ l => Quiet l

/-- How far `resolve` is from its end. -/
def Pc.rank : Pc → Nat
  | .binding => 8
  | .joining => 7
  | .scheduling => 6
  | .requesting => 5
  | .writing => 4
  | .awaiting => 3
  | .cancelling _ => 2
  | .closing _ => 1
  | .returned _ | .trapped => 0

/-- The step that a pending task still has. -/
def Timer.rank : Timer → Nat
  | .pending => 1
  | .unscheduled | .ran | .cancelled => 0

/-- Number of steps left, at most. -/
def State.measure (s : State) : Nat := 2 * s.pc.rank + s.timer.rank

/-- A timer fires once. -/
theorem Timer.rank_le (timer : Timer) : timer.rank ≤ 1 := by
  cases timer <;> decide

/-- Each step other than a datagram leaves less to do. -/
theorem measure_lt_of_transition (hl : Quiet l) (h : Transition ip s l s') :
    s'.measure < s.measure := by
  -- the timer is counted apart from the thread
  have htimer := s.timer.rank_le
  cases h with
  | channelRead _ _ => exact hl.elim
  | trap htraps =>
    match l, htraps with
    | .bind _, ⟨hpc, _⟩ | .next, ⟨hpc, _⟩ => simp [State.measure, hpc, Pc.rank]
  | bind hpc | bindThrows hpc | joinGroup hpc | joinGroupThrows hpc | writeAndFlush hpc
  | writeAndFlushThrows hpc | get hpc _ | close hpc =>
    simp only [State.measure, State.catch, hpc, Pc.rank]
    omega
  | request hpc hpc' =>
    rcases hpc' with rfl | rfl <;> simp only [State.measure, hpc, Pc.rank] <;> omega
  | schedule hpc =>
    simp only [State.measure, hpc, Pc.rank, Timer.rank]
    omega
  | cancel hpc =>
    have hcancel := s.timer.cancel.rank_le
    simp only [State.measure, hpc, Pc.rank]
    omega
  | timer hpending => simp [State.measure, State.succeed, hpending, Timer.rank]

/-- Each step of a lookup without datagrams leaves less to do. -/
theorem measure_lt_of_quietLookup (h : (quietLookup ip).step s l = some s') :
    s'.measure < s.measure := by
  obtain ⟨hl, hstep⟩ := ((mdnsLookup ip).restrict_step_eq_some _).mp h
  exact measure_lt_of_transition hl (transition_of_step hstep).2

/-- The task fulfils the promise. -/
def Fulfilled (s : State) : Prop := s.timer = .ran → s.promise ≠ none

/-- Every step keeps it. -/
theorem fulfilled_step (hs : Fulfilled s) (h : step ip s l = some s') : Fulfilled s' := by
  obtain ⟨-, ht⟩ := transition_of_step h
  cases ht with
  | schedule _ => exact nofun
  -- A timer that ran cannot be cancelled any more.
  | cancel _ =>
    intro hran
    apply hs
    cases htimer : s.timer with
    | ran => rfl
    | unscheduled | pending | cancelled => simp [htimer, Timer.cancel] at hran
  | channelRead _ hpromise => exact fun hran => hpromise (hs hran)
  | timer _ => exact fun _ => by simp [State.succeed]
  | bind _ | bindThrows _ | joinGroup _ | joinGroupThrows _ | request _ _ | writeAndFlush _
  | writeAndFlushThrows _ | get _ _ | close _ | trap _ => exact hs

/-- Without datagrams nothing traps, for an address that has a port and a request. -/
theorem not_trapped_step (hport : getBindPort ip ≠ none) (hrequest : writeRequest ip ≠ none)
    (hl : Quiet l) (hs : s.pc ≠ .trapped) (h : step ip s l = some s') : s'.pc ≠ .trapped := by
  obtain ⟨-, ht⟩ := transition_of_step h
  cases ht with
  | trap htraps =>
    -- Of the traps only these two remain, and both are excluded by assumption.
    match l, htraps with
    | .bind _, ⟨_, hnone⟩ => exact absurd hnone hport
    | .next, ⟨_, hnone⟩ => exact absurd hnone hrequest
  | request _ hpc' => rcases hpc' with rfl | rfl <;> nofun
  | channelRead _ _ => exact hl.elim
  | timer _ => exact hs
  | bind _ | bindThrows _ | joinGroup _ | joinGroupThrows _ | schedule _ | writeAndFlush _
  | writeAndFlushThrows _ | get _ _ | cancel _ | close _ => nofun

/-- Where nothing moves any more without a datagram, `resolve` has returned. -/
theorem returned_of_terminal (hport : getBindPort ip ≠ none) (hrequest : writeRequest ip ≠ none)
    (hheld : Held s ∨ Leaked s) (hfulfilled : Fulfilled s) (htrapped : s.pc ≠ .trapped)
    (h : (quietLookup ip).Terminal s) : ∃ name, s.pc = .returned name := by
  have hnone (l : Label) (hl : Quiet l) : step ip s l = none := by
    have hterminal := h l
    simp only [quietLookup, Lts.restrict, if_pos hl] at hterminal
    exact hterminal
  cases hpc : s.pc with
  | binding =>
    have hstep := hnone (.bind true) trivial
    obtain ⟨port, hport⟩ := Option.ne_none_iff_exists'.mp hport
    simp [step, stepResolve, hpc, hport] at hstep
  | joining =>
    have hstep := hnone (.joinGroup true) trivial
    simp [step, stepResolve, hpc] at hstep
  | writing =>
    have hstep := hnone (.writeAndFlush true) trivial
    simp [step, stepResolve, hpc] at hstep
  | scheduling | cancelling _ | closing _ =>
    have hstep := hnone .next trivial
    simp [step, stepResolve, hpc] at hstep
  | requesting =>
    have hstep := hnone .next trivial
    obtain ⟨data, hrequest⟩ := Option.ne_none_iff_exists'.mp hrequest
    cases data <;> simp [step, stepResolve, hpc, hrequest] at hstep
  | awaiting =>
    -- the task is still pending, or has fulfilled the promise
    have htimer : s.timer = .pending ∨ s.timer = .ran := by
      rcases hheld with hheld | ⟨-, ⟨name, hreturned⟩ | htrapped'⟩
      · unfold Held at hheld
        rw [hpc] at hheld
        exact hheld.2
      · exact Pc.noConfusion (hpc.symm.trans hreturned)
      · exact absurd htrapped' htrapped
    rcases htimer with hpending | hran
    · have hstep := hnone .timer trivial
      simp [step, hpc, hpending] at hstep
    · obtain ⟨name, hpromise⟩ := Option.ne_none_iff_exists'.mp (hfulfilled hran)
      have hstep := hnone .next trivial
      simp [step, stepResolve, hpc, hpromise] at hstep
  | returned name => exact ⟨name, rfl⟩
  | trapped => exact absurd hpc htrapped

/-- From every state of a lookup, `resolve` can come to its end without a datagram. -/
theorem exists_run_returned (hport : getBindPort ip ≠ none) (hrequest : writeRequest ip ≠ none)
    {ks : List Label} (h : (mdnsLookup ip).run (mdnsLookup ip).init ks = some s)
    (htrapped : s.pc ≠ .trapped) :
    ∃ ls s' name, (quietLookup ip).run s ls = some s' ∧ s'.pc = .returned name := by
  obtain ⟨ls, s', hquiet, hterminal⟩ :=
    Lts.exists_run_terminal (M := quietLookup ip) (fun _ _ _ => measure_lt_of_quietLookup) s
  have hwhole : (mdnsLookup ip).run init (ks ++ ls) = some s' := by
    rw [Lts.run_append]
    exact (congrArg (Option.bind · _) h).trans ((mdnsLookup ip).run_of_run_restrict _ hquiet)
  -- Three invariants of the whole run leave the return as the only end.
  have hfulfilled := (mdnsLookup ip).run_invariant Fulfilled (fun _ _ _ => fulfilled_step)
    (show Fulfilled init by nofun) hwhole
  have htrapped' := (mdnsLookup ip).run_restrict_invariant _ (fun t => t.pc ≠ .trapped)
    (fun _ _ _ ht hl => not_trapped_step hport hrequest hl ht) htrapped hquiet
  have hheld : Held s' ∨ Leaked s' := (held_or_leaked hwhole).imp And.right And.right
  obtain ⟨name, hname⟩ :=
    returned_of_terminal hport hrequest hheld hfulfilled htrapped' hterminal
  exact ⟨ls, s', name, hquiet, hname⟩

end LanScan.Ios.MDNSChannel
