import LanScan.Native.Ios.ICMPSockets
import LanScan.Spec.Ios.PingCompletion

/-!
# What a ping takes for an answer (iOS)

The callback of `createSocket` looks at the identifier of a datagram, not at its type
and not at its sender.  A completion with `true` goes back to a datagram with the
identifier of the pinger; that one can be of any type and come from any address.

## Key results

- `heard_of_run`: before the completion is called with `true`, a datagram with the
  identifier of the pinger is delivered
- `isEchoReply_of_mem_calls`: an echo reply of the host is delivered, if the first of these
  datagrams is one
- `found_without_echoReply`: a silent host is found by the reply of another
- `exists_run_of_not_firstIsEchoReply`: any other first datagram leads to such a run
-/

namespace LanScan.Ios

namespace ICMPPing

variable {s s' : State} {l : Label}

/-- The completion has been called with `true`, or a reply is being handled. -/
def State.Answered (s : State) : Prop := true ∈ s.calls ∨ s.handler ≠ .idle

/-- Only a reply makes a ping answered. -/
theorem answered_of_transition (h : Transition s l s') (ha : s'.Answered) :
    s.Answered ∨ l = .reply := by
  simp only [State.Answered] at ha ⊢
  cases h with
  | reply => exact .inr rfl
  | cancel hhandler | callReply hhandler | stopHandler hhandler => simp [hhandler]
  | callFailed | callSocketFailed | callTimeout => simpa [State.complete] using ha
  | stopTimer => simpa [State.stopPing] using ha
  | resolve | resolveFail | createSocket | createSocketFail | hop | noAddress | assign | schedule
  | skip | fire => exact .inl ha

/-- Once a reply is being handled, the completion can be called with `true`. -/
theorem exists_calls_of_cancelling (h : s.handler = .cancelling) :
    ∃ t u, step s .handler = some t ∧ step t .handler = some u ∧ true ∈ u.calls := by
  refine ⟨{ s with handler := .completing, itemCancelled := s.itemCancelled || s.timeoutWorkItem },
    _, ?_, rfl, ?_⟩
  · simp [step, stepHandler, h]
  · simp [State.complete]

end ICMPPing

namespace ICMPSockets

variable {tools : List ICMPPingTool} {s s' : State} {l : Label}

/-! ## Steps -/

/-- The transitions of the pings. -/
inductive Transition (tools : List ICMPPingTool) (s : State) : Label → State → Prop
  | ping {k l ping ping'} (hping : s.pings[k]? = some ping) (hl : l ≠ .reply)
      (h : ICMPPing.Transition ping l ping') :
      Transition tools s (.ping k l) { s with pings := s.pings.set k ping' }
  | ignore {k datagram icmpTool} (htool : tools[k]? = some icmpTool)
      (hcallback : callback icmpTool datagram = false) :
      Transition tools s (.deliver k datagram)
        { s with delivered := s.delivered ++ [(k, datagram)] }
  | accept {k datagram icmpTool ping ping'} (htool : tools[k]? = some icmpTool)
      (hcallback : callback icmpTool datagram = true) (hping : s.pings[k]? = some ping)
      (h : ICMPPing.Transition ping .reply ping') :
      Transition tools s (.deliver k datagram)
        { pings := s.pings.set k ping', delivered := s.delivered ++ [(k, datagram)] }

/-- The transitions of a datagram. -/
private theorem transition_of_stepDeliver {k : Nat} {datagram : Datagram}
    (h : stepDeliver tools s k datagram = some s') :
    Transition tools s (.deliver k datagram) s' := by
  cases htool : tools[k]? with
  | none => simp [stepDeliver, htool] at h
  | some icmpTool =>
    cases hping : s.pings[k]? with
    | none => simp [stepDeliver, htool, hping] at h
    | some ping =>
      simp only [stepDeliver, htool, hping] at h
      split at h
      -- The callback compares the identifier; without a match the datagram is ignored.
      · by_cases hcallback : callback icmpTool datagram = true
        · simp only [hcallback, if_true, Option.map_eq_some_iff] at h
          obtain ⟨ping', hstep, rfl⟩ := h
          exact .accept htool hcallback hping (ICMPPing.transition_of_step hstep)
        · rw [if_neg hcallback] at h
          cases h
          exact .ignore htool (by simpa using hcallback)
      · cases h

/-- Every step of the pings is one of the listed transitions. -/
theorem transition_of_step (h : step tools s l = some s') : Transition tools s l s' := by
  cases l with
  | deliver k datagram => exact transition_of_stepDeliver h
  | ping k l =>
    by_cases hl : l = .reply
    · simp [hl, step] at h
    · cases hping : s.pings[k]? with
      | none => simp [step, hping] at h
      | some ping =>
        simp only [step, hping] at h
        split at h
        · cases h
        · obtain ⟨ping', hstep, rfl⟩ := Option.map_eq_some_iff.mp h
          exact .ping hping hl (ICMPPing.transition_of_step hstep)

/-! ## The identifier -/

/-- A datagram with the identifier of a pinger has been delivered to its socket. -/
def Heard (s : State) (k : Nat) (icmpTool : ICMPPingTool) : Prop :=
  ∃ entry ∈ s.delivered, entry.1 = k ∧ callback icmpTool entry.2 = true

instance (s : State) (k : Nat) (icmpTool : ICMPPingTool) : Decidable (Heard s k icmpTool) :=
  inferInstanceAs (Decidable (∃ entry ∈ s.delivered, entry.1 = k ∧ _))

/-- Every pinger that is answered has heard its identifier. -/
def AllHeard (tools : List ICMPPingTool) (s : State) : Prop :=
  ∀ k icmpTool ping, tools[k]? = some icmpTool → s.pings[k]? = some ping → ping.Answered →
    Heard s k icmpTool

/-- At first nothing has been heard. -/
theorem allHeard_init : AllHeard tools (init tools) := by
  intro k icmpTool ping htool hping ha
  simp only [init, List.getElem?_map, htool, Option.map_some, Option.some.injEq] at hping
  subst hping
  simp [ICMPPing.State.Answered, ICMPPing.init] at ha

/-- What has been heard stays so. -/
theorem Heard.append {k : Nat} {icmpTool : ICMPPingTool} (h : Heard s k icmpTool)
    (hs' : ∃ entries, s'.delivered = s.delivered ++ entries) : Heard s' k icmpTool := by
  obtain ⟨entry, hentry, hkey⟩ := h
  obtain ⟨entries, hdelivered⟩ := hs'
  exact ⟨entry, by rw [hdelivered]; exact List.mem_append_left _ hentry, hkey⟩

/-- Every step keeps it. -/
theorem allHeard_step (ha : AllHeard tools s) (h : Transition tools s l s') :
    AllHeard tools s' := by
  intro k icmpTool ping htool hping hanswered
  cases h with
  | @ping i l p p' hp hl ht =>
    refine Heard.append (s := s) ?_ ⟨[], by simp⟩
    simp only [List.getElem?_set] at hping
    by_cases hik : i = k
    · subst hik
      have hlt : i < s.pings.length := (List.getElem?_eq_some_iff.mp hp).1
      simp only [if_true, hlt, Option.some.injEq] at hping
      subst hping
      -- a step of its own does not make a ping answered
      rcases ICMPPing.answered_of_transition ht hanswered with hbefore | hreply
      · exact ha i icmpTool p htool hp hbefore
      · exact absurd hreply hl
    · rw [if_neg hik] at hping
      exact ha k icmpTool ping htool hping hanswered
  | ignore => exact (ha k icmpTool ping htool hping hanswered).append ⟨_, rfl⟩
  | @accept i datagram tool p p' htool' hcallback hp ht =>
    by_cases hik : i = k
    · subst hik
      obtain rfl : tool = icmpTool := Option.some.inj (htool'.symm.trans htool)
      exact ⟨(i, datagram), by simp, rfl, hcallback⟩
    · simp only [List.getElem?_set, if_neg hik] at hping
      exact (ha k icmpTool ping htool hping hanswered).append ⟨_, rfl⟩

/-- In every run, a pinger that is answered has heard its identifier. -/
theorem heard_of_run {ls : List Label} (h : (pings tools).run (init tools) ls = some s) :
    AllHeard tools s :=
  (pings tools).run_invariant (AllHeard tools)
    (fun _ _ _ ha hs => allHeard_step ha (transition_of_step hs)) allHeard_init h

/-! ## Echo replies -/

/-- An echo reply with the identifier of a pinger, from its host. -/
def IsEchoReply (icmpTool : ICMPPingTool) (datagram : Datagram) : Prop :=
  ∃ header ∈ icmpHeader datagram.data,
    header.type = 0 ∧ header.identifier = icmpTool.identifier ∧ datagram.address = icmpTool.host

instance (icmpTool : ICMPPingTool) (datagram : Datagram) :
    Decidable (IsEchoReply icmpTool datagram) :=
  match h : icmpHeader datagram.data with
  | none => isFalse (by simp [IsEchoReply, h])
  | some header =>
    decidable_of_iff (header.type = 0 ∧ header.identifier = icmpTool.identifier ∧
      datagram.address = icmpTool.host) (by simp [IsEchoReply, h])

/-- Of the datagrams with the identifier of a pinger that are delivered to its socket, the
    first is an echo reply from its host. -/
def FirstIsEchoReply (tools : List ICMPPingTool) (s : State) : Label → Prop
  | .ping _ _ => True
  | .deliver k datagram => ∀ icmpTool ∈ tools[k]?, callback icmpTool datagram = true →
      IsEchoReply icmpTool datagram ∨ Heard s k icmpTool

instance (tools : List ICMPPingTool) (s : State) (l : Label) :
    Decidable (FirstIsEchoReply tools s l) :=
  match l with
  | .ping _ _ => isTrue trivial
  | .deliver k datagram =>
    match h : tools[k]? with
    | none => isTrue (by simp [FirstIsEchoReply, h])
    | some icmpTool =>
      decidable_of_iff (callback icmpTool datagram = true →
        IsEchoReply icmpTool datagram ∨ Heard s k icmpTool) (by simp [FirstIsEchoReply, h])

/-- Where the identifier of a pinger has been heard, its host has replied. -/
def AllReplied (tools : List ICMPPingTool) (s : State) : Prop :=
  ∀ k icmpTool, tools[k]? = some icmpTool → Heard s k icmpTool →
    ∃ datagram, (k, datagram) ∈ s.delivered ∧ IsEchoReply icmpTool datagram

/-- At first no ping has been answered. -/
theorem allReplied_init : AllReplied tools (init tools) := by
  intro k icmpTool _ hheard
  simp [Heard, init] at hheard

/-- A delivery, whether the datagram is accepted or ignored. -/
theorem allReplied_append {i : Nat} {datagram : Datagram} (ha : AllReplied tools s)
    (hs' : s'.delivered = s.delivered ++ [(i, datagram)])
    (hfirst : FirstIsEchoReply tools s (.deliver i datagram)) : AllReplied tools s' := by
  intro k icmpTool htool hheard
  have hreplied (hbefore : Heard s k icmpTool) :
      ∃ datagram, (k, datagram) ∈ s'.delivered ∧ IsEchoReply icmpTool datagram := by
    obtain ⟨d, hd, hecho⟩ := ha k icmpTool htool hbefore
    exact ⟨d, by rw [hs']; exact List.mem_append_left _ hd, hecho⟩
  obtain ⟨entry, hentry, rfl, hcallback⟩ := hheard
  rw [hs', List.mem_append, List.mem_singleton] at hentry
  -- An instance that heard before keeps its reply; the new one has this datagram.
  rcases hentry with hentry | rfl
  · exact hreplied ⟨entry, hentry, rfl, hcallback⟩
  · rcases hfirst icmpTool htool hcallback with hecho | hbefore
    · exact ⟨datagram, by simp [hs'], hecho⟩
    · exact hreplied hbefore

/-- A step in which the first datagram accepted is an echo reply keeps it. -/
theorem allReplied_step (ha : AllReplied tools s) (hfirst : FirstIsEchoReply tools s l)
    (h : Transition tools s l s') : AllReplied tools s' := by
  cases h with
  | ping => exact ha
  | ignore => exact allReplied_append ha rfl hfirst
  | accept => exact allReplied_append ha rfl hfirst

/-- **Echo replies only.** In every run in which, of the datagrams with the identifier of a
    pinger that are delivered to its socket, the first is an echo reply from its host, the
    completion of a pinger is called with `true` only after such a reply. -/
theorem isEchoReply_of_mem_calls (tools : List ICMPPingTool) (ls : List Label) (s : State)
    (h : ((pings tools).restrict (FirstIsEchoReply tools)).run (init tools) ls = some s)
    (k : Nat) (icmpTool : ICMPPingTool) (ping : ICMPPing.State)
    (htool : tools[k]? = some icmpTool) (hping : s.pings[k]? = some ping)
    (hcalls : true ∈ ping.calls) :
    ∃ datagram, (k, datagram) ∈ s.delivered ∧ IsEchoReply icmpTool datagram := by
  have hreplied : AllReplied tools s :=
    (pings tools).run_restrict_invariant _ (AllReplied tools)
      (fun _ _ _ ha hfirst hs => allReplied_step ha hfirst (transition_of_step hs))
      allReplied_init h
  have hheard := heard_of_run ((pings tools).run_of_run_restrict _ h)
  exact hreplied k icmpTool htool (hheard k icmpTool ping htool hping (.inl hcalls))

/-- What `ping` answers to a request with identifier `identifier`. -/
def echoReply (identifier : UInt8) : List UInt8 :=
  List.replicate 20 0 ++ [0, 0, 0, 0, identifier, 0, 0, 0]

/-- Two pingers that have drawn the same identifier. -/
def twins : List ICMPPingTool :=
  [{ host := [10, 0, 0, 1], identifier := 7 }, { host := [10, 0, 0, 9], identifier := 7 }]

/-- The second of them sends its packet, a reply arrives at its socket and is handled. -/
def secondPing (address : List UInt8) : List Label :=
  ICMPPing.sentPing.map (.ping 1) ++
    [.deliver 1 { address, data := echoReply 7 }, .ping 1 .handler, .ping 1 .handler]

/-- The host of the second pinger replies. -/
theorem isEchoReply_of_mem_calls_second :
    ∃ datagram, (1, datagram) ∈ ((((pings twins).restrict (FirstIsEchoReply twins)).run
        (init twins) (secondPing [10, 0, 0, 9])).get (by decide)).delivered ∧
      IsEchoReply { host := [10, 0, 0, 9], identifier := 7 } datagram :=
  isEchoReply_of_mem_calls twins _ _ (Option.some_get _).symm 1 _ _ rfl
    (Option.some_get (by decide)).symm (by decide)

/-- The host of the second pinger is silent; the reply of the other host, which every
    socket gets, is taken for its own. -/
theorem found_without_echoReply : ¬ ∀ (tools : List ICMPPingTool) (ls : List Label) (s : State),
    (pings tools).run (init tools) ls = some s → ∀ (k : Nat) (icmpTool : ICMPPingTool)
      (ping : ICMPPing.State), tools[k]? = some icmpTool → s.pings[k]? = some ping →
      true ∈ ping.calls →
      ∃ datagram, (k, datagram) ∈ s.delivered ∧ IsEchoReply icmpTool datagram := by
  intro h
  -- The second instance calls back for a reply that the host of the first one sent.
  have hrun : ((pings twins).run (init twins) (secondPing [10, 0, 0, 1])).map
      (fun s => (s.delivered, (s.pings[1]?).map (·.calls))) =
        some ([(1, { address := [10, 0, 0, 1], data := echoReply 7 })], some [true]) := by decide
  obtain ⟨s, hs, hend⟩ := Option.map_eq_some_iff.mp hrun
  obtain ⟨hdelivered, hcalls⟩ := Prod.mk.inj hend
  obtain ⟨ping, hping, hcalls⟩ := Option.map_eq_some_iff.mp hcalls
  obtain ⟨datagram, hmem, hecho⟩ := h twins _ s hs 1 _ ping rfl hping (by simp [hcalls])
  rw [hdelivered, List.mem_singleton, Prod.mk.injEq] at hmem
  rw [hmem.2] at hecho
  exact absurd hecho (by decide)

/-! ## Other datagrams -/

/-- An echo reply is accepted. -/
theorem callback_of_isEchoReply {icmpTool : ICMPPingTool} {datagram : Datagram}
    (h : IsEchoReply icmpTool datagram) : callback icmpTool datagram = true := by
  obtain ⟨header, hheader, -, hidentifier, -⟩ := h
  simp [callback, Option.mem_def.mp hheader, hidentifier]

/-- A step of `handleSocketData` is a step of the pings. -/
theorem step_ping_handler {k : Nat} {ping ping' : ICMPPing.State}
    (hping : s.pings[k]? = some ping) (h : ICMPPing.step ping .handler = some ping') :
    step tools s (.ping k .handler) = some { s with pings := s.pings.set k ping' } := by
  simp [step, hping, h]

/-- A first datagram that is something else leads to a completion with `true` without
    an echo reply from the host. -/
theorem exists_run_of_not_firstIsEchoReply (h : Transition tools s l s')
    (hfirst : ¬ FirstIsEchoReply tools s l) :
    ∃ k icmpTool ls t ping, (pings tools).run s' ls = some t ∧ tools[k]? = some icmpTool ∧
      t.pings[k]? = some ping ∧ true ∈ ping.calls ∧
      ∀ datagram, (k, datagram) ∈ t.delivered → ¬ IsEchoReply icmpTool datagram := by
  cases h with
  | ping => exact absurd trivial hfirst
  | ignore htool hcallback =>
    refine absurd ?_ hfirst
    intro icmpTool' htool' hcallback'
    obtain rfl := Option.some.inj (htool.symm.trans htool')
    simp [hcallback] at hcallback'
  | @accept k datagram icmpTool ping ping' htool hcallback hping ht =>
    -- the datagram is no echo reply, and none has been heard before
    have hother : ¬ (IsEchoReply icmpTool datagram ∨ Heard s k icmpTool) := by
      intro hor
      apply hfirst
      intro icmpTool' htool' _
      obtain rfl := Option.some.inj (htool.symm.trans htool')
      exact hor
    have hlt : k < s.pings.length := (List.getElem?_eq_some_iff.mp hping).1
    have hhandler : ping'.handler = .cancelling := by cases ht; rfl
    -- the handler goes on to the completion, with true
    obtain ⟨p, p', hcancel, hcomplete, hcalls⟩ := ICMPPing.exists_calls_of_cancelling hhandler
    let t : State :=
      { pings := s.pings.set k ping', delivered := s.delivered ++ [(k, datagram)] }
    let u : State := { t with pings := t.pings.set k p }
    have hstep : step tools t (.ping k .handler) = some u :=
      step_ping_handler (by simp [t, hlt]) hcancel
    have hstep' : step tools u (.ping k .handler) = some { u with pings := u.pings.set k p' } :=
      step_ping_handler (by simp [u, t, hlt]) hcomplete
    refine ⟨k, icmpTool, [.ping k .handler, .ping k .handler], _, p',
      (pings tools).run_cons_eq_some.mpr ⟨u, hstep,
        (pings tools).run_cons_eq_some.mpr ⟨_, hstep', rfl⟩⟩,
      htool, by simp [u, t, hlt], hcalls, ?_⟩
    -- nothing else has been delivered meanwhile
    intro d hd hecho
    simp only [u, t, List.mem_append, List.mem_singleton, Prod.mk.injEq, true_and] at hd
    rcases hd with hd | rfl
    · exact hother (.inr ⟨(k, d), hd, rfl, callback_of_isEchoReply hecho⟩)
    · exact hother (.inl hecho)

end ICMPSockets

end LanScan.Ios
