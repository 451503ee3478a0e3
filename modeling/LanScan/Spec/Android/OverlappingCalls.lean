import LanScan.Spec.Android.ArpRoundTrip
import LanScan.Spec.Android.NativeIPNeighCallsCorrect

/-!
# Overlapping calls of nativeIPNeigh

A call that is made after the other one has closed its socket, or before it opens it, has
`rth` to itself.  A call that opens its socket in between overwrites the descriptor of the
other one, whose socket then stays open for ever.

## Key results

- `phase_of_transition`: calls that stay apart close what they open
- `printsOwn_of_transition`: and print the replies to their own requests
- `overlapped_of_not_apart`: a call that overlaps the other one loses its descriptor
- `safe_iff_apart`: so two calls are safe if and only if they stay apart
-/

namespace LanScan.Android.NativeIPNeighCalls

open NativeIPNeigh

variable {env : NeighEnv} {s s' : State} {l : Label} {c : Caller}

/-! ## What the calls are for -/

/-- Neither call is between `rtnl_open` and `rtnl_close`, and the process is still there. -/
structure State.Idle (s : State) : Prop where
  running : s.exited = none
  outside : ∀ c, (s.pc c).inside = false

/-- Each call has printed to its own pipe the replies to its own dump request, as far as they
    are printed at all, and nothing else. -/
def State.PrintsOwn (s : State) (env : NeighEnv) : Prop :=
  ∀ c, s.printed c = (s.delivered.filter (·.request = c)).filterMap (·.line env)

/-- Every netlink socket that is opened is closed exactly once, and each call prints its own
    replies. -/
structure State.Safe (s : State) (env : NeighEnv) : Prop where
  closes_le : ∀ x ∈ s.sockets, x.closes ≤ 1
  closes_eq : s.Idle → ∀ x ∈ s.sockets, x.closes = 1
  printsOwn : s.PrintsOwn env

/-- A call does not open its socket while the other one is between `rtnl_open` and
    `rtnl_close`. -/
def Apart (s : State) : Label → Prop
  | .rtnlOpen c _ => (s.pc c.other).inside = false
  | _ => True

instance : ∀ s l, Decidable (Apart s l)
  | s, .rtnlOpen c _ => inferInstanceAs (Decidable ((s.pc c.other).inside = false))
  | _, .dumpRequest _ _ | _, .receive _ _ _ | _, .rtnlClose _ => inferInstanceAs (Decidable True)

/-! ## Calls that stay apart -/

/-- The other call is not this one. -/
theorem Caller.other_ne (c : Caller) : c.other ≠ c := by cases c <;> decide

/-- There are two calls. -/
theorem Caller.eq_or_eq_other (c a : Caller) : c = a ∨ c = a.other := by
  cases c <;> cases a <;> decide

/-- A call that moves is inside if its new place is. -/
theorem inside_update_self (pcs : Caller → Pc) (c : Caller) (pc : Pc) :
    (Function.update pcs c pc c).inside = pc.inside := by rw [Function.update_self]

/-- The other one is inside as before. -/
theorem inside_update_other (pcs : Caller → Pc) (c : Caller) (pc : Pc) :
    (Function.update pcs c pc c.other).inside = (pcs c.other).inside := by
  rw [Function.update_of_ne c.other_ne]

/-- Call `c` has `rth` to itself: `x` is its socket, and the others are closed. -/
structure Active (s : State) (c : Caller) (x : Socket) (others : List Socket) : Prop where
  inside : (s.pc c).inside = true
  outside : (s.pc c.other).inside = false
  sockets : s.sockets = x :: others
  others : ∀ y ∈ others, y.closes = 1
  closes : x.closes = 0
  fd : x.fd = s.rth.fd
  nonneg : 0 ≤ x.fd
  requests : ∀ r ∈ x.requests, r.caller = c ∧ r.nlmsgSeq = s.rth.dump
  opened : s.pc c = .opened → x.requests = []

/-- How the calls stand when they stay apart. -/
inductive Phase (s : State) : Prop
  | exited (hexited : s.exited ≠ none) (hle : ∀ x ∈ s.sockets, x.closes ≤ 1)
  | idle (houtside : ∀ c, (s.pc c).inside = false) (hclosed : ∀ x ∈ s.sockets, x.closes = 1)
  | active {c x others} (h : Active s c x others)

/-- In each phase no socket has been closed twice. -/
theorem Phase.closes_le (h : Phase s) : ∀ x ∈ s.sockets, x.closes ≤ 1 := by
  cases h with
  | exited _ hle => exact hle
  | idle _ hclosed => exact fun x hx => Nat.le_of_eq (hclosed x hx)
  | active h =>
    rw [h.sockets]
    intro y hy
    -- The call inside has not closed its own socket yet; all others are closed once.
    rcases List.mem_cons.mp hy with rfl | hy
    · exact h.closes ▸ Nat.zero_le 1
    · exact Nat.le_of_eq (h.others y hy)

/-- A call that is between `rtnl_open` and `rtnl_close` is the active one. -/
theorem active_of_inside {pc : Pc} (h : Phase s) (hrunning : s.exited = none) (hpc : s.pc c = pc)
    (hinside : pc.inside = true) : ∃ x others, Active s c x others := by
  subst hpc
  cases h with
  | exited hexited => exact absurd hrunning hexited
  | idle houtside => exact absurd ((houtside c).symm.trans hinside) (by decide)
  | @active a x others h =>
    rcases c.eq_or_eq_other a with rfl | rfl
    · exact ⟨x, others, h⟩
    · exact absurd (h.outside.symm.trans hinside) (by decide)

/-- While neither is, all sockets are closed. -/
theorem closes_of_outside (h : Phase s) (hrunning : s.exited = none)
    (houtside : ∀ c, (s.pc c).inside = false) : ∀ x ∈ s.sockets, x.closes = 1 := by
  cases h with
  | exited hexited => exact absurd hrunning hexited
  | idle _ hclosed => exact hclosed
  | @active a _ _ h => exact absurd ((houtside a).symm.trans h.inside) (by decide)

/-- A call that runs on has the socket that its descriptor stands for. -/
theorem Active.next {x x' : Socket} {others : List Socket} {pc : Pc} (h : Active s c x others)
    (hpc : s'.pc = Function.update s.pc c pc) (hinside : pc.inside = true) (hnext : pc ≠ .opened)
    (hsockets : s'.sockets = x' :: others) (hcloses : x'.closes = x.closes) (hfd : x'.fd = x.fd)
    (hrth : s'.rth.fd = s.rth.fd)
    (hrequests : ∀ r ∈ x'.requests, r.caller = c ∧ r.nlmsgSeq = s'.rth.dump) :
    Active s' c x' others where
  inside := by rw [hpc, inside_update_self]; exact hinside
  outside := by rw [hpc, inside_update_other]; exact h.outside
  sockets := hsockets
  others := h.others
  closes := hcloses.trans h.closes
  fd := by rw [hrth, hfd]; exact h.fd
  nonneg := hfd ▸ h.nonneg
  requests := hrequests
  opened := by
    rw [hpc, Function.update_self]
    exact fun hopened => absurd hopened hnext

/-- The socket with the descriptor is the first one. -/
theorem modifyFd_cons {x : Socket} {fd : Int32} (f : Socket → Socket) (others : List Socket)
    (h : x.fd = fd) : modifyFd fd f (x :: others) = f x :: others := if_pos h

/-- A step that keeps the calls apart leads from one phase to the next. -/
theorem phase_of_transition (h : Phase s) (hrunning : s.exited = none) (hapart : Apart s l)
    (ht : Transition env s l s') : Phase s' := by
  cases ht with
  | @opened c k hpc hfree hfd =>
    have houtside : ∀ a, (s.pc a).inside = false := by
      intro a
      rcases a.eq_or_eq_other c with rfl | rfl
      · rw [hpc]; rfl
      · exact hapart
    exact .active (c := c) (x := .new k.socket)
      { inside := inside_update_self s.pc c .opened
        outside := (inside_update_other s.pc c .opened).trans hapart
        sockets := rfl
        others := closes_of_outside h hrunning houtside
        closes := rfl
        fd := rfl
        nonneg := hfd
        requests := by simp [Socket.new]
        opened := fun _ => rfl }
  | openFailed hfree hrth hsockets =>
    refine .exited (by simp) ?_
    rcases hsockets with rfl | rfl
    · exact h.closes_le
    · exact List.forall_mem_cons.mpr ⟨Nat.zero_le 1, h.closes_le⟩
  | @requested c k hpc hopen =>
    obtain ⟨x, others, hactive⟩ := active_of_inside h hrunning hpc rfl
    have hsockets : modifyFd s.rth.fd (·.send ⟨c, s.rth.seq + 1⟩) s.sockets =
        x.send ⟨c, s.rth.seq + 1⟩ :: others := by
      rw [hactive.sockets, modifyFd_cons _ _ hactive.fd]
    refine .active (hactive.next rfl rfl (by decide) hsockets rfl rfl rfl ?_)
    -- its request is the only one on its socket
    simp [Socket.send, hactive.opened hpc]
  | requestFailed => exact .exited (by simp) h.closes_le
  | @received c r request pc hpc hreceive hnext =>
    obtain ⟨x, others, hactive⟩ := active_of_inside h hrunning hpc rfl
    have hinside : pc.inside = true := by rcases hnext with rfl | rfl <;> rfl
    have hopened : pc ≠ .opened := by rcases hnext with rfl | rfl <;> decide
    exact .active
      (hactive.next rfl hinside hopened hactive.sockets rfl rfl rfl hactive.requests)
  | receiveFailed => exact .exited (by simp) h.closes_le
  | @closed c hpc hfd =>
    obtain ⟨x, others, hactive⟩ := active_of_inside h hrunning hpc rfl
    refine .idle ?_ ?_
    · intro a
      rcases a.eq_or_eq_other c with rfl | rfl
      · exact inside_update_self s.pc a .returned
      · exact (inside_update_other s.pc c .returned).trans hactive.outside
    · simp only [hactive.sockets, modifyFd_cons _ _ hactive.fd]
      exact List.forall_mem_cons.mpr ⟨congrArg (· + 1) hactive.closes, hactive.others⟩
  | @closedNothing c hpc hfd =>
    obtain ⟨x, others, hactive⟩ := active_of_inside h hrunning hpc rfl
    exact absurd (hactive.fd ▸ hactive.nonneg) (Int32.not_le.mpr hfd)

/-! ## Replies -/

/-- A datagram of replies to the current dump request is accepted as a whole. -/
theorem accepted_of_seq {dump : UInt32} {messages : List NlMsg}
    (h : ∀ m ∈ messages, m.nlmsgSeq = dump) :
    accepted dump 0 messages = messages.map (·.body) := by
  induction messages with
  | nil => rfl
  | cons m rest ih =>
    obtain ⟨hm, hrest⟩ := List.forall_mem_cons.mp h
    have htail := ih hrest
    unfold accepted at htail ⊢
    rw [List.filterMap_cons_some (b := m.body) (by simp [hm]), htail, List.map_cons]

/-- A datagram of another process is skipped as a whole. -/
theorem accepted_of_pid {dump nlPid : UInt32} (h : nlPid ≠ 0) (messages : List NlMsg) :
    accepted dump nlPid messages = [] := by simp [accepted, h]

/-- What the active call receives are replies to its own request, and it prints them all. -/
theorem Active.replies_eq {x : Socket} {others : List Socket} {r : Option Received}
    {request : Request} (h : Active s c x others) (hreceive : s.canReceive request r) :
    replies request r = (printedBy s.rth.dump r).map (Reply.mk request.caller) ∧
      (request.caller = c ∨ printedBy s.rth.dump r = []) := by
  match r with
  | none | some .interrupted | some .failed => exact ⟨rfl, .inr rfl⟩
  | some (.datagram d) =>
    simp only [State.canReceive, List.any_eq_true, Bool.and_eq_true, Bool.or_eq_true,
      Socket.isOpen, bne_iff_ne, beq_iff_eq, List.contains_iff_mem, List.all_eq_true] at hreceive
    -- the datagram comes on an open socket, which can only be that of the call
    obtain ⟨y, hy, ⟨hcloses, -⟩, hsender⟩ := hreceive
    rw [h.sockets, List.mem_cons] at hy
    by_cases hpid : d.nlPid = 0
    · obtain ⟨hmem, hseq⟩ := hsender.resolve_left (not_not.mpr hpid)
      rcases hy with rfl | hy
      -- it answers a request of the call, with the number that `rth` has
      · obtain ⟨hcaller, hdump⟩ := h.requests request hmem
        have hprinted : printedBy s.rth.dump (some (.datagram d)) =
            neighboursIn (d.messages.map (·.body)) := by
          rw [printedBy, hpid, accepted_of_seq fun m hm => (hseq m hm).trans hdump]
        rw [hprinted]
        exact ⟨if_pos hpid, .inl hcaller⟩
      · exact absurd (hcloses.symm.trans (h.others y hy)) (by decide)
    -- a datagram of another process is no reply, and nothing of it is printed
    · have hprinted : printedBy s.rth.dump (some (.datagram d)) = [] := by
        rw [printedBy, accepted_of_pid hpid]
        rfl
      rw [hprinted]
      exact ⟨if_neg hpid, .inr rfl⟩

/-- A receive in which all that is printed are replies to the call itself keeps what both have
    printed right. -/
theorem printsOwn_receive {r : Option Received} {request : Request} (h : s.PrintsOwn env)
    (hreplies : replies request r = (printedBy s.rth.dump r).map (Reply.mk request.caller))
    (howner : request.caller = c ∨ printedBy s.rth.dump r = []) :
    (s.receive env c r request).PrintsOwn env := by
  have hown : ∀ reply ∈ (printedBy s.rth.dump r).map (Reply.mk request.caller),
      reply.request = c := by
    intro reply hreply
    obtain ⟨n, hn, rfl⟩ := List.mem_map.mp hreply
    rcases howner with rfl | hnone
    · rfl
    · rw [hnone] at hn
      cases hn
  intro a
  show Function.update s.printed c _ a =
    ((s.delivered ++ replies request r).filter (·.request = a)).filterMap (·.line env)
  rw [hreplies, List.filter_append, List.filterMap_append, ← h a]
  -- the call prints its replies, and nothing comes to the other one
  by_cases ha : a = c
  · subst ha
    rw [Function.update_self,
      List.filter_eq_self.mpr fun reply hreply => decide_eq_true (hown reply hreply),
      List.filterMap_map]
    rfl
  · rw [Function.update_of_ne ha, List.filter_eq_nil_iff.mpr, List.filterMap_nil, List.append_nil]
    intro reply hreply heq
    exact ha ((of_decide_eq_true heq).symm.trans (hown reply hreply))

/-- A call that receives something prints its own replies. -/
theorem printsOwn_of_canReceive {r : Option Received} {request : Request} (h : Phase s)
    (hrunning : s.exited = none) (hprints : s.PrintsOwn env) (hpc : s.pc c = .receiving)
    (hreceive : s.canReceive request r) : (s.receive env c r request).PrintsOwn env := by
  obtain ⟨x, others, hactive⟩ := active_of_inside h hrunning hpc rfl
  obtain ⟨hreplies, howner⟩ := hactive.replies_eq hreceive
  exact printsOwn_receive hprints hreplies howner

/-- While the calls are apart each prints the replies to its own request. -/
theorem printsOwn_of_transition (h : Phase s) (hrunning : s.exited = none)
    (hprints : s.PrintsOwn env) (ht : Transition env s l s') : s'.PrintsOwn env := by
  cases ht with
  | received hpc hreceive => exact printsOwn_of_canReceive h hrunning hprints hpc hreceive
  | receiveFailed hpc hreceive => exact printsOwn_of_canReceive h hrunning hprints hpc hreceive
  | _ => exact hprints

/-! ## Runs -/

/-- The calls have stayed apart so far. -/
structure Serial (env : NeighEnv) (s : State) : Prop where
  phase : Phase s
  printsOwn : s.PrintsOwn env

/-- At first no call has begun. -/
theorem serial_init (env : NeighEnv) (rth : RtnlHandle) : Serial env (init rth) where
  phase := .idle (fun _ => rfl) (by simp [init])
  printsOwn _ := rfl

/-- A step that keeps the calls apart keeps both. -/
theorem serial_of_step (h : Serial env s) (hapart : Apart s l) (hstep : step env s l = some s') :
    Serial env s' where
  phase := phase_of_transition h.phase (exited_of_step hstep) hapart (transition_of_step hstep)
  printsOwn := printsOwn_of_transition h.phase (exited_of_step hstep) h.printsOwn
    (transition_of_step hstep)

/-- Calls that have been apart are safe. -/
theorem Serial.safe (h : Serial env s) : s.Safe env where
  closes_le := h.phase.closes_le
  closes_eq hidle := closes_of_outside h.phase hidle.running hidle.outside
  printsOwn := h.printsOwn

/-- The calls have overlapped: the process has exited, or there is an open socket whose
    descriptor is lost. -/
def Overlapped (s : State) : Prop :=
  s.exited ≠ none ∨ ∃ x ∈ s.sockets, x.closes = 0 ∧ 0 ≤ x.fd ∧ x.fd ≠ s.rth.fd

/-- A socket whose descriptor does not stand in `rth` stays open. -/
theorem mem_modifyFd {x : Socket} {fd : Int32} {f : Socket → Socket} {sockets : List Socket}
    (hx : x ∈ sockets) (hfd : x.fd ≠ fd) : x ∈ modifyFd fd f sockets := by
  induction sockets with
  | nil => cases hx
  | cons y sockets ih =>
    unfold modifyFd
    rcases List.mem_cons.mp hx with rfl | hx
    · rw [if_neg hfd]
      exact List.mem_cons_self
    · split
      · exact List.mem_cons_of_mem _ hx
      · exact List.mem_cons_of_mem y (ih hx)

/-- A new descriptor is none of an open socket. -/
theorem fd_ne_of_isFree {x : Socket} {fd : Int32} (h : s.isFree fd) (hx : x ∈ s.sockets)
    (hcloses : x.closes = 0) : x.fd ≠ fd := by
  have hfree := List.all_eq_true.mp h x hx
  simpa [Socket.isOpen, hcloses] using hfree

/-- A descriptor that is lost stays lost. -/
theorem overlapped_of_transition (h : Overlapped s) (hrunning : s.exited = none)
    (ht : Transition env s l s') : Overlapped s' := by
  obtain ⟨x, hx, hcloses, hnonneg, hfd⟩ := h.resolve_left (not_not.mpr hrunning)
  -- The lost socket stays: nobody holds its descriptor any more.
  cases ht with
  | opened hpc hfree =>
    exact .inr ⟨x, List.mem_cons_of_mem _ hx, hcloses, hnonneg, fd_ne_of_isFree hfree hx hcloses⟩
  | openFailed => exact .inl (by simp)
  | requested => exact .inr ⟨x, mem_modifyFd hx hfd, hcloses, hnonneg, hfd⟩
  | requestFailed => exact .inl (by simp)
  | received => exact .inr ⟨x, hx, hcloses, hnonneg, hfd⟩
  | receiveFailed => exact .inl (by simp)
  | closed =>
    -- A close sets the descriptor of the handle to -1, which no socket has.
    refine .inr ⟨x, mem_modifyFd hx hfd, hcloses, hnonneg, ?_⟩
    intro hminus
    rw [hminus] at hnonneg
    exact absurd hnonneg (by decide : ¬ (0 : Int32) ≤ -1)
  | closedNothing => exact .inr ⟨x, hx, hcloses, hnonneg, hfd⟩

/-- **Overwriting.** A call that opens its socket while the other one is in between loses
    the descriptor of the other one. -/
theorem overlapped_of_not_apart (h : Phase s) (hrunning : s.exited = none) (hover : ¬ Apart s l)
    (ht : Transition env s l s') : Overlapped s' := by
  cases ht with
  | @opened c k hpc hfree hfd =>
    -- The other call is inside, so its socket is open when the handle is overwritten.
    have hinside : (s.pc c.other).inside = true := by
      simpa [Apart] using hover
    obtain ⟨x, others, hactive⟩ := active_of_inside h hrunning rfl hinside
    have hx : x ∈ s.sockets := hactive.sockets ▸ List.mem_cons_self
    exact .inr ⟨x, List.mem_cons_of_mem _ hx, hactive.closes, hactive.nonneg,
      fd_ne_of_isFree hfree hx hactive.closes⟩
  | openFailed => exact .inl (by simp)
  | _ => exact absurd trivial hover

/-- In every run the calls have stayed apart or have overlapped. -/
theorem serial_or_overlapped {rth : RtnlHandle} {ls : List Label}
    (h : (calls env rth).run (init rth) ls = some s) :
    ((calls env rth).restrict Apart).run (init rth) ls = some s ∧ Serial env s ∨
      ((calls env rth).restrict Apart).run (init rth) ls = none ∧ Overlapped s := by
  apply (calls env rth).run_restrict_or Apart (Serial env) Overlapped _ _ _ _ h
  · intro s l s' hserial hapart hstep
    exact serial_of_step hserial hapart hstep
  · intro s l s' hserial hover hstep
    exact overlapped_of_not_apart hserial.phase (exited_of_step hstep) hover
      (transition_of_step hstep)
  · intro s l s' hover hstep
    exact overlapped_of_transition hover (exited_of_step hstep) (transition_of_step hstep)
  · exact serial_init env rth

/-- **Two calls.** In every run, as long as the calls stay apart, every socket is closed
    exactly once and each call prints its own replies; and when neither of them is between
    `rtnl_open` and `rtnl_close` any more, this is so only if they have stayed apart. -/
theorem safe_iff_apart (env : NeighEnv) (rth : RtnlHandle) {ls : List Label} {s : State}
    (h : (calls env rth).run (init rth) ls = some s) :
    (((calls env rth).restrict Apart).run (init rth) ls = some s → s.Safe env) ∧
      (s.Idle → (s.Safe env ↔ ((calls env rth).restrict Apart).run (init rth) ls = some s)) := by
  have hsafe : ((calls env rth).restrict Apart).run (init rth) ls = some s → s.Safe env := by
    intro hapart
    rcases serial_or_overlapped h with ⟨-, hserial⟩ | ⟨hnone, -⟩
    · exact hserial.safe
    · rw [hnone] at hapart
      cases hapart
  refine ⟨hsafe, fun hidle => ⟨fun hs => ?_, hsafe⟩⟩
  rcases serial_or_overlapped h with ⟨hapart, -⟩ | ⟨-, hexited | ⟨x, hx, hcloses, -⟩⟩
  · exact hapart
  · exact absurd hidle.running hexited
  · -- the socket whose descriptor is lost is still open
    exact absurd (hcloses.symm.trans (hs.closes_eq hidle x hx)) (by decide)

/-! ## Two calls that overlap -/

/-- Every step succeeds, and the socket gets a descriptor. -/
def kernelWith (fd : Int32) : Kernel where
  fdopen := true
  socket := fd
  setSndbuf := 0
  setRcvbuf := 0
  getsockname := 0
  addrLen := sizeofSockaddrNl
  nlFamily := afNetlink
  time := 100
  sendmsg := 32
  recvmsg := []

/-- The table of the wireless network, in reply to a dump request. -/
def tableReply (request : Request) : Option Received := some (.datagram
  { nlPid := 0
    messages := wlanTable.map (fun e => ⟨request.nlmsgSeq, .neigh e.msg⟩) ++
      [⟨request.nlmsgSeq, .done (some 0)⟩]
    remnant := false
    truncated := false })

/-- What call `c` does behind `rtnl_open`, up to `rtnl_close`. -/
def dump (c : Caller) (fd : Int32) (nlmsgSeq : UInt32) : List Label :=
  [.dumpRequest c (kernelWith fd), .receive c (tableReply ⟨c, nlmsgSeq⟩) ⟨c, nlmsgSeq⟩]

/-- One call after the other. -/
def oneAfterTheOther : List Label :=
  .rtnlOpen .stoppedScan (kernelWith 5) :: dump .stoppedScan 5 101 ++
    .rtnlClose .stoppedScan :: .rtnlOpen .newScan (kernelWith 5) :: dump .newScan 5 101 ++
    [.rtnlClose .newScan]

/-- The new scan opens its socket right behind the stopped one. -/
def bothOpen : List Label :=
  .rtnlOpen .stoppedScan (kernelWith 5) :: .rtnlOpen .newScan (kernelWith 6) ::
    dump .stoppedScan 6 101 ++ dump .newScan 6 102 ++
    [.rtnlClose .stoppedScan, .rtnlClose .newScan]

/-- Each call prints the five lines of the table that the kernel sends for its own request. -/
theorem safe_iff_apart_oneAfterTheOther : ∃ s,
    (calls wlanEnv ⟨-1, 0, 0⟩).run (init ⟨-1, 0, 0⟩) oneAfterTheOther = some s ∧
      s.Safe wlanEnv ∧
      (s.printed .stoppedScan).map Line.request = List.replicate 5 .stoppedScan ∧
      (s.printed .newScan).map Line.request = List.replicate 5 .newScan := by
  -- The run meets the condition, and each call prints the five entries of its own request.
  have hapart : (((calls wlanEnv ⟨-1, 0, 0⟩).restrict Apart).run (init ⟨-1, 0, 0⟩)
      oneAfterTheOther).map
        (fun s => ((s.printed .stoppedScan).map Line.request,
          (s.printed .newScan).map Line.request)) =
      some (List.replicate 5 .stoppedScan, List.replicate 5 .newScan) := by decide
  obtain ⟨s, hs, hprinted⟩ := Option.map_eq_some_iff.mp hapart
  obtain ⟨hstopped, hnew⟩ := Prod.mk.inj hprinted
  have hrun := (calls wlanEnv ⟨-1, 0, 0⟩).run_of_run_restrict Apart hs
  exact ⟨s, hrun, (safe_iff_apart wlanEnv ⟨-1, 0, 0⟩ hrun).1 hs, hstopped, hnew⟩

/-- The descriptor of the first socket is overwritten, and the socket is never closed. -/
theorem socket_never_closed : ¬ ∀ (env : NeighEnv) (rth : RtnlHandle) (ls : List Label) (s : State),
    (calls env rth).run (init rth) ls = some s → s.Safe env := by
  intro h
  have hrun : ((calls wlanEnv ⟨-1, 0, 0⟩).run (init ⟨-1, 0, 0⟩) bothOpen).map
      (fun s => (s.exited, s.pc .stoppedScan, s.pc .newScan, s.sockets.map (·.closes))) =
      some (none, .returned, .returned, [1, 0]) := by decide
  obtain ⟨s, hs, hdata⟩ := Option.map_eq_some_iff.mp hrun
  simp only [Prod.mk.injEq] at hdata
  obtain ⟨hrunning, hstopped, hnew, hcloses⟩ := hdata
  -- both calls have returned, and socket 5 has not been closed
  have hidle : s.Idle := by
    refine ⟨hrunning, ?_⟩
    intro c
    cases c with
    | stoppedScan => rw [hstopped]; rfl
    | newScan => rw [hnew]; rfl
  have hopen : 0 ∈ s.sockets.map (·.closes) := by rw [hcloses]; decide
  obtain ⟨x, hx, hzero⟩ := List.mem_map.mp hopen
  exact absurd (hzero.symm.trans ((h _ _ _ s hs).closes_eq hidle x hx)) (by decide)

end LanScan.Android.NativeIPNeighCalls
