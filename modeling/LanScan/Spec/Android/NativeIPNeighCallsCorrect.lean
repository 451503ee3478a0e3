import LanScan.Native.Android.NativeIPNeighCalls
import LanScan.Spec.Android.NativeIPNeighCorrect

/-!
# The steps of two calls of nativeIPNeigh

`nativeIPNeigh` is its parts one after the other, and `Transition` lists what a part does
to the process when one of two calls runs it.

## Key results

- `nativeIPNeigh_eq`: the parts make up `nativeIPNeigh`
- `transition_of_step`: the steps of the calls are transitions
-/

namespace LanScan.Android.NativeIPNeighCalls

open NativeIPNeigh

variable {env : NeighEnv} {k : Kernel} {p : Process} {s s' : State} {l : Label}

/-! ## The parts make up nativeIPNeigh -/

/-- Nothing runs behind `exit`. -/
theorem exit_bind {α β : Type} (status : Int32) (f : α → C β) :
    (exit status >>= f) = exit status := rfl

/-- The dump loop of `do_show_or_flush` is its turns, one after the other. -/
theorem receiveParts_eq (env : NeighEnv) (received : List Received) :
    (do if (← rtnlDumpFilterL env received) < 0 then exit 1) = receiveParts env received := by
  induction received with
  | nil => rfl
  | cons r rest ih =>
    cases r with
    | interrupted => exact ih
    | failed => rfl
    | datagram d =>
      simp only [rtnlDumpFilterL, receiveParts, receivePart, bind_assoc]
      congr 1
      funext e
      cases e with
      | returned err =>
        -- the loop returns: a negative result ends the process
        by_cases herr : err < 0
        · simp only [pure_bind, if_pos herr]
          rfl
        · simp only [pure_bind, if_neg herr, if_true]
      | foundDone => rfl
      | exhausted =>
        -- a truncated datagram is passed over, a remnant ends the process
        by_cases htruncated : d.truncated = true
        · simp only [if_pos htruncated, pure_bind]
          exact ih
        · by_cases hremnant : d.remnant = true
          · simp only [if_neg htruncated, if_pos hremnant]
            rfl
          · simp only [if_neg htruncated, if_neg hremnant, pure_bind]
            exact ih

/-- Code that exits on a condition, and what follows it. -/
theorem exit_if_bind {α β : Type} (c : Prop) [Decidable c] (status : Int32) (x : C α)
    (f : α → C β) :
    ((if c then exit status else x) >>= f) = if c then exit status else x >>= f := by
  split <;> rfl

/-- **The parts.** `nativeIPNeigh` is its parts, one after the other. -/
theorem nativeIPNeigh_eq (env : NeighEnv) (k : Kernel) : nativeIPNeigh env k = (do
    openPart k
    requestPart k
    receiveParts env k.recvmsg
    closePart
    return 0) := by
  -- `do_show_or_flush` is the request and the receives
  have hshow : NativeIPNeigh.doShowOrFlush env k = (do
      requestPart k
      receiveParts env k.recvmsg
      return 0) := by
    rw [← receiveParts_eq]
    simp only [NativeIPNeigh.doShowOrFlush, doShowOrFlushWith, requestPart, bind_assoc,
      exit_if_bind, exit_bind, pure_bind]
  rw [NativeIPNeigh.doShowOrFlush] at hshow
  simp only [nativeIPNeigh, nativeIPNeighWith, hshow, openPart, closePart, bind_assoc,
    exit_if_bind, exit_bind, pure_bind]

/-! ## What each part does -/

/-- The socket is open, and `rth` refers to it. -/
theorem openPart_of_opens (hfdopen : k.fdopen = true) (hopens : k.Opens) (p : Process) :
    (openPart k).run.run p =
      (.ok (), { rth := ⟨k.socket, k.time, 0⟩, calls := p.calls ++ [.openSocket] }) := by
  unfold openPart
  rw [if_neg (by simp [hfdopen]), run_bind_of_ok (rtnlOpen_of_opens hopens p), if_neg (by decide)]
  rfl

/-- A failure exits.  The socket may be open by then. -/
theorem openPart_of_not_opens (h : ¬ (k.fdopen = true ∧ k.Opens)) (p : Process) :
    ∃ status p', (openPart k).run.run p = (.error (.exit status), p') ∧
      (p' = p ∨ p'.rth.fd = k.socket ∧
        (p'.calls = p.calls ∨ 0 ≤ k.socket ∧ p'.calls = p.calls ++ [.openSocket])) := by
  unfold openPart
  by_cases hfdopen : k.fdopen = true
  · have hopens : ¬ k.Opens := fun hopens => h ⟨hfdopen, hopens⟩
    rw [if_neg (by simp [hfdopen]), run_bind_of_ok (rtnlOpen_of_not_opens hopens p),
      if_pos (by decide)]
    refine ⟨_, _, rfl, .inr ⟨rfl, ?_⟩⟩
    -- either there is no socket, or it stays open behind the failure
    by_cases hsocket : k.socket < 0
    · exact .inl (if_pos hsocket)
    · exact .inr ⟨Int32.not_lt.mp hsocket, if_neg hsocket⟩
  · rw [if_pos (by simpa using hfdopen)]
    exact ⟨_, p, rfl, .inl rfl⟩

/-- The request takes the next sequence number, and `exit` follows a failure. -/
theorem requestPart_run (k : Kernel) (p : Process) : (requestPart k).run.run p =
    (if k.sendmsg < 0 then .error (.exit 1) else .ok (),
      { p with rth := ⟨p.rth.fd, p.rth.seq + 1, p.rth.seq + 1⟩ }) := by
  unfold requestPart
  rw [run_bind_of_ok (rtnlDumpRequestN_eq k p)]
  split <;> rfl

/-- The neighbours in front of anything else are printed. -/
theorem neighboursIn_append {part : List NeighMsg} {tail : List NlBody}
    (htail : ∀ n rest, tail ≠ .neigh n :: rest) :
    neighboursIn (part.map .neigh ++ tail) = part := by
  induction part with
  | nil =>
    -- The tail starts with a message that is no neighbour, or is empty.
    cases tail with
    | nil => rfl
    | cons b rest =>
      cases b with
      | neigh n => exact absurd rfl (htail n rest)
      | _ => rfl
  | cons n part ih => exact congrArg (n :: ·) ih

/-- The neighbours that a turn of the dump loop prints. -/
def printedBy (dump : UInt32) : Option Received → List NeighMsg
  | some (.datagram d) => neighboursIn (accepted dump d.nlPid d.messages)
  | _ => []

/-- A turn of the dump loop prints, and then goes on, is the last one or exits. -/
theorem receivePart_run (env : NeighEnv) (r : Option Received) (p : Process) :
    ∃ result : Except Int32 Bool, (receivePart env r).run.run p =
      (result.mapError .exit, p.print env (printedBy p.rth.dump r)) := by
  match r with
  -- nothing is printed without a datagram
  | none | some .failed =>
    rw [printedBy, Process.print_nil]
    · exact ⟨.error 1, rfl⟩
    all_goals exact fun d h => by cases h
  | some .interrupted =>
    rw [printedBy, Process.print_nil]
    · exact ⟨.ok false, rfl⟩
    all_goals exact fun d h => by cases h
  | some (.datagram d) =>
    -- of a datagram, the neighbours in front of the first other message
    obtain ⟨part, tail, hd, htail⟩ := exists_neigh_append (accepted p.rth.dump d.nlPid d.messages)
    have hprinted : printedBy p.rth.dump (some (.datagram d)) = part :=
      (congrArg neighboursIn hd).trans (neighboursIn_append htail)
    rw [hprinted]
    unfold receivePart
    rw [run_bind_of_ok (filterMessages_eq env hd htail)]
    -- how the loop over it ends decides what follows, and prints nothing more
    cases endOf tail with
    | returned err =>
      by_cases herr : err < 0
      · simp only [if_pos herr]
        exact ⟨.error 1, rfl⟩
      · simp only [if_neg herr]
        exact ⟨.ok true, rfl⟩
    | foundDone => exact ⟨.ok true, rfl⟩
    | exhausted =>
      by_cases htruncated : d.truncated = true
      · simp only [if_pos htruncated]
        exact ⟨.ok false, rfl⟩
      · by_cases hremnant : d.remnant = true
        · simp only [if_neg htruncated, if_pos hremnant]
          exact ⟨.error 1, rfl⟩
        · simp only [if_neg htruncated, if_neg hremnant]
          exact ⟨.ok false, rfl⟩

/-- The socket of `rth` is closed, and the pipe. -/
theorem closePart_of_nonneg (h : 0 ≤ p.rth.fd) : closePart.run.run p = (.ok (),
    { rth := { p.rth with fd := -1 }, calls := p.calls ++ [.closeSocket] ++ [.closePipe] }) := by
  unfold closePart rtnlClose
  rw [bind_assoc, run_bind_of_ok (show (get : C Process).run.run p = (.ok p, p) from rfl),
    if_pos h]
  rfl

/-- Without a socket in `rth` only the pipe is closed. -/
theorem closePart_of_neg (h : p.rth.fd < 0) :
    closePart.run.run p = (.ok (), { p with calls := p.calls ++ [.closePipe] }) := by
  unfold closePart rtnlClose
  rw [bind_assoc, run_bind_of_ok (show (get : C Process).run.run p = (.ok p, p) from rfl),
    if_neg (Int32.not_le.mpr h)]
  rfl

/-! ## Transitions -/

/-- What is printed for a reply, if anything is. -/
def Reply.line (env : NeighEnv) (r : Reply) : Option Line :=
  let text := Android.printNeigh env showFilter r.neigh
  if text = [] then none else some ⟨r.request, text.utf8Bytes⟩

/-- Call `c` receives something and prints its neighbours. -/
def State.receive (s : State) (env : NeighEnv) (c : Caller) (r : Option Received)
    (request : Request) : State :=
  { s with
    delivered := s.delivered ++ replies request r
    printed := Function.update s.printed c (s.printed c ++
      (printedBy s.rth.dump r).filterMap fun n => (Reply.mk request.caller n).line env) }

/-- What a step does, case by case. -/
inductive Transition (env : NeighEnv) (s : State) : Label → State → Prop
  | opened {c k} (hpc : s.pc c = .called) (hfree : s.isFree k.socket) (hfd : 0 ≤ k.socket) :
      Transition env s (.rtnlOpen c k)
        { s with
          rth := ⟨k.socket, k.time, 0⟩
          sockets := .new k.socket :: s.sockets
          pc := Function.update s.pc c .opened }
  | openFailed {c k rth sockets status} (hfree : s.isFree k.socket)
      (hrth : rth = s.rth ∨ rth.fd = k.socket)
      (hsockets : sockets = s.sockets ∨ sockets = .new k.socket :: s.sockets) :
      Transition env s (.rtnlOpen c k) { s with rth, sockets, exited := some status }
  | requested {c k} (hpc : s.pc c = .opened) (hopen : s.isOpen s.rth.fd) :
      Transition env s (.dumpRequest c k)
        { s with
          rth := ⟨s.rth.fd, s.rth.seq + 1, s.rth.seq + 1⟩
          sockets := modifyFd s.rth.fd (·.send ⟨c, s.rth.seq + 1⟩) s.sockets
          pc := Function.update s.pc c .receiving }
  | requestFailed {c k} :
      Transition env s (.dumpRequest c k)
        { s with rth := ⟨s.rth.fd, s.rth.seq + 1, s.rth.seq + 1⟩, exited := some 1 }
  | received {c r request pc} (hpc : s.pc c = .receiving) (hreceive : s.canReceive request r)
      (hnext : pc = .receiving ∨ pc = .received) :
      Transition env s (.receive c r request)
        { s.receive env c r request with pc := Function.update s.pc c pc }
  | receiveFailed {c r request status} (hpc : s.pc c = .receiving)
      (hreceive : s.canReceive request r) :
      Transition env s (.receive c r request)
        { s.receive env c r request with exited := some status }
  | closed {c} (hpc : s.pc c = .received) (hfd : 0 ≤ s.rth.fd) :
      Transition env s (.rtnlClose c)
        { s with
          rth := { s.rth with fd := -1 }
          sockets := modifyFd s.rth.fd .close s.sockets
          pc := Function.update s.pc c .returned }
  /-- another call has closed the socket -/
  | closedNothing {c} (hpc : s.pc c = .received) (hfd : s.rth.fd < 0) :
      Transition env s (.rtnlClose c) { s with pc := Function.update s.pc c .returned }

section Exec

variable {α : Type} {part : C α} {c request : Caller} {fd : Int32} {next : α → Pc}

/-- A part that returns. -/
theorem exec_of_ok {a : α} (h : part.run.run ⟨s.rth, []⟩ = (.ok a, p)) :
    s.exec c fd request part next =
      let t := p.calls.foldl (fun s call => s.after c fd request call) s
      { t with rth := p.rth, pc := Function.update t.pc c (next a) } := by
  unfold State.exec
  rw [h]

/-- A part that exits. -/
theorem exec_of_exit {status : Int32}
    (h : part.run.run ⟨s.rth, []⟩ = (.error (.exit status), p)) :
    s.exec c fd request part next =
      { p.calls.foldl (fun s call => s.after c fd request call) s with
        rth := p.rth, exited := some status } := by
  unfold State.exec
  rw [h]

end Exec

/-- Printing adds lines to the pipe of the call, and changes nothing else. -/
theorem foldl_after_print (env : NeighEnv) (s : State) (c : Caller) (fd : Int32)
    (request : Caller) (rth : RtnlHandle) (table : List NeighMsg) :
    ((Process.mk rth []).print env table).calls.foldl
        (fun s call => s.after c fd request call) s =
      { s with
        printed := Function.update s.printed c (s.printed c ++
          table.filterMap fun n => (Reply.mk request n).line env) } := by
  simp only [Process.print, Process.flush, List.nil_append]
  induction table generalizing s with
  | nil => simp
  | cons n table ih =>
    simp only [List.map_cons, List.flatMap_cons, List.foldl_append, ih, List.filterMap_cons]
    -- an entry that is not printed leaves no line
    by_cases htext : Android.printNeigh env showFilter n = []
    · simp [flushCalls, Reply.line, htext]
    · simp [flushCalls, Reply.line, htext, State.after]

/-- The process has not exited when a step is taken. -/
theorem exited_of_step (h : step env s l = some s') : s.exited = none := by
  cases hexited : s.exited with
  | none => rfl
  | some status =>
    unfold step at h
    rw [if_pos (by simp [hexited])] at h
    cases h

/-- The transitions of `rtnl_open`. -/
theorem transition_of_stepRtnlOpen {c : Caller} (h : stepRtnlOpen s c k = some s') :
    Transition env s (.rtnlOpen c k) s' := by
  unfold stepRtnlOpen at h
  split at h
  · rename_i hguard
    cases h
    by_cases hok : k.fdopen = true ∧ k.Opens
    · rw [exec_of_ok (openPart_of_opens hok.1 hok.2 _)]
      exact .opened hguard.1 hguard.2 hok.2.socket
    -- it fails before the socket, with no socket, or with one that stays open
    · obtain ⟨status, p', hrun, hp'⟩ := openPart_of_not_opens hok ⟨s.rth, []⟩
      rw [exec_of_exit hrun]
      rcases hp' with rfl | ⟨hfd, hcalls | ⟨-, hcalls⟩⟩
      · exact .openFailed hguard.2 (.inl rfl) (.inl rfl)
      · rw [hcalls]
        exact .openFailed hguard.2 (.inr hfd) (.inl rfl)
      · rw [hcalls]
        exact .openFailed hguard.2 (.inr hfd) (.inr rfl)
  · cases h

/-- The transitions of the dump request. -/
theorem transition_of_stepDumpRequest {c : Caller} (h : stepDumpRequest s c k = some s') :
    Transition env s (.dumpRequest c k) s' := by
  have hrun := requestPart_run k ⟨s.rth, []⟩
  unfold stepDumpRequest at h
  split at h
  · rename_i hguard
    -- `sendmsg` decides whether the request goes out or the process exits.
    by_cases hsend : 0 ≤ k.sendmsg
    · rw [if_neg (Int32.not_lt.mpr hsend)] at hrun
      simp only [if_pos hsend, exec_of_ok hrun] at h
      cases h
      exact .requested hguard.1 (hguard.2 hsend)
    · rw [if_pos (Int32.not_le.mp hsend)] at hrun
      simp only [if_neg hsend, exec_of_exit hrun] at h
      cases h
      exact .requestFailed
  · cases h

/-- The transitions of a receive. -/
theorem transition_of_stepReceive {c : Caller} {r : Option Received} {request : Request}
    (h : stepReceive env s c r request = some s') :
    Transition env s (.receive c r request) s' := by
  unfold stepReceive at h
  split at h
  · rename_i hguard
    cases h
    obtain ⟨result, hrun⟩ := receivePart_run env r ⟨s.rth, []⟩
    -- what the kernel delivers is recorded first
    let t : State := { s with delivered := s.delivered ++ replies request r }
    cases result with
    | ok last =>
      rw [exec_of_ok (s := t) hrun]
      simp only [foldl_after_print]
      exact .received hguard.1 hguard.2 (by cases last <;> simp)
    | error status =>
      rw [exec_of_exit (s := t) hrun]
      simp only [foldl_after_print]
      exact .receiveFailed hguard.1 hguard.2
  · cases h

/-- The transitions of `rtnl_close`. -/
theorem transition_of_stepRtnlClose {c : Caller} (h : stepRtnlClose s c = some s') :
    Transition env s (.rtnlClose c) s' := by
  unfold stepRtnlClose at h
  split at h
  · rename_i hguard
    cases h
    -- `rtnl_close` closes nothing when the handle holds no descriptor.
    by_cases hfd : 0 ≤ s.rth.fd
    · rw [exec_of_ok (closePart_of_nonneg (p := ⟨s.rth, []⟩) hfd)]
      exact .closed hguard hfd
    · rw [exec_of_ok (closePart_of_neg (p := ⟨s.rth, []⟩) (Int32.not_le.mp hfd))]
      exact .closedNothing hguard (Int32.not_le.mp hfd)
  · cases h

/-- Every step is a transition. -/
theorem transition_of_step (h : step env s l = some s') : Transition env s l s' := by
  have hrunning : ¬ s.exited.isSome = true := by simp [exited_of_step h]
  unfold step at h
  rw [if_neg hrunning] at h
  cases l with
  | rtnlOpen c k => exact transition_of_stepRtnlOpen h
  | dumpRequest c k => exact transition_of_stepDumpRequest h
  | receive c r request => exact transition_of_stepReceive h
  | rtnlClose c => exact transition_of_stepRtnlClose h

end LanScan.Android.NativeIPNeighCalls
