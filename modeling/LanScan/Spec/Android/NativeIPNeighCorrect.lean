import LanScan.Native.Android.ArpTable
import LanScan.Native.Android.NativeIPNeigh

/-!
# Outcomes of nativeIPNeigh

What a call of `nativeIPNeigh` does for every combination of results of the calls it
makes.  `Reply` says when the kernel answers the dump request with a whole table, and
`Kernel.Succeeds` that every step succeeds.

## Key results

- `call_of_dump_ok`, `call_of_dump_failed`: what a dump leads to, whatever the loop in it
- `call_of_delivers`: the table is printed, everything is closed, and 0 is returned
- `call_of_not_succeeds`: with any failure the call does not return
- `handles_errors_iff`: so errors are reported to the caller in no case
-/

namespace LanScan.Android.NativeIPNeigh

variable {env : NeighEnv} {k : Kernel} {p : Process}

/-! ## Running C code -/

section Run

variable {α β : Type} {x : C α} {f : α → C β}

/-- A statement that returns hands its value on. -/
theorem run_bind_of_ok {a : α} {p' : Process} (h : x.run.run p = (.ok a, p')) :
    (x >>= f).run.run p = (f a).run.run p' := by
  rw [ExceptT.run_bind, StateT.run_bind, h]
  rfl

/-- A statement that stops ends the program. -/
theorem run_bind_of_error {stop : Stop} {p' : Process} (h : x.run.run p = (.error stop, p')) :
    (x >>= f).run.run p = (.error stop, p') := by
  rw [ExceptT.run_bind, StateT.run_bind, h]
  rfl

end Run

/-! ## The socket -/

/-- Every step of `rtnl_open` succeeds. -/
structure Kernel.Opens (k : Kernel) : Prop where
  socket : 0 ≤ k.socket
  setSndbuf : 0 ≤ k.setSndbuf
  setRcvbuf : 0 ≤ k.setRcvbuf
  getsockname : 0 ≤ k.getsockname
  addrLen : k.addrLen = sizeofSockaddrNl
  nlFamily : k.nlFamily = afNetlink

/-- When all its steps succeed, `rtnl_open` returns 0 with the socket in `rth`. -/
theorem rtnlOpen_of_opens (h : k.Opens) (p : Process) :
    (rtnlOpen k).run.run p =
      (.ok 0, { rth := ⟨k.socket, k.time, 0⟩, calls := p.calls ++ [.openSocket] }) := by
  simp only [rtnlOpen, if_neg (Int32.not_lt.mpr h.socket), if_neg (Int32.not_lt.mpr h.setSndbuf),
    if_neg (Int32.not_lt.mpr h.setRcvbuf), if_neg (Int32.not_lt.mpr h.getsockname), h.addrLen,
    h.nlFamily, ne_eq, not_true, if_false]
  rfl

/-- A socket that has been opened is left open when a later step fails. -/
theorem rtnlOpen_of_not_opens (h : ¬ k.Opens) (p : Process) :
    (rtnlOpen k).run.run p = (.ok (-1),
      { rth := ⟨k.socket, 0, 0⟩
        calls := if k.socket < 0 then p.calls else p.calls ++ [.openSocket] }) := by
  unfold rtnlOpen
  -- the steps in their order: the first one that fails returns -1
  by_cases hsocket : k.socket < 0
  · rw [if_pos hsocket, if_pos hsocket]; rfl
  rw [if_neg hsocket, if_neg hsocket]
  by_cases hsndbuf : k.setSndbuf < 0
  · rw [if_pos hsndbuf]; rfl
  by_cases hrcvbuf : k.setRcvbuf < 0
  · rw [if_neg hsndbuf, if_pos hrcvbuf]; rfl
  by_cases hname : k.getsockname < 0
  · rw [if_neg hsndbuf, if_neg hrcvbuf, if_pos hname]; rfl
  by_cases hlen : k.addrLen ≠ sizeofSockaddrNl
  · rw [if_neg hsndbuf, if_neg hrcvbuf, if_neg hname, if_pos hlen]; rfl
  by_cases hfamily : k.nlFamily ≠ afNetlink
  · rw [if_neg hsndbuf, if_neg hrcvbuf, if_neg hname, if_neg hlen, if_pos hfamily]; rfl
  exact absurd ⟨Int32.not_lt.mp hsocket, Int32.not_lt.mp hsndbuf, Int32.not_lt.mp hrcvbuf,
    Int32.not_lt.mp hname, Classical.not_not.mp hlen, Classical.not_not.mp hfamily⟩ h

/-! ## Printing -/

/-- The system calls that flush a text. -/
def flushCalls (text : List Char) : List Syscall :=
  if text = [] then [] else [.write text.utf8Bytes]

/-- The process after it has flushed some texts. -/
def Process.flush (p : Process) (texts : List (List Char)) : Process :=
  { p with calls := p.calls ++ texts.flatMap flushCalls }

/-- No text makes no call. -/
@[simp] theorem Process.flush_nil (p : Process) : p.flush [] = p := by simp [flush]

/-- Texts are written one behind the other. -/
theorem Process.flush_append (p : Process) (texts texts' : List (List Char)) :
    p.flush (texts ++ texts') = (p.flush texts).flush texts' := by
  simp [flush]

/-- `fflush` writes the text. -/
theorem run_fflush (text : List Char) (p : Process) :
    (fflush text).run.run p = (.ok (), p.flush [text]) := by
  unfold fflush Process.flush
  rw [List.flatMap_singleton, flushCalls]
  split
  · rw [List.append_nil]; rfl
  · rfl

/-- What no write changes is not changed by flushing. -/
theorem foldl_flushCalls {σ : Type} {f : σ → Syscall → σ} {d : σ}
    (hwrite : ∀ bytes, f d (.write bytes) = d) (texts : List (List Char)) :
    (texts.flatMap flushCalls).foldl f d = d := by
  induction texts with
  | nil => rfl
  | cons text texts ih =>
    rw [List.flatMap_cons, List.foldl_append, flushCalls]
    split
    · exact ih
    · rw [List.foldl_cons, hwrite]
      exact ih

/-- The process after it has printed some neighbours. -/
def Process.print (p : Process) (env : NeighEnv) (table : List NeighMsg) : Process :=
  p.flush (table.map (Android.printNeigh env showFilter))

/-- No neighbour prints nothing. -/
@[simp] theorem Process.print_nil (p : Process) (env : NeighEnv) : p.print env [] = p :=
  p.flush_nil

/-- Neighbours are printed one behind the other. -/
theorem Process.print_append (p : Process) (env : NeighEnv) (part table : List NeighMsg) :
    p.print env (part ++ table) = (p.print env part).print env table := by
  rw [print, List.map_append, flush_append]
  rfl

/-- `print_neigh` prints the neighbour and returns 0. -/
theorem run_printNeigh (env : NeighEnv) (n : NeighMsg) (p : Process) :
    (printNeigh env (.neigh n)).run.run p = (.ok 0, p.print env [n]) :=
  (run_bind_of_ok (run_fflush _ p)).trans rfl

/-! ## The dump -/

/-- The messages of a datagram that the dump loop does not skip. -/
def accepted (dump nlPid : UInt32) (messages : List NlMsg) : List NlBody :=
  messages.filterMap fun h => if nlPid ≠ 0 ∨ h.nlmsgSeq ≠ dump then none else some h.body

/-- How the loop over a datagram ends at the messages behind its neighbours. -/
def endOf : List NlBody → FilterEnd
  | [] => .exhausted
  | .done len :: _ => if rtnlDumpDone len < 0 then .returned (-1) else .foundDone
  | _ :: _ => .returned (-1)

/-- The neighbours in front are printed, and what follows them ends the loop. -/
theorem filterMessages_eq (env : NeighEnv) {nlPid : UInt32} {messages : List NlMsg}
    {part : List NeighMsg} {bodies : List NlBody}
    (h : accepted p.rth.dump nlPid messages = part.map .neigh ++ bodies)
    (hbodies : ∀ n rest, bodies ≠ .neigh n :: rest) :
    (filterMessages env nlPid messages).run.run p = (.ok (endOf bodies), p.print env part) := by
  induction messages generalizing p part with
  | nil =>
    obtain ⟨hpart, rfl⟩ := List.append_eq_nil_iff.mp (show [] = _ from h).symm
    rw [List.map_eq_nil_iff.mp hpart, Process.print_nil]
    rfl
  | cons m rest ih =>
    refine (run_bind_of_ok (show (get : C Process).run.run p = (.ok p, p) from rfl)).trans ?_
    by_cases hskip : nlPid ≠ 0 ∨ m.nlmsgSeq ≠ p.rth.dump
    · rw [if_pos hskip]
      exact ih (by simpa [accepted, hskip] using h)
    · rw [if_neg hskip]
      have hcons : accepted p.rth.dump nlPid (m :: rest) =
          m.body :: accepted p.rth.dump nlPid rest := by simp [accepted, hskip]
      rw [hcons] at h
      cases part with
      | nil =>
        -- the first message that is no neighbour
        have hfirst : m.body :: accepted p.rth.dump nlPid rest = bodies := h
        subst hfirst
        rw [Process.print_nil]
        cases hbody : m.body with
        | done len => simp only [endOf]; split <;> rfl
        | error => rfl
        | neigh n => exact absurd (by rw [hbody]) (hbodies n (accepted p.rth.dump nlPid rest))
        | short => rfl
      | cons n part =>
        obtain ⟨hbody, hrest⟩ := List.cons.inj h
        rw [hbody, show n :: part = [n] ++ part from rfl, Process.print_append]
        exact (run_bind_of_ok (run_printNeigh env n p)).trans (ih hrest)

/-- Messages are neighbours followed by something else, or by nothing. -/
theorem exists_neigh_append (bodies : List NlBody) : ∃ (part : List NeighMsg) (tail : List NlBody),
    bodies = part.map .neigh ++ tail ∧ ∀ n rest, tail ≠ .neigh n :: rest := by
  induction bodies with
  | nil => exact ⟨[], [], rfl, nofun⟩
  | cons b bodies ih =>
    obtain ⟨part, tail, rfl, htail⟩ := ih
    cases b with
    -- The part goes on for as long as the messages are neighbours.
    | neigh n => exact ⟨n :: part, tail, rfl, htail⟩
    | done len => exact ⟨[], _, rfl, nofun⟩
    | error => exact ⟨[], _, rfl, nofun⟩
    | short => exact ⟨[], _, rfl, nofun⟩

/-- `rtnl_dump_done` fails unless the length field is there and not negative. -/
theorem rtnlDumpDone_lt_zero_iff (len : Option Int32) :
    rtnlDumpDone len < 0 ↔ ¬ ∃ n, len = some n ∧ 0 ≤ n := by
  have hminus : (-1 : Int32) < 0 := by decide
  cases len with
  | none => simp [rtnlDumpDone, hminus]
  | some n =>
    simp only [rtnlDumpDone, Option.some.injEq, exists_eq_left', Int32.not_le]
    -- the length field is the error: a negative one is returned, another one is none
    by_cases hn : n < 0
    · simp only [hn, if_true, iff_true]
      split
      · exact hminus
      · exact hn
    · simp only [hn, if_false, iff_false]
      decide

/-- The results of `recvmsg` are the neighbours of a whole table: in one datagram or
    in several, up to a `DONE` that reports no error. -/
inductive Reply (dump : UInt32) : List Received → List NeighMsg → Prop
  | interrupted {rest table} (h : Reply dump rest table) :
      Reply dump (.interrupted :: rest) table
  | part {d rest part table} (hd : accepted dump d.nlPid d.messages = part.map .neigh)
      (hwhole : d.truncated = true ∨ d.remnant = false) (h : Reply dump rest table) :
      Reply dump (.datagram d :: rest) (part ++ table)
  | last {d rest part len ignored}
      (hd : accepted dump d.nlPid d.messages = part.map .neigh ++ .done (some len) :: ignored)
      (hlen : 0 ≤ len) : Reply dump (.datagram d :: rest) part

/-- A whole table is printed, and the dump loop returns 0. -/
theorem rtnlDumpFilterL_of_reply (env : NeighEnv) {received : List Received} {table : List NeighMsg}
    (h : Reply p.rth.dump received table) :
    (rtnlDumpFilterL env received).run.run p = (.ok 0, p.print env table) := by
  induction received generalizing p table with
  | nil => cases h
  | cons r rest ih =>
    cases h with
    | interrupted h => exact ih h
    | @part d _ part table hd hwhole h =>
      -- entries: they are printed, and the loop goes on with the next datagram
      have hfilter := filterMessages_eq env (hd.trans (List.append_nil _).symm) nofun
      unfold rtnlDumpFilterL
      rw [run_bind_of_ok hfilter]
      have hih := ih (p := p.print env part) h
      rw [← Process.print_append] at hih
      rcases hwhole with htruncated | hremnant
      · simpa [endOf, htruncated] using hih
      · simpa [endOf, hremnant] using hih
    | @last d _ _ len ignored hd hlen =>
      have hfilter := filterMessages_eq env hd nofun
      -- the `DONE` behind the last ones ends it
      have hdone : ¬ rtnlDumpDone (some len) < 0 := by simp [rtnlDumpDone_lt_zero_iff, hlen]
      unfold rtnlDumpFilterL
      rw [run_bind_of_ok hfilter]
      simp only [endOf, if_neg hdone]
      rfl

/-- Without a whole table the dump loop fails, or stops by itself. -/
theorem rtnlDumpFilterL_of_not_reply (env : NeighEnv) {received : List Received}
    (h : ∀ table, ¬ Reply p.rth.dump received table) :
    ∃ p', (∃ stop, (rtnlDumpFilterL env received).run.run p = (.error stop, p')) ∨
      ∃ err, err < 0 ∧ (rtnlDumpFilterL env received).run.run p = (.ok err, p') := by
  have hminus : (-1 : Int32) < 0 := by decide
  induction received generalizing p with
  | nil => exact ⟨p, .inl ⟨.blocked, rfl⟩⟩
  | cons r rest ih =>
    cases r with
    | interrupted => exact ih fun table hrest => h table (.interrupted hrest)
    | failed => exact ⟨p, .inr ⟨-1, hminus, rfl⟩⟩
    | datagram d =>
      obtain ⟨part, tail, hd, htail⟩ := exists_neigh_append (accepted p.rth.dump d.nlPid d.messages)
      unfold rtnlDumpFilterL
      rw [run_bind_of_ok (filterMessages_eq env hd htail)]
      cases tail with
      | nil =>
        rw [List.append_nil] at hd
        have hrest (hwhole : d.truncated = true ∨ d.remnant = false) :=
          ih (p := p.print env part) fun table hrest => h _ (.part hd hwhole hrest)
        simp only [endOf]
        by_cases htruncated : d.truncated = true
        · rw [if_pos htruncated]
          exact hrest (.inl htruncated)
        · rw [if_neg htruncated]
          by_cases hremnant : d.remnant = true
          · rw [if_pos hremnant]
            exact ⟨_, .inl ⟨_, rfl⟩⟩
          · rw [if_neg hremnant]
            exact hrest (.inr (by simpa using hremnant))
      | cons b ignored =>
        cases b with
        | neigh n => exact absurd rfl (htail n ignored)
        | error => exact ⟨_, .inr ⟨-1, hminus, rfl⟩⟩
        | short => exact ⟨_, .inr ⟨-1, hminus, rfl⟩⟩
        | done len =>
          by_cases hdone : rtnlDumpDone len < 0
          · simp only [endOf, if_pos hdone]
            exact ⟨_, .inr ⟨-1, hminus, rfl⟩⟩
          · -- a `DONE` without an error would complete the table
            rw [rtnlDumpDone_lt_zero_iff, Classical.not_not] at hdone
            obtain ⟨n, rfl, hn⟩ := hdone
            exact absurd (.last hd hn) (h part)

/-! ## The whole call -/

/-- The steps of `nativeIPNeigh` succeed up to the dump request. -/
structure Kernel.Requests (k : Kernel) : Prop where
  fdopen : k.fdopen = true
  opens : k.Opens
  sendmsg : 0 ≤ k.sendmsg

/-- The dump request counts up `rth.seq`, and its answers carry that number. -/
theorem rtnlDumpRequestN_eq (k : Kernel) (p : Process) : (rtnlDumpRequestN k).run.run p =
    (.ok k.sendmsg, { p with rth := ⟨p.rth.fd, p.rth.seq + 1, p.rth.seq + 1⟩ }) := rfl

/-- The process when the dump has been requested. -/
def requested (k : Kernel) : Process where
  rth := ⟨k.socket, k.time + 1, k.time + 1⟩
  calls := [.openSocket]

section Dump

variable {dump : C Int32} {rth : RtnlHandle}

/-- `nativeIPNeigh` once the socket is open. -/
theorem call_of_opens (hfdopen : k.fdopen = true) (hopens : k.Opens) (dump : C Int32)
    (rth : RtnlHandle) : (nativeIPNeighWith k dump).call rth =
      (do
        let res ← doShowOrFlushWith k dump
        rtnlClose
        syscall .closePipe
        return res : C Int32).run.run ⟨⟨k.socket, k.time, 0⟩, [.openSocket]⟩ := by
  have hzero : ¬ (0 : Int32) < 0 := by decide
  unfold C.call nativeIPNeighWith
  rw [if_neg (by simp [hfdopen]), run_bind_of_ok (rtnlOpen_of_opens hopens _), if_neg hzero]
  rfl

/-- A step in front of the dump that fails exits the process. -/
theorem call_of_not_requests (h : ¬ k.Requests) (dump : C Int32) (rth : RtnlHandle) :
    ∃ p, (nativeIPNeighWith k dump).call rth = (.error (.exit 1), p) := by
  by_cases hfdopen : k.fdopen = true
  · by_cases hopens : k.Opens
    -- the request fails, and `do_show_or_flush` exits
    · have hsend : k.sendmsg < 0 := Int32.not_le.mp fun hsend => h ⟨hfdopen, hopens, hsend⟩
      have hshow : (doShowOrFlushWith k dump).run.run ⟨⟨k.socket, k.time, 0⟩, [.openSocket]⟩ =
          (.error (.exit 1), requested k) := by
        unfold doShowOrFlushWith
        rw [run_bind_of_ok (rtnlDumpRequestN_eq k _), if_pos hsend]
        rfl
      rw [call_of_opens hfdopen hopens]
      exact ⟨_, run_bind_of_error hshow⟩
    -- the socket fails, and `nativeIPNeigh` exits
    · have hopen := rtnlOpen_of_not_opens hopens ⟨rth, []⟩
      unfold C.call nativeIPNeighWith
      rw [if_neg (by simp [hfdopen]), run_bind_of_ok hopen]
      exact ⟨_, rfl⟩
  -- `fdopen` fails, and it exits before anything else
  · refine ⟨⟨rth, []⟩, ?_⟩
    unfold C.call nativeIPNeighWith
    rw [if_pos (by simpa using hfdopen)]
    rfl

/-- `do_show_or_flush` goes on with the dump once it is requested. -/
theorem run_doShowOrFlushWith (h : k.Requests) (dump : C Int32) :
    (doShowOrFlushWith k dump).run.run ⟨⟨k.socket, k.time, 0⟩, [.openSocket]⟩ =
      (do
        if (← dump) < 0 then exit 1
        return 0 : C Int32).run.run (requested k) := by
  unfold doShowOrFlushWith
  rw [run_bind_of_ok (rtnlDumpRequestN_eq k _), if_neg (Int32.not_lt.mpr h.sendmsg)]
  rfl

/-- A dump that stops stops the call. -/
theorem call_of_dump_stopped {stop : Stop} (h : k.Requests)
    (hdump : dump.run.run (requested k) = (.error stop, p)) :
    (nativeIPNeighWith k dump).call rth = (.error stop, p) := by
  have hshow := run_doShowOrFlushWith h dump
  rw [run_bind_of_error hdump] at hshow
  rw [call_of_opens h.fdopen h.opens]
  exact run_bind_of_error hshow

/-- A dump that fails exits the process. -/
theorem call_of_dump_failed {err : Int32} (h : k.Requests)
    (hdump : dump.run.run (requested k) = (.ok err, p)) (herr : err < 0) :
    (nativeIPNeighWith k dump).call rth = (.error (.exit 1), p) := by
  have hshow := run_doShowOrFlushWith h dump
  rw [run_bind_of_ok hdump, if_pos herr] at hshow
  rw [call_of_opens h.fdopen h.opens]
  exact run_bind_of_error hshow

/-- After a dump that returns 0 the socket and the pipe are closed, and 0 is returned. -/
theorem call_of_dump_ok {texts : List (List Char)} (h : k.Requests)
    (hdump : dump.run.run (requested k) = (.ok 0, (requested k).flush texts)) :
    (nativeIPNeighWith k dump).call rth =
      (.ok 0,
        { rth := ⟨-1, k.time + 1, k.time + 1⟩
          calls := .openSocket :: texts.flatMap flushCalls ++ [.closeSocket, .closePipe] }) := by
  have hzero : ¬ (0 : Int32) < 0 := by decide
  have hshow := run_doShowOrFlushWith h dump
  rw [run_bind_of_ok hdump, if_neg hzero] at hshow
  -- the socket that was opened is closed again
  have hclose : rtnlClose.run.run ((requested k).flush texts) =
      (.ok (), { rth := ⟨-1, k.time + 1, k.time + 1⟩
                 calls := .openSocket :: texts.flatMap flushCalls ++ [.closeSocket] }) := by
    unfold rtnlClose
    rw [run_bind_of_ok (show (get : C Process).run.run _ = (.ok _, _) from rfl)]
    rw [if_pos (show 0 ≤ ((requested k).flush texts).rth.fd from h.opens.socket)]
    rfl
  rw [call_of_opens h.fdopen h.opens, run_bind_of_ok hshow, run_bind_of_ok hclose]
  show (Except.ok (0 : Int32), (⟨_, _⟩ : Process)) = _
  simp

/-- The descriptors after such a call. -/
theorem descriptors_of_dump_ok (rth : RtnlHandle) (texts : List (List Char)) :
    (Process.mk rth (.openSocket :: texts.flatMap flushCalls ++
      [.closeSocket, .closePipe])).descriptors = { pipe := false, sockets := 0 } := by
  simp only [Process.descriptors, List.cons_append, List.foldl_cons, List.foldl_append,
    foldl_flushCalls (f := Descriptors.after) fun _ => rfl]
  rfl

end Dump

/-- The steps of `nativeIPNeigh` all succeed, and the dump delivers a table. -/
structure Kernel.Delivers (k : Kernel) (table : List NeighMsg) : Prop where
  fdopen : k.fdopen = true
  opens : k.Opens
  sendmsg : 0 ≤ k.sendmsg
  reply : Reply (k.time + 1) k.recvmsg table

/-- The steps of `nativeIPNeigh` all succeed. -/
def Kernel.Succeeds (k : Kernel) : Prop := ∃ table, k.Delivers table

/-- When every step succeeds the table is printed, the socket and the pipe are closed,
    and 0 is returned. -/
theorem call_of_delivers {table : List NeighMsg} (env : NeighEnv) (rth : RtnlHandle)
    (h : k.Delivers table) : call env k rth =
      (.ok 0, { rth := ⟨-1, k.time + 1, k.time + 1⟩
                calls := .openSocket ::
                  (table.map (Android.printNeigh env showFilter)).flatMap flushCalls ++
                  [.closeSocket, .closePipe] }) :=
  call_of_dump_ok ⟨h.fdopen, h.opens, h.sendmsg⟩
    (rtnlDumpFilterL_of_reply env (p := requested k) h.reply)

/-- Otherwise the call does not return. -/
theorem call_of_not_succeeds (env : NeighEnv) (rth : RtnlHandle) (h : ¬ k.Succeeds) :
    ∃ stop p, call env k rth = (.error stop, p) := by
  by_cases hrequests : k.Requests
  · have hreply : ∀ table, ¬ Reply (requested k).rth.dump k.recvmsg table := fun table hr =>
      h ⟨table, hrequests.fdopen, hrequests.opens, hrequests.sendmsg, hr⟩
    obtain ⟨p', ⟨stop, hstop⟩ | ⟨err, herr, hdump⟩⟩ :=
      rtnlDumpFilterL_of_not_reply env (p := requested k) hreply
    · exact ⟨stop, p', call_of_dump_stopped hrequests hstop⟩
    · exact ⟨.exit 1, p', call_of_dump_failed hrequests hdump herr⟩
  · exact ⟨.exit 1, call_of_not_requests hrequests _ rth⟩

/-- A call that returns has closed the socket and the write side of the pipe. -/
theorem closed_of_ok {rth : RtnlHandle} {code : Int32} (h : (call env k rth).1 = .ok code) :
    code = 0 ∧ (call env k rth).2.descriptors = { pipe := false, sockets := 0 } := by
  by_cases hsucceeds : k.Succeeds
  · obtain ⟨table, hdelivers⟩ := hsucceeds
    rw [call_of_delivers env rth hdelivers] at h ⊢
    cases h
    exact ⟨rfl, descriptors_of_dump_ok _ _⟩
  · obtain ⟨stop, p', hstop⟩ := call_of_not_succeeds env rth hsucceeds
    rw [hstop] at h
    cases h

/-- **Errors of the native steps.** Whatever the steps of `nativeIPNeigh` come to, it
    returns to its caller with everything closed, and with a code that tells whether a
    step failed, if and only if no step failed. -/
theorem handles_errors_iff (env : NeighEnv) (k : Kernel) (rth : RtnlHandle) :
    (∃ code p, call env k rth = (.ok code, p) ∧ (code ≠ 0 ↔ ¬ k.Succeeds) ∧
      p.descriptors = { pipe := false, sockets := 0 } ∧
      (¬ k.Succeeds → ∀ getByName text,
        parseAndExtractValidArpFromInputStream getByName code text = [])) ↔
    k.Succeeds := by
  constructor
  · rintro ⟨code, p, hcall, -⟩
    -- with a step that failed it would not have returned
    by_cases h : k.Succeeds
    · exact h
    · obtain ⟨stop, p', hstop⟩ := call_of_not_succeeds env rth h
      rw [hstop] at hcall
      cases hcall
  · intro h
    obtain ⟨table, hdelivers⟩ := id h
    have hcall := call_of_delivers env rth hdelivers
    have hclosed := (closed_of_ok (congrArg Prod.fst hcall)).2
    rw [hcall] at hclosed
    exact ⟨0, _, hcall, by simp [h], hclosed, fun hfails => absurd h hfails⟩

/-- The app has run out of file descriptors. -/
def exhaustedKernel : Kernel where
  fdopen := true
  socket := -1
  setSndbuf := 0
  setRcvbuf := 0
  getsockname := 0
  addrLen := sizeofSockaddrNl
  nlFamily := afNetlink
  time := 0
  sendmsg := 0
  recvmsg := []

/-- A socket that cannot be opened ends the whole app. -/
theorem exits_process : ¬ ∀ (env : NeighEnv) (k : Kernel) (rth : RtnlHandle),
    ∃ code p, call env k rth = (.ok code, p) ∧ (code ≠ 0 ↔ ¬ k.Succeeds) ∧
      p.descriptors = { pipe := false, sockets := 0 } ∧
      (¬ k.Succeeds → ∀ getByName text,
        parseAndExtractValidArpFromInputStream getByName code text = []) := by
  intro h
  -- Any environment does: the call exits before it prints.
  let env : NeighEnv :=
    { inetNtop := fun _ _ => [], ifIndextoname := fun _ => none, idxHead := fun _ => [] }
  obtain ⟨code, p, hcall, -⟩ := h env exhaustedKernel ⟨-1, 0, 0⟩
  have hexit : (call env exhaustedKernel ⟨-1, 0, 0⟩).1 = .error (.exit 1) := by decide
  rw [hcall] at hexit
  cases hexit

end LanScan.Android.NativeIPNeigh
