import Mathlib.Logic.Function.Basic
import LanScan.ForStd.Lts
import LanScan.Native.Android.NativeIPNeigh

/-!
# Two calls of nativeIPNeigh

`stopScanning` does not interrupt a call of `nativeIPNeigh`, so the next scan can make a
call while that of the stopped scan is still running.  Both work on the global `rth`.
Here the code of `nativeIPNeigh` is cut into the parts that are atomic: opening the
socket, the dump request, each turn of the dump loop, and closing the socket.

`filter` is global as well, but every call sets it to the same values before it receives
anything.
-/

namespace LanScan.Android.NativeIPNeighCalls

open NativeIPNeigh

/-! ## The parts of nativeIPNeigh -/

/-- `fdopen` and `rtnl_open` -/
def openPart (k : Kernel) : C Unit := do
  if !k.fdopen then exit exitFailure
  if (← rtnlOpen k) < 0 then exit 1

/-- The dump request of `do_show_or_flush`. -/
def requestPart (k : Kernel) : C Unit := do
  if (← rtnlDumpRequestN k) < 0 then exit 1

/-- A turn of the loop of `rtnl_dump_filter_l`, for `do_show_or_flush`, and whether it is the
    last one.  `none` is EOF on netlink. -/
def receivePart (env : NeighEnv) : Option Received → C Bool
  | none => exit 1
  | some .interrupted => return false
  | some .failed => exit 1
  | some (.datagram d) => do
    match ← filterMessages env d.nlPid d.messages with
    | .returned err => if err < 0 then exit 1 else return true
    | .foundDone => return true
    | .exhausted =>
      if d.truncated then return false
      else if d.remnant then exit 1
      else return false

/-- All turns of that loop.  It waits for the next one in `recvmsg`. -/
def receiveParts (env : NeighEnv) : List Received → C Unit
  | [] => block
  | r :: rest => do
    if ← receivePart env (some r) then return
    else receiveParts env rest

/-- `rtnl_close` and `fclose` -/
def closePart : C Unit := do
  rtnlClose
  syscall .closePipe

/-! ## The state -/

/-- Whose call of `nativeIPNeigh` it is. -/
inductive Caller where
  | stoppedScan
  | newScan
  deriving DecidableEq, Repr

/-- The other call. -/
def Caller.other : Caller → Caller
  | .stoppedScan => .newScan
  | .newScan => .stoppedScan

/-- Where a call stands. -/
inductive Pc where
  /-- in front of `rtnl_open` -/
  | called
  /-- in front of the dump request -/
  | opened
  /-- in the dump loop -/
  | receiving
  /-- in front of `rtnl_close` -/
  | received
  | returned
  deriving DecidableEq, Repr

/-- Between `rtnl_open` and `rtnl_close`. -/
def Pc.inside : Pc → Bool
  | .opened | .receiving | .received => true
  | .called | .returned => false

/-- A dump request: the call that makes it, and its number. -/
structure Request where
  caller : Caller
  nlmsgSeq : UInt32
  deriving DecidableEq, Repr

/-- A netlink socket. -/
structure Socket where
  fd : Int32
  /-- the dump requests sent on it -/
  requests : List Request
  /-- how often it has been closed -/
  closes : Nat
  deriving DecidableEq, Repr

/-- A new socket. -/
def Socket.new (fd : Int32) : Socket := { fd, requests := [], closes := 0 }

/-- A dump request is sent. -/
def Socket.send (x : Socket) (r : Request) : Socket := { x with requests := x.requests ++ [r] }

/-- `close` -/
def Socket.close (x : Socket) : Socket := { x with closes := x.closes + 1 }

/-- The socket is open under a descriptor. -/
def Socket.isOpen (x : Socket) (fd : Int32) : Bool := x.closes == 0 && x.fd == fd

/-- Change the socket that a descriptor stands for: of those that have had it, the newest.
    The newest socket is the first one. -/
def modifyFd (fd : Int32) (f : Socket → Socket) : List Socket → List Socket
  | [] => []
  | x :: sockets => if x.fd = fd then f x :: sockets else x :: modifyFd fd f sockets

/-- A neighbour in a reply, and the call whose dump request it replies to. -/
structure Reply where
  request : Caller
  neigh : NeighMsg
  deriving DecidableEq, Repr

/-- Bytes on a pipe, and the call whose dump request they reply to. -/
structure Line where
  request : Caller
  bytes : List UInt8
  deriving DecidableEq, Repr

/-- State of the process and of its netlink sockets. -/
structure State where
  rth : RtnlHandle
  /-- the sockets ever opened, newest first -/
  sockets : List Socket
  pc : Caller → Pc
  /-- the neighbours received so far -/
  delivered : List Reply
  /-- what each call has printed to its own pipe -/
  printed : Caller → List Line
  /-- the process is gone -/
  exited : Option Int32

/-- The effect of a system call of call `c`.  `fd` is the descriptor that is opened or
    closed, `request` the call whose replies are printed. -/
def State.after (s : State) (c : Caller) (fd : Int32) (request : Caller) : Syscall → State
  | .openSocket => { s with sockets := .new fd :: s.sockets }
  | .write bytes =>
    { s with printed := Function.update s.printed c (s.printed c ++ [⟨request, bytes⟩]) }
  | .closeSocket => { s with sockets := modifyFd fd .close s.sockets }
  -- each call has a pipe of its own
  | .closePipe => s

/-- Call `c` runs a part of its code. -/
def State.exec {α : Type} (s : State) (c : Caller) (fd : Int32) (request : Caller) (part : C α)
    (next : α → Pc) : State :=
  let (result, p) := part.run.run ⟨s.rth, []⟩
  let s := { p.calls.foldl (fun s call => s.after c fd request call) s with rth := p.rth }
  match result with
  | .ok a => { s with pc := Function.update s.pc c (next a) }
  | .error (.exit status) => { s with exited := some status }
  -- no part waits
  | .error .blocked => s

/-! ## The steps -/

/-- Who moves next, and what the system calls come to. -/
inductive Label where
  | rtnlOpen (c : Caller) (k : Kernel)
  | dumpRequest (c : Caller) (k : Kernel)
  /-- `request` is the dump request that a datagram of the kernel replies to -/
  | receive (c : Caller) (r : Option Received) (request : Request)
  | rtnlClose (c : Caller)
  deriving DecidableEq, Repr

/-- No open socket has the descriptor. -/
def State.isFree (s : State) (fd : Int32) : Bool := s.sockets.all fun x => !x.isOpen fd

/-- The descriptor is that of an open socket. -/
def State.isOpen (s : State) (fd : Int32) : Bool := s.sockets.any fun x => x.isOpen fd

/-- What `recvmsg` can return.  A datagram comes to an open socket: from the kernel, in
    reply to a dump request sent on this socket, or from another process. -/
def State.canReceive (s : State) (request : Request) : Option Received → Bool
  | some (.datagram d) => s.sockets.any fun x => x.isOpen s.rth.fd &&
      (d.nlPid != 0 || x.requests.contains request &&
        d.messages.all fun m => m.nlmsgSeq == request.nlmsgSeq)
  | _ => true

/-- The neighbours at the front of some messages. -/
def neighboursIn : List NlBody → List NeighMsg
  | .neigh n :: bodies => n :: neighboursIn bodies
  | _ => []

/-- The neighbours in what the kernel replies to a dump request. -/
def replies (request : Request) : Option Received → List Reply
  | some (.datagram d) =>
    if d.nlPid = 0 then (neighboursIn (d.messages.map (·.body))).map (⟨request.caller, ·⟩) else []
  | _ => []

/-- Call `c` opens a socket, which gets a descriptor that is free. -/
def stepRtnlOpen (s : State) (c : Caller) (k : Kernel) : Option State :=
  if s.pc c = .called ∧ s.isFree k.socket then
    some (s.exec c k.socket c (openPart k) fun _ => .opened)
  else none

/-- Call `c` requests a dump.  Only an open socket takes a message. -/
def stepDumpRequest (s : State) (c : Caller) (k : Kernel) : Option State :=
  if s.pc c = .opened ∧ (0 ≤ k.sendmsg → s.isOpen s.rth.fd) then
    let s := s.exec c s.rth.fd c (requestPart k) fun _ => .receiving
    if 0 ≤ k.sendmsg then
      some { s with sockets := modifyFd s.rth.fd (·.send ⟨c, s.rth.dump⟩) s.sockets }
    else some s
  else none

/-- Call `c` receives something. -/
def stepReceive (env : NeighEnv) (s : State) (c : Caller) (r : Option Received)
    (request : Request) : Option State :=
  if s.pc c = .receiving ∧ s.canReceive request r then
    let s := { s with delivered := s.delivered ++ replies request r }
    some (s.exec c s.rth.fd request.caller (receivePart env r) fun last =>
      if last then .received else .receiving)
  else none

/-- Call `c` closes the socket. -/
def stepRtnlClose (s : State) (c : Caller) : Option State :=
  if s.pc c = .received then some (s.exec c s.rth.fd c closePart fun _ => .returned) else none

/-- One atomic step of one of the calls. -/
def step (env : NeighEnv) (s : State) (l : Label) : Option State :=
  if s.exited.isSome then none
  else
    match l with
    | .rtnlOpen c k => stepRtnlOpen s c k
    | .dumpRequest c k => stepDumpRequest s c k
    | .receive c r request => stepReceive env s c r request
    | .rtnlClose c => stepRtnlClose s c

/-- The state when `stopScanning` has been called: neither call has come to `rtnl_open`. -/
def init (rth : RtnlHandle) : State where
  rth := rth
  sockets := []
  pc _ := .called
  delivered := []
  printed _ := []
  exited := none

/-- Both calls as a transition system. -/
def calls (env : NeighEnv) (rth : RtnlHandle) : Lts State Label where
  init := init rth
  step := step env

end LanScan.Android.NativeIPNeighCalls
