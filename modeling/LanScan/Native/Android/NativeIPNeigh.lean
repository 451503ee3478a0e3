import LanScan.ForStd.Utf8
import LanScan.Native.Android.IpNeigh

/-!
# nativeIPNeigh

The native half of reading the ARP table: the netlink socket and the dump loop of
`libnetlink.c`, `do_show_or_flush`, and `nativeIPNeigh` itself.  A call of it makes
system calls, in order, and then returns to the Kotlin side, exits the process or waits
for ever in `recvmsg`.  What happens to its writes when the pipe is full is not said here
but in `ArpPipe`.

Only those system calls are recorded that others can see.  What is printed to
`stderr` is left out, and so are the fields of `rtnl_handle` that nothing here reads.
-/

namespace LanScan.Android.NativeIPNeigh

/-! ## Constants -/

def afNetlink : UInt16 := 16

/-- `sizeof(struct sockaddr_nl)` -/
def sizeofSockaddrNl : UInt32 := 12

def enoent : Int32 := 2
def eopnotsupp : Int32 := 95

/-- `EXIT_FAILURE` -/
def exitFailure : Int32 := 1

/-! ## The kernel -/

/-- What follows the header of a netlink message, by its `nlmsg_type`. -/
inductive NlBody where
  /-- `NLMSG_DONE` with its length field, if it is long enough to have one -/
  | done (len : Option Int32)
  /-- `NLMSG_ERROR` -/
  | error
  /-- any other type -/
  | neigh (n : NeighMsg)
  /-- a neighbour message shorter than its `ndmsg` -/
  | short
  deriving DecidableEq, Repr

/-- A netlink message. -/
structure NlMsg where
  nlmsgSeq : UInt32
  body : NlBody
  deriving DecidableEq, Repr

/-- What one call of `recvmsg` puts into the buffer. -/
structure Datagram where
  nlPid : UInt32
  /-- the messages for which `NLMSG_OK` holds -/
  messages : List NlMsg
  /-- bytes are left behind them -/
  remnant : Bool
  /-- `MSG_TRUNC` -/
  truncated : Bool
  deriving DecidableEq, Repr

/-- The result of one call of `recvmsg`. -/
inductive Received where
  /-- `EINTR` or `EAGAIN` -/
  | interrupted
  /-- any other error -/
  | failed
  | datagram (d : Datagram)
  deriving DecidableEq, Repr

/-- The results of the library and system calls of `nativeIPNeigh`.  After the results
    of `recvmsg` that are listed nothing comes any more, and the next call of it blocks. -/
structure Kernel where
  /-- `fdopen` returns a stream -/
  fdopen : Bool
  socket : Int32
  setSndbuf : Int32
  setRcvbuf : Int32
  getsockname : Int32
  addrLen : UInt32
  nlFamily : UInt16
  time : UInt32
  sendmsg : Int32
  recvmsg : List Received
  deriving DecidableEq, Repr

/-! ## The process -/

/-- A system call that others can see. -/
inductive Syscall where
  /-- a netlink socket is opened -/
  | openSocket
  /-- bytes go to the write side of the pipe -/
  | write (bytes : List UInt8)
  | closeSocket
  /-- the write side of the pipe is closed -/
  | closePipe
  deriving DecidableEq, Repr

/-- The descriptors that a call of `nativeIPNeigh` has to close. -/
structure Descriptors where
  /-- the write side of the pipe is open -/
  pipe : Bool
  /-- how many netlink sockets are open -/
  sockets : Nat
  deriving DecidableEq, Repr

/-- What a system call does to the descriptors. -/
def Descriptors.after (d : Descriptors) : Syscall → Descriptors
  | .openSocket => { d with sockets := d.sockets + 1 }
  | .write _ => d
  | .closeSocket => { d with sockets := d.sockets - 1 }
  | .closePipe => { d with pipe := false }

/-- The descriptors when `nativeIPNeigh` is called: the write side of a new pipe. -/
def Descriptors.atCall : Descriptors := { pipe := true, sockets := 0 }

/-- `struct rtnl_handle` -/
structure RtnlHandle where
  fd : Int32
  seq : UInt32
  dump : UInt32
  deriving DecidableEq, Repr

/-- The global `rth`, and the system calls made so far. -/
structure Process where
  rth : RtnlHandle
  calls : List Syscall
  deriving DecidableEq, Repr

/-- The descriptors open after the system calls made so far. -/
def Process.descriptors (p : Process) : Descriptors :=
  p.calls.foldl Descriptors.after Descriptors.atCall

/-- How C code ends that does not return. -/
inductive Stop where
  | exit (status : Int32)
  /-- in a system call that does not return -/
  | blocked
  deriving DecidableEq, Repr

/-- C code, which returns or stops. -/
abbrev C := ExceptT Stop (StateM Process)

/-- Make a system call. -/
def syscall (c : Syscall) : C Unit := modify fun p => { p with calls := p.calls ++ [c] }

/-- `exit` -/
def exit {α : Type} (status : Int32) : C α := throw (.exit status)

/-- A system call that does not return. -/
def block {α : Type} : C α := throw .blocked

/-- `fflush`, which has nothing to write if nothing has been printed. -/
def fflush (text : List Char) : C Unit :=
  if text = [] then return () else syscall (.write text.utf8Bytes)

/-- Assign to `rth`. -/
def setRth (rth : RtnlHandle) : C Unit := modify fun p => { p with rth }

/-! ## libnetlink.c -/

/-- `rtnl_close` -/
def rtnlClose : C Unit := do
  let rth := (← get).rth
  if 0 ≤ rth.fd then
    syscall .closeSocket
    setRth { rth with fd := -1 }

/-- `rtnl_open_byproto` for `NETLINK_ROUTE`. -/
def rtnlOpen (k : Kernel) : C Int32 := do
  setRth { fd := k.socket, seq := 0, dump := 0 }
  if k.socket < 0 then return -1
  syscall .openSocket
  -- from here on a failure leaves the socket open
  if k.setSndbuf < 0 then return -1
  if k.setRcvbuf < 0 then return -1
  if k.getsockname < 0 then return -1
  if k.addrLen ≠ sizeofSockaddrNl then return -1
  if k.nlFamily ≠ afNetlink then return -1
  setRth { fd := k.socket, seq := k.time, dump := 0 }
  return 0

/-- `rtnl_dump_request_n` -/
def rtnlDumpRequestN (k : Kernel) : C Int32 := do
  let rth := (← get).rth
  setRth { rth with seq := rth.seq + 1, dump := rth.seq + 1 }
  return k.sendmsg

/-- `rtnl_dump_done` -/
def rtnlDumpDone : Option Int32 → Int32
  | none => -1
  | some len =>
    if len < 0 then
      let errno := -len
      if errno = enoent ∨ errno = eopnotsupp then -1 else len
    else 0

/-- `print_neigh`: a neighbour that it prints is flushed before it returns. -/
def printNeigh (env : NeighEnv) : NlBody → C Int32
  | .short => return -1
  | .neigh n => do
    fflush (Android.printNeigh env showFilter n)
    return 0
  -- the dump loop hands on no others
  | .done _ | .error => return 0

/-- How the loop over the messages of one datagram ends. -/
inductive FilterEnd where
  /-- `rtnl_dump_filter_l` returns -/
  | returned (err : Int32)
  | foundDone
  /-- there are no more messages -/
  | exhausted
  deriving DecidableEq, Repr

/-- The loop over the messages of one datagram. -/
def filterMessages (env : NeighEnv) (nlPid : UInt32) : List NlMsg → C FilterEnd
  | [] => return .exhausted
  | h :: rest => do
    let rth := (← get).rth
    if nlPid ≠ 0 ∨ h.nlmsgSeq ≠ rth.dump then filterMessages env nlPid rest
    else
      match h.body with
      | .done len => if rtnlDumpDone len < 0 then return .returned (-1) else return .foundDone
      | .error => return .returned (-1)
      | body =>
        let err ← printNeigh env body
        if err < 0 then return .returned err else filterMessages env nlPid rest

/-- `rtnl_dump_filter_l` with `print_neigh` as the only filter. -/
def rtnlDumpFilterL (env : NeighEnv) : List Received → C Int32
  -- `recvmsg` waits for a datagram
  | [] => block
  | .interrupted :: rest => rtnlDumpFilterL env rest
  | .failed :: _ => return -1
  | .datagram d :: rest => do
    match ← filterMessages env d.nlPid d.messages with
    | .returned err => return err
    | .foundDone => return 0
    | .exhausted =>
      if d.truncated then rtnlDumpFilterL env rest
      else if d.remnant then exit 1
      else rtnlDumpFilterL env rest

/-! ## ipneigh.c -/

/-- `do_show_or_flush` around its call of `rtnl_dump_filter`. -/
def doShowOrFlushWith (k : Kernel) (rtnlDumpFilter : C Int32) : C Int32 := do
  if (← rtnlDumpRequestN k) < 0 then exit 1
  if (← rtnlDumpFilter) < 0 then exit 1
  return 0

/-- `Java_com_example_lan_1scan_scanner_LanDeviceScanner_nativeIPNeigh` around the call of
    `rtnl_dump_filter` in it. -/
def nativeIPNeighWith (k : Kernel) (rtnlDumpFilter : C Int32) : C Int32 := do
  if !k.fdopen then exit exitFailure
  if (← rtnlOpen k) < 0 then exit 1
  let res ← doShowOrFlushWith k rtnlDumpFilter
  rtnlClose
  -- fclose(mypipe)
  syscall .closePipe
  return res

/-- `do_show_or_flush` -/
def doShowOrFlush (env : NeighEnv) (k : Kernel) : C Int32 :=
  doShowOrFlushWith k (rtnlDumpFilterL env k.recvmsg)

/-- `Java_com_example_lan_1scan_scanner_LanDeviceScanner_nativeIPNeigh` -/
def nativeIPNeigh (env : NeighEnv) (k : Kernel) : C Int32 :=
  nativeIPNeighWith k (rtnlDumpFilterL env k.recvmsg)

/-- A call of C code: the code it returns or how it stops, and the system calls it makes. -/
def C.call (code : C Int32) (rth : RtnlHandle) : Except Stop Int32 × Process :=
  code.run.run { rth, calls := [] }

/-- A call of `nativeIPNeigh`. -/
def call (env : NeighEnv) (k : Kernel) (rth : RtnlHandle) : Except Stop Int32 × Process :=
  C.call (nativeIPNeigh env k) rth

end LanScan.Android.NativeIPNeigh
