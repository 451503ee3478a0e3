import LanScan.ForStd.Lts
import LanScan.Native.Android.ArpTable
import LanScan.Native.Android.Netlink

/-!
# The pipe between nativeIPNeigh and its reader

`parseAndExtractValidArpFromInputStream` as a sequential program on one thread: it
calls `nativeIPNeigh` with the write side of a pipe, checks the code that comes back
and only then reads from the other side.  The kernel moves one byte at a time; a
write waits while the pipe is full, and a read waits while it is empty and its write
side is still open.

The program runs on a kernel whose answers are messages (`Config`), or bytes (`Setting.ofBytes`).
-/

namespace LanScan.Android.ArpPipe

open NativeIPNeigh

/-- What the program runs on: the pipe, and what the call of `nativeIPNeigh` does as long as
    there is room in it.  `malformed` is the text that an `InputStreamReader` makes of bytes
    that are not UTF-8. -/
structure Setting where
  /-- the capacity of a pipe in bytes -/
  capacity : Nat
  call : Except Stop Int32 × Process
  getByName : List Char → Option InetAddress
  malformed : List UInt8 → List Char

/-- The setting in which the kernel answers with messages. -/
structure Config where
  capacity : Nat
  env : NeighEnv
  kernel : Kernel
  rth : RtnlHandle
  getByName : List Char → Option InetAddress
  malformed : List UInt8 → List Char

def Config.setting (cfg : Config) : Setting where
  capacity := cfg.capacity
  call := call cfg.env cfg.kernel cfg.rth
  getByName := cfg.getByName
  malformed := cfg.malformed

instance : Coe Config Setting := ⟨Config.setting⟩

/-- The setting in which the bytes come from the netlink socket. -/
def Setting.ofBytes (capacity : Nat) (env : NeighEnv) (m : Netlink.Machine) (rth : RtnlHandle)
    (getByName : List Char → Option InetAddress) (malformed : List UInt8 → List Char) :
    Setting where
  capacity := capacity
  call := Netlink.call env m rth
  getByName := getByName
  malformed := malformed

/-- Where the program stands. -/
inductive Pc where
  /-- inside `nativeIPNeigh`, with the system calls it has still to make -/
  | native (calls : List Syscall)
  /-- about to evaluate `if (returnCode != 0)` -/
  | checking (returnCode : Int32)
  /-- in `readLines`, with the bytes read so far -/
  | reading (bytes : List UInt8)
  | returned (hosts : List Host)
  /-- the process is gone -/
  | exited (status : Int32)
  deriving DecidableEq, Repr

/-- State of the program and of its pipe. -/
structure State where
  pc : Pc
  /-- the bytes in the pipe, oldest first -/
  pipe : List UInt8
  descriptors : Descriptors
  deriving DecidableEq, Repr

/-- The program has come to its end. -/
def State.isFinal (s : State) : Bool :=
  match s.pc with
  | .returned _ | .exited _ => true
  | .native _ | .checking _ | .reading _ => false

/-- One atomic step.  There is one thread, so nobody else moves. -/
def step (x : Setting) (s : State) (_ : Unit) : Option State :=
  match s.pc with
  | .native [] =>
    match x.call.1 with
    | .ok returnCode => some { s with pc := .checking returnCode }
    | .error (.exit status) => some { s with pc := .exited status }
    -- the dump loop waits in `recvmsg`
    | .error .blocked => none
  -- one byte of a write: it waits for room in the pipe
  | .native (.write (b :: bytes) :: calls) =>
    if s.pipe.length < x.capacity then
      some { s with pc := .native (.write bytes :: calls), pipe := s.pipe ++ [b] }
    else none
  | .native (c :: calls) =>
    some { s with pc := .native calls, descriptors := s.descriptors.after c }
  | .checking returnCode =>
    some { s with pc := if returnCode ≠ 0 then .returned [] else .reading [] }
  | .reading bytes =>
    match s.pipe with
    | b :: pipe => some { s with pc := .reading (bytes ++ [b]), pipe := pipe }
    | [] =>
      -- the end of the file is seen once the write side is closed
      if s.descriptors.pipe then none
      else
        let text := bytes.utf8Text?.getD (x.malformed bytes)
        some { s with
          pc := .returned (parseAndExtractValidArpFromInputStream x.getByName 0 text) }
  | .returned _ | .exited _ => none

/-- The state when `nativeIPNeigh` is called. -/
def init (x : Setting) : State where
  pc := .native x.call.2.calls
  pipe := []
  descriptors := .atCall

/-- The program as a transition system. -/
def program (x : Setting) : Lts State Unit where
  init := init x
  step := step x

end LanScan.Android.ArpPipe
