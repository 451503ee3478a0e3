import Mathlib.Logic.Function.Basic
import LanScan.ForStd.LittleEndian
import LanScan.ForStd.Records
import LanScan.Native.Android.NativeIPNeigh

/-!
# Netlink messages in memory

The dump as bytes: the macros of the netlink headers, the attributes of `libnetlink.c`,
`print_neigh` and the dump loop with the receive buffer they work on.

A pointer is the memory from its address on.  The machine is little-endian.
-/

namespace LanScan.Android.Netlink

open LittleEndian NativeIPNeigh

abbrev Ptr := List UInt8

/-- `*(__u16 *)(mem + i)` -/
def u16 (mem : Ptr) (i : Nat) : UInt16 := .ofNat (read 2 mem i)

/-- `*(__u32 *)(mem + i)` -/
def u32 (mem : Ptr) (i : Nat) : UInt32 := .ofNat (read 4 mem i)

/-- `NLMSG_ALIGN` and `RTA_ALIGN` -/
def align (len : Nat) : Nat := (len + 3) / 4 * 4

/-! ## struct nlmsghdr -/

/-- `NLMSG_HDRLEN` -/
def nlmsgHdrlen : Nat := 16

def nlmsgDone : UInt16 := 3
def nlmsgError : UInt16 := 2

def nlmsgLen (h : Ptr) : Nat := read 4 h 0
def nlmsgType (h : Ptr) : UInt16 := u16 h 4
def nlmsgFlags (h : Ptr) : UInt16 := u16 h 6
def nlmsgSeq (h : Ptr) : UInt32 := u32 h 8

/-- `NLMSG_DATA` -/
def nlmsgData (h : Ptr) : Ptr := h.drop nlmsgHdrlen

/-- `NLMSG_LENGTH` -/
def nlmsgLength (len : Nat) : Nat := len + nlmsgHdrlen

/-- Alignment rounds up. -/
theorem le_align (n : Nat) : n ≤ align n := by
  rw [align]
  omega

/-- The messages of a buffer: `NLMSG_OK` and `NLMSG_NEXT`. -/
def nlmsg : RecordFormat UInt8 where
  header := nlmsgHdrlen
  lengthOf := nlmsgLen
  padded := align
  header_pos := Nat.succ_pos 15
  lengthOf_take := read_take (Nat.le_add_left 4 12)
  le_padded := le_align

/-! ## struct rtattr -/

def rtaLen (rta : Ptr) : Nat := read 2 rta 0
def rtaType (rta : Ptr) : UInt16 := u16 rta 2

/-- `RTA_LENGTH` -/
def rtaLength (len : Nat) : Nat := align 4 + len

/-- `RTA_DATA` -/
def rtaData (rta : Ptr) : Ptr := rta.drop (rtaLength 0)

/-- `RTA_PAYLOAD`, of an attribute that is `RTA_OK` -/
def rtaPayload (rta : Ptr) : Nat := rtaLen rta - rtaLength 0

/-- The attributes of a message: `RTA_OK` and `RTA_NEXT`. -/
def rtattr : RecordFormat UInt8 where
  header := 4
  lengthOf := rtaLen
  padded := align
  header_pos := Nat.succ_pos 3
  lengthOf_take := read_take (Nat.le_add_left 2 2)
  le_padded := le_align

/-- The array `tb`, with a pointer to an attribute of each type. -/
abbrev Attributes := UInt16 → Option Ptr

/-- The loop of `parse_rtattr_flags`. -/
def parseRtattrLoop (max : Nat) (flags : UInt16) : Nat → Attributes → Ptr → Int → Attributes
  | 0, tb, _, _ => tb
  | fuel + 1, tb, rta, len =>
    if rtattr.Ok rta len then
      let type := rtaType rta &&& ~~~flags
      let tb :=
        if type.toNat ≤ max ∧ tb type = none then Function.update tb type (some rta) else tb
      parseRtattrLoop max flags fuel tb (rtattr.next rta) (rtattr.left rta len)
    else tb

/-- `parse_rtattr_flags`.  Each turn of its loop takes at least four bytes. -/
def parseRtattrFlags (max : Nat) (rta : Ptr) (len : Int) (flags : UInt16) : Attributes :=
  parseRtattrLoop max flags len.toNat (fun _ => none) rta len

/-- `parse_rtattr` -/
def parseRtattr (max : Nat) (rta : Ptr) (len : Int) : Attributes :=
  parseRtattrFlags max rta len 0

/-! ## addattr_l -/

/-- Bytes are written to memory. -/
def store (mem : Ptr) (i : Nat) (data : List UInt8) : Ptr :=
  mem.take i ++ (data ++ mem.drop (i + data.length))

/-- `NLMSG_ALIGN` and `RTA_ALIGN` of 32 bits, which wrap around. -/
def align32 (len : UInt32) : UInt32 := (len + 3) / 4 * 4

/-- `addattr_l`, with the message that it leaves.  `NLMSG_TAIL` is the aligned length. -/
def addattrL (n : Ptr) (maxlen : Int32) (type : UInt16) (data : List UInt8) : Int32 × Ptr :=
  let len := UInt32.ofNat (rtaLength data.length)
  -- `maxlen` is compared as an unsigned number
  if maxlen.toUInt32 < align32 (u32 n 0) + align32 len then (-1, n)
  else
    let rta := (align32 (u32 n 0)).toNat
    let n := store n (rta + 2) (bytes 2 type.toNat)
    let n := store n rta (bytes 2 len.toNat)
    let n := store n (rta + rtaLength 0) data
    (0, store n 0 (bytes 4 (align32 (u32 n 0) + align32 len).toNat))

/-! ## struct ndmsg -/

/-- `sizeof(struct ndmsg)` -/
def sizeofNdmsg : Nat := 12

def ndmFamily (r : Ptr) : UInt8 := .ofNat (read 1 r 0)
def ndmIfindex (r : Ptr) : Int32 := (u32 r 4).toInt32
def ndmState (r : Ptr) : UInt16 := u16 r 8
def ndmFlags (r : Ptr) : UInt8 := .ofNat (read 1 r 10)

/-- `NDA_RTA` -/
def ndaRta (r : Ptr) : Ptr := r.drop (align sizeofNdmsg)

/-! ## print_neigh -/

/-- `inet_ntop`, which takes the bytes of the address from memory -/
def inetNtop (env : NeighEnv) (af : UInt8) (addr : Ptr) : List Char :=
  env.inetNtop af (addr.take (if af = afInet then 4 else 16))

/-- `ll_addr_n2a`.  It prints a first byte even when `alen` is 0. -/
def llAddrN2a (env : NeighEnv) (addr : Ptr) (alen : Nat) (type : Int) (blen : Nat) : List Char :=
  if alen = 4 ∧ (type = arphrdTunnel ∨ type = arphrdSit ∨ type = arphrdIpgre) then
    inetNtop env afInet addr
  else if alen = 16 ∧ type = arphrdTunnel6 then inetNtop env afInet6 addr
  else
    (hexByte (.ofNat (read 1 addr 0))).take (blen - 1) ++
      llAddrLoop blen 2 ((addr.take alen).drop 1)

/-- `rt_addr_n2a_r` -/
def rtAddrN2aR (env : NeighEnv) (af : UInt8) (len : Nat) (addr : Ptr) (buflen : Nat) : List Char :=
  if af = afInet ∨ af = afInet6 then inetNtop env af addr
  else if af = afPacket then llAddrN2a env addr len arphrdVoid buflen
  else "???".toList

/-- `format_host_rta` -/
def formatHostRta (env : NeighEnv) (af : UInt8) (rta : Ptr) : List Char :=
  rtAddrN2aR env af (rtaPayload rta) (rtaData rta) 256

/-- The part of `print_neigh` that writes the line. -/
def printLine (env : NeighEnv) (filter : NeighFilter) (n : Ptr) (tb : Attributes) : List Char :=
  let r := nlmsgData n
  (if nlmsgType n = rtmDelneigh then "Deleted ".toList
    else if nlmsgType n = rtmGetneigh then "miss ".toList
    else []) ++
  (match tb ndaDst with
    | some dst => formatHostRta env (ndmFamily r) dst ++ " ".toList
    | none => []) ++
  (if filter.index = 0 ∧ ndmIfindex r ≠ 0 then
      "dev ".toList ++ env.llIndexToName (ndmIfindex r).toUInt32 ++ " ".toList
    else []) ++
  (match tb ndaLladdr with
    | some lladdr =>
      "lladdr ".toList ++
        llAddrN2a env (rtaData lladdr) (rtaPayload lladdr)
          (env.llIndexToType (ndmIfindex r).toUInt32) sprintBsize
    | none => []) ++
  (if ndmFlags r &&& ntfRouter ≠ 0 then " router".toList else []) ++
  (if ndmFlags r &&& ntfProxy ≠ 0 then " proxy".toList else []) ++
  (if ndmState r ≠ 0 then " ".toList ++ printFlags (ndmState r) nudFlags else []) ++
  "\n".toList

/-- `filter.pfx` excludes the destination, of which `memcpy` has copied the payload. -/
def pfxMismatch (filter : NeighFilter) (tb : Attributes) : Bool :=
  match tb ndaDst with
  | some dst => filter.pfx.family ≠ 0 &&
      inetAddrMatch ((rtaData dst).take (rtaPayload dst)) filter.pfx.data filter.pfx.bitlen ≠ 0
  | none => false

/-- `filter.unused_only` excludes an entry with a reference: `ci->ndm_refcnt`. -/
def inUse (filter : NeighFilter) (tb : Attributes) : Bool :=
  match tb ndaCacheinfo with
  | some ci => filter.unusedOnly && read 4 (rtaData ci) 12 ≠ 0
  | none => false

/-- `print_neigh`: what it prints before it returns 0, or nothing when it returns -1.
    `ndaMax` is the constant `NDA_MAX` of the kernel's headers. -/
def printNeigh (env : NeighEnv) (ndaMax : Nat) (filter : NeighFilter) (n : Ptr) :
    Option (List Char) :=
  let r := nlmsgData n
  let len : Int := nlmsgLen n
  if nlmsgType n ≠ rtmNewneigh ∧ nlmsgType n ≠ rtmDelneigh ∧ nlmsgType n ≠ rtmGetneigh then some []
  else if len - nlmsgLength sizeofNdmsg < 0 then none
  else if filter.family ≠ 0 ∧ filter.family ≠ ndmFamily r then some []
  else if filter.index ≠ 0 ∧ filter.index ≠ ndmIfindex r then some []
  else if filter.state &&& (ndmState r).toUInt32 = 0 ∧ ndmFlags r &&& ntfProxy = 0 ∧
      (ndmState r ≠ 0 ∨ filter.state &&& 0x100 = 0) ∧ ndmFamily r ≠ afDecnet then some []
  else
    let tb := parseRtattr ndaMax (ndaRta r) (len - nlmsgLength sizeofNdmsg)
    some <|
      (if filter.master ≠ 0 ∧ nlmsgFlags n &&& nlmFDumpFiltered = 0 then
          "\nWARNING: Kernel does not support filtering by master device\n\n".toList
        else []) ++
      (if pfxMismatch filter tb || inUse filter tb then [] else printLine env filter n tb)

/-! ## The dump loop -/

/-- `rtnl_dump_done`, which reads the length field before it knows that there is one -/
def rtnlDumpDone (h : Ptr) : Int32 :=
  let len := (u32 (nlmsgData h) 0).toInt32
  if nlmsgLen h < nlmsgLength 4 then -1
  else if len < 0 then
    let errno := -len
    if errno = enoent ∨ errno = eopnotsupp then -1 else len
  else 0

/-- How the loop over the messages of the buffer ends. -/
inductive MessagesEnd where
  /-- `rtnl_dump_filter_l` returns -/
  | returned (err : Int32)
  | foundDone
  /-- there are no more messages, and `msglen` is left -/
  | exhausted (msglen : Int)
  deriving DecidableEq, Repr

/-- The loop over the messages of the buffer.  Each turn takes at least 16 bytes. -/
def filterMessages (env : NeighEnv) (ndaMax : Nat) (nlPid : UInt32) :
    Nat → Ptr → Int → C MessagesEnd
  | 0, _, msglen => return .exhausted msglen
  | fuel + 1, h, msglen => do
    if nlmsg.Ok h msglen then
      let rth := (← get).rth
      if nlPid ≠ 0 ∨ nlmsgSeq h ≠ rth.dump then
        filterMessages env ndaMax nlPid fuel (nlmsg.next h) (nlmsg.left h msglen)
      else if nlmsgType h = nlmsgDone then
        if rtnlDumpDone h < 0 then return .returned (-1) else return .foundDone
      else if nlmsgType h = nlmsgError then return .returned (-1)
      else
        match printNeigh env ndaMax showFilter h with
        | none => return .returned (-1)
        | some text => do
          fflush text
          filterMessages env ndaMax nlPid fuel (nlmsg.next h) (nlmsg.left h msglen)
    else return .exhausted msglen

/-- The result of one call of `recvmsg`. -/
inductive RecvMsg where
  /-- `EINTR` or `EAGAIN` -/
  | interrupted
  /-- any other error -/
  | failed
  /-- bytes, or none at all, are put into the buffer; `truncated` is `MSG_TRUNC` -/
  | received (nlPid : UInt32) (bytes : List UInt8) (truncated : Bool)
  deriving DecidableEq, Repr

/-- `rtnl_dump_filter_l` with `print_neigh` as the only filter.  `buf` is what its buffer
    holds: at first whatever stands on the stack, later also what is left of the messages
    received before. -/
def rtnlDumpFilterL (env : NeighEnv) (ndaMax : Nat) : Ptr → List RecvMsg → C Int32
  -- `recvmsg` waits for a datagram
  | _, [] => block
  | buf, .interrupted :: rest => rtnlDumpFilterL env ndaMax buf rest
  | _, .failed :: _ => return -1
  | buf, .received nlPid bytes truncated :: rest => do
    let status := bytes.length
    -- EOF on netlink
    if status = 0 then return -1
    let buf := bytes ++ buf.drop status
    match ← filterMessages env ndaMax nlPid status buf status with
    | .returned err => return err
    | .foundDone => return 0
    | .exhausted msglen =>
      if truncated then rtnlDumpFilterL env ndaMax buf rest
      else if msglen ≠ 0 then exit 1
      else rtnlDumpFilterL env ndaMax buf rest

/-! ## ipneigh.c -/

/-- The results of the library and system calls of `nativeIPNeigh`, with those of
    `recvmsg` as bytes; after them it blocks.  `stack` is what the buffer of the dump loop
    holds at first. -/
structure Machine where
  kernel : Kernel
  recvmsg : List RecvMsg
  stack : Ptr
  ndaMax : Nat
  deriving DecidableEq, Repr

/-- `Java_com_example_lan_1scan_scanner_LanDeviceScanner_nativeIPNeigh` -/
def nativeIPNeigh (env : NeighEnv) (m : Machine) : C Int32 :=
  nativeIPNeighWith m.kernel (rtnlDumpFilterL env m.ndaMax m.stack m.recvmsg)

/-- A call of `nativeIPNeigh`. -/
def call (env : NeighEnv) (m : Machine) (rth : RtnlHandle) : Except Stop Int32 × Process :=
  C.call (nativeIPNeigh env m) rth

end LanScan.Android.Netlink
