import Mathlib.Data.List.Basic

/-!
# ip neigh

The printer of `ipneigh.c`: `print_neigh` writes one neighbour message of a
netlink dump as a line of text, `do_show_or_flush` the whole dump.  Text is the
list of its characters.

What this program never sets is left out: `filter.flushb` stays `NULL` and
`show_stats` stays `0`.  A message too short for its `ndmsg` is not a `NeighMsg`.
-/

namespace LanScan.Android

/-! ## Constants -/

def rtmNewneigh : UInt16 := 28
def rtmDelneigh : UInt16 := 29
def rtmGetneigh : UInt16 := 30

def afUnspec : UInt8 := 0
def afInet : UInt8 := 2
def afInet6 : UInt8 := 10
def afDecnet : UInt8 := 12
def afPacket : UInt8 := 17

def ndaDst : UInt16 := 1
def ndaLladdr : UInt16 := 2
def ndaCacheinfo : UInt16 := 3

def ntfProxy : UInt8 := 0x08
def ntfRouter : UInt8 := 0x80

def nudIncomplete : UInt16 := 0x01
def nudReachable : UInt16 := 0x02
def nudStale : UInt16 := 0x04
def nudDelay : UInt16 := 0x08
def nudProbe : UInt16 := 0x10
def nudFailed : UInt16 := 0x20
def nudNoarp : UInt16 := 0x40
def nudPermanent : UInt16 := 0x80

def nlmFDumpFiltered : UInt16 := 0x20

def arphrdVoid : Int := 0xFFFF
def arphrdTunnel : Int := 768
def arphrdTunnel6 : Int := 769
def arphrdSit : Int := 776
def arphrdIpgre : Int := 778

/-- `SPRINT_BSIZE` -/
def sprintBsize : Nat := 64

/-! ## Data -/

/-- A netlink message with the `ndmsg` and the attributes it holds. -/
structure NeighMsg where
  nlmsgType : UInt16
  nlmsgFlags : UInt16
  ndmFamily : UInt8
  ndmIfindex : Int32
  ndmState : UInt16
  ndmFlags : UInt8
  attributes : List (UInt16 × List UInt8)
  deriving DecidableEq, Repr

/-- `inet_prefix`; `data` is the start of its 256 bytes, the others are zero. -/
structure InetPrefix where
  family : UInt16
  bitlen : Nat
  data : List UInt8
  deriving DecidableEq, Repr

/-- The static `filter`; `state` holds the bits of an `int`. -/
structure NeighFilter where
  family : UInt8
  index : Int32
  state : UInt32
  unusedOnly : Bool
  pfx : InetPrefix
  master : Int32
  deriving DecidableEq, Repr

/-- `struct ll_cache` -/
structure LlCache where
  index : UInt32
  type : UInt16
  name : List Char
  deriving DecidableEq, Repr

/-- What the text depends on besides the messages: the C library's functions and
    the buckets of the link cache. -/
structure NeighEnv where
  inetNtop : UInt8 → List UInt8 → List Char
  ifIndextoname : UInt32 → Option (List Char)
  idxHead : UInt32 → List LlCache

/-- `tb[type]` after `parse_rtattr`: the first attribute of each type. -/
def parseRtattr (attributes : List (UInt16 × List UInt8)) (type : UInt16) : Option (List UInt8) :=
  attributes.lookup type

/-! ## Addresses and interfaces -/

/-- `%02x` -/
def hexByte (b : UInt8) : List Char :=
  [Nat.digitChar (b.toNat / 16), Nat.digitChar (b.toNat % 16)]

/-- The loop of `ll_addr_n2a`, from the position `l` of the buffer on. -/
def llAddrLoop (blen : Nat) : Nat → List UInt8 → List Char
  | _, [] => []
  | l, b :: addr =>
    if l < blen then (':' :: hexByte b).take (blen - l - 1) ++ llAddrLoop blen (l + 3) addr
    else []

namespace NeighEnv

/-- `ll_addr_n2a`, for an address of at least one byte. -/
def llAddrN2a (env : NeighEnv) (addr : List UInt8) (type : Int) (blen : Nat) : List Char :=
  if addr.length = 4 ∧ (type = arphrdTunnel ∨ type = arphrdSit ∨ type = arphrdIpgre) then
    env.inetNtop afInet addr
  else if addr.length = 16 ∧ type = arphrdTunnel6 then
    env.inetNtop afInet6 addr
  else
    match addr with
    | [] => []
    | b :: addr => (hexByte b).take (blen - 1) ++ llAddrLoop blen 2 addr

/-- `rt_addr_n2a_r`, as it is compiled for Android. -/
def rtAddrN2aR (env : NeighEnv) (af : UInt8) (addr : List UInt8) (buflen : Nat) : List Char :=
  if af = afInet ∨ af = afInet6 then env.inetNtop af addr
  else if af = afPacket then env.llAddrN2a addr arphrdVoid buflen
  else "???".toList

/-- `format_host` -/
def formatHost (env : NeighEnv) (af : UInt8) (addr : List UInt8) : List Char :=
  env.rtAddrN2aR af addr 256

/-- `ll_get_by_index` -/
def llGetByIndex (env : NeighEnv) (index : UInt32) : Option LlCache :=
  (env.idxHead (index &&& 1023)).find? fun im => im.index = index

/-- `ll_index_to_name`, which is `ll_idx_n2a`; `%d` takes the index as an `int`. -/
def llIndexToName (env : NeighEnv) (idx : UInt32) : List Char :=
  if idx = 0 then "*".toList
  else
    match env.llGetByIndex idx with
    | some im => im.name
    | none => (env.ifIndextoname idx).getD ("if" ++ toString idx.toInt32.toInt).toList

/-- `ll_index_to_type` -/
def llIndexToType (env : NeighEnv) (idx : UInt32) : Int :=
  if idx = 0 then -1
  else
    match env.llGetByIndex idx with
    | some im => im.type.toNat
    | none => -1

end NeighEnv

/-- `inet_addr_match`: zero when the first `bits` bits agree. -/
def inetAddrMatch (a b : List UInt8) (bits : Nat) : Int :=
  let words := bits / 32
  let bits := bits % 32
  let word (data : List UInt8) : UInt32 :=
    (List.range 4).foldl (fun w i => w <<< 8 ||| (data.getD (4 * words + i) 0).toUInt32) 0
  if (List.range (4 * words)).any fun i => a.getD i 0 != b.getD i 0 then -1
  else if bits ≠ 0 ∧ (word a ^^^ word b) &&& 0xFFFFFFFF <<< (32 - UInt32.ofNat bits) ≠ 0 then 1
  else 0

/-! ## print_neigh -/

/-- The states in the order in which `print_neigh` tests them. -/
def nudFlags : List (UInt16 × List Char) :=
  [(nudIncomplete, "INCOMPLETE".toList), (nudReachable, "REACHABLE".toList),
    (nudStale, "STALE".toList), (nudDelay, "DELAY".toList), (nudProbe, "PROBE".toList),
    (nudFailed, "FAILED".toList), (nudNoarp, "NOARP".toList),
    (nudPermanent, "PERMANENT".toList)]

/-- `PRINT_FLAG` for each flag of a list. -/
def printFlags (nud : UInt16) : List (UInt16 × List Char) → List Char
  | [] => []
  | (flag, name) :: flags =>
    if nud &&& flag ≠ 0 then
      let nud := nud &&& ~~~flag
      name ++ (if nud ≠ 0 then ",".toList else []) ++ printFlags nud flags
    else printFlags nud flags

/-- The part of `print_neigh` that writes the line. -/
def printLine (env : NeighEnv) (filter : NeighFilter) (n : NeighMsg) : List Char :=
  (if n.nlmsgType = rtmDelneigh then "Deleted ".toList
    else if n.nlmsgType = rtmGetneigh then "miss ".toList
    else []) ++
  (match parseRtattr n.attributes ndaDst with
    | some dst => env.formatHost n.ndmFamily dst ++ " ".toList
    | none => []) ++
  (if filter.index = 0 ∧ n.ndmIfindex ≠ 0 then
      "dev ".toList ++ env.llIndexToName n.ndmIfindex.toUInt32 ++ " ".toList
    else []) ++
  (match parseRtattr n.attributes ndaLladdr with
    | some lladdr =>
      "lladdr ".toList ++
        env.llAddrN2a lladdr (env.llIndexToType n.ndmIfindex.toUInt32) sprintBsize
    | none => []) ++
  (if n.ndmFlags &&& ntfRouter ≠ 0 then " router".toList else []) ++
  (if n.ndmFlags &&& ntfProxy ≠ 0 then " proxy".toList else []) ++
  (if n.ndmState ≠ 0 then " ".toList ++ printFlags n.ndmState nudFlags else []) ++
  "\n".toList

/-- `filter.pfx` excludes the destination. -/
def pfxMismatch (filter : NeighFilter) (n : NeighMsg) : Bool :=
  match parseRtattr n.attributes ndaDst with
  | some dst => filter.pfx.family ≠ 0 && inetAddrMatch dst filter.pfx.data filter.pfx.bitlen ≠ 0
  | none => false

/-- `filter.unused_only` excludes an entry in use: `ndm_refcnt` is the fourth word of
    the cache information. -/
def inUse (filter : NeighFilter) (n : NeighMsg) : Bool :=
  match parseRtattr n.attributes ndaCacheinfo with
  | some ci => filter.unusedOnly && ((ci.drop 12).take 4).any (· != 0)
  | none => false

/-- What `print_neigh` writes to the pipe. -/
def printNeigh (env : NeighEnv) (filter : NeighFilter) (n : NeighMsg) : List Char :=
  if n.nlmsgType ≠ rtmNewneigh ∧ n.nlmsgType ≠ rtmDelneigh ∧ n.nlmsgType ≠ rtmGetneigh then []
  else if filter.family ≠ 0 ∧ filter.family ≠ n.ndmFamily then []
  else if filter.index ≠ 0 ∧ filter.index ≠ n.ndmIfindex then []
  else if filter.state &&& n.ndmState.toUInt32 = 0 ∧ n.ndmFlags &&& ntfProxy = 0 ∧
      (n.ndmState ≠ 0 ∨ filter.state &&& 0x100 = 0) ∧ n.ndmFamily ≠ afDecnet then []
  else
    (if filter.master ≠ 0 ∧ n.nlmsgFlags &&& nlmFDumpFiltered = 0 then
        "\nWARNING: Kernel does not support filtering by master device\n\n".toList
      else []) ++
    (if pfxMismatch filter n || inUse filter n then [] else printLine env filter n)

/-! ## do_show_or_flush -/

/-- `ipneigh_reset_filter` -/
def ipneighResetFilter (ifindex : Int32) : NeighFilter where
  family := 0
  index := ifindex
  state := ~~~0
  unusedOnly := false
  pfx := { family := 0, bitlen := 0, data := [] }
  master := 0

/-- The filter that `do_show_or_flush` installs. -/
def showFilter : NeighFilter :=
  let preferredFamily := afUnspec
  let filter := ipneighResetFilter 0
  { filter with
    family := if filter.family = 0 then preferredFamily else filter.family
    state := 0xFF &&& ~~~nudNoarp.toUInt32 }

/-- What `do_show_or_flush` writes when the kernel answers with the messages of `dump`.
    It then returns 0. -/
def doShowOrFlush (env : NeighEnv) (dump : List NeighMsg) : List Char :=
  dump.flatMap (printNeigh env showFilter)

end LanScan.Android
