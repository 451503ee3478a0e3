import LanScan.Native.Android.ArpTable
import LanScan.Native.Android.IpNeigh

/-!
# The lines of the neighbour table

`print_neigh` and `parseAndExtractValidArpFromInputStream` are two programs in two
languages that meet in a line of text.  The line of an entry is its address followed by
fields, each a gap and a word; the number of words tells the parser whether there is a
link-layer address, and the last word is the state.

Key results:
- `printNeigh_eq`: the line written for an entry, if any
- `splitRuns_line`: the words of that line
- `parseLine_line`: the host that is read from it
- `parse_table`: the parser finds exactly the listed entries, in order
-/

namespace LanScan.Android

/-! ## Neighbour states -/

/-- The states of a neighbour entry. -/
inductive NudState where
  | incomplete
  | reachable
  | stale
  | delay
  | probe
  | failed
  | noarp
  | permanent
  deriving DecidableEq, Repr

namespace NudState

/-- The flag of a state in `ndm_state`. -/
def flag : NudState → UInt16
  | incomplete => nudIncomplete
  | reachable => nudReachable
  | stale => nudStale
  | delay => nudDelay
  | probe => nudProbe
  | failed => nudFailed
  | noarp => nudNoarp
  | permanent => nudPermanent

/-- The name of a state in the text. -/
def name : NudState → List Char
  | incomplete => "INCOMPLETE".toList
  | reachable => "REACHABLE".toList
  | stale => "STALE".toList
  | delay => "DELAY".toList
  | probe => "PROBE".toList
  | failed => "FAILED".toList
  | noarp => "NOARP".toList
  | permanent => "PERMANENT".toList

/-- The states of entries with a link-layer address that was found by ARP. -/
def isValid (s : NudState) : Bool := s ≠ incomplete && s ≠ failed && s ≠ noarp

/-- Every state has a flag. -/
theorem flag_ne_zero (s : NudState) : s.flag ≠ 0 := by cases s <;> decide

/-- The name of a state is one word. -/
theorem isWord_name (s : NudState) : List.IsWord isSpace s.name := by
  cases s <;> decide

/-- A single flag is printed as its name, without a comma. -/
theorem printFlags_flag (s : NudState) : printFlags s.flag nudFlags = s.name := by
  cases s <;> rfl

/-- The filter of `do_show_or_flush` stops NOARP only. -/
theorem showFilter_state_and_flag (s : NudState) :
    showFilter.state &&& s.flag.toUInt32 = 0 ↔ s = noarp := by
  cases s <;> decide

/-- The parser knows the failed state by its name. -/
theorem name_eq_neighborFailed (s : NudState) : s.name = neighborFailed ↔ s = failed := by
  cases s <;> decide

/-- The parser knows the incomplete state by its name. -/
theorem name_eq_neighborIncomplete (s : NudState) :
    s.name = neighborIncomplete ↔ s = incomplete := by
  cases s <;> decide

end NudState

/-! ## Link-layer addresses -/

/-- Hexadecimal digits are not whitespace. -/
theorem hexByte_not_space (b : UInt8) : ∀ c ∈ hexByte b, isSpace c = false := by
  have hdigit : ∀ d < 16, isSpace (Nat.digitChar d) = false := by decide
  have hb : b.toNat < 256 := b.toNat_lt
  intro c hc
  simp only [hexByte, List.mem_cons, List.not_mem_nil, or_false] at hc
  rcases hc with rfl | rfl
  · exact hdigit _ (by omega)
  · exact hdigit _ (by omega)

/-- The loop of `ll_addr_n2a` writes no white space, whatever the buffer has room for. -/
theorem llAddrLoop_not_space (blen l : Nat) (addr : List UInt8) :
    ∀ c ∈ llAddrLoop blen l addr, isSpace c = false := by
  induction addr generalizing l with
  | nil => simp [llAddrLoop]
  | cons b addr ih =>
    intro c hc
    simp only [llAddrLoop] at hc
    split at hc
    -- a colon, the digits of the byte, or a character further on
    · rcases List.mem_append.mp hc with hc | hc
      · rcases List.mem_cons.mp (List.mem_of_mem_take hc) with rfl | hc
        · decide
        · exact hexByte_not_space b c hc
      · exact ih (l + 3) c hc
    · exact absurd hc (by simp)

/-- The text of a link-layer address is one word, if that of a tunnel endpoint is. -/
theorem isWord_llAddrN2a (env : NeighEnv) {lladdr : List UInt8} (type : Int) {blen : Nat}
    (hne : lladdr ≠ []) (hblen : 2 ≤ blen)
    (h4 : lladdr.length = 4 → List.IsWord isSpace (env.inetNtop afInet lladdr))
    (h16 : lladdr.length = 16 → List.IsWord isSpace (env.inetNtop afInet6 lladdr)) :
    List.IsWord isSpace (env.llAddrN2a lladdr type blen) := by
  unfold NeighEnv.llAddrN2a
  split
  -- link-layer addresses of four or sixteen bytes are printed by `inet_ntop`
  · rename_i h
    exact h4 h.1
  · split
    · rename_i h
      exact h16 h.1
    · cases lladdr with
      | nil => exact absurd rfl hne
      -- the others byte by byte, the first one without a colon
      | cons b addr =>
        obtain ⟨n, rfl⟩ : ∃ n, blen = n + 2 := ⟨blen - 2, by omega⟩
        constructor
        · simp [hexByte]
        · intro c hc
          rcases List.mem_append.mp hc with hc | hc
          · exact hexByte_not_space b c (List.mem_of_mem_take hc)
          · exact llAddrLoop_not_space _ _ addr c hc

/-! ## Entries -/

/-- The bytes of an IPv4 or IPv6 address are an address for `getByAddress`. -/
theorem isSome_getByAddress {bytes : List UInt8} (h : bytes.length = 4 ∨ bytes.length = 16) :
    (InetAddress.getByAddress bytes).isSome := by
  rcases h with h | h
  · obtain ⟨b₀, b₁, b₂, b₃, rfl⟩ := List.length_eq_four.mp h
    rfl
  · unfold InetAddress.getByAddress
    split
    · rfl
    · rw [dif_pos h]
      split <;> rfl

/-- An entry of the neighbour table as the kernel dumps it: a message with an IPv4 or IPv6
    destination, on any interface with a readable name, with a link-layer address of any
    length or none, and in one state or in none.  Devices without link-layer addresses
    have entries without ARP. -/
structure NeighEntry (env : NeighEnv) where
  msg : NeighMsg
  dst : List UInt8
  /-- `none` is `NUD_NONE` -/
  state : Option NudState
  nlmsgType_eq : msg.nlmsgType = rtmNewneigh
  dst_eq : parseRtattr msg.attributes ndaDst = some dst
  family_eq : msg.ndmFamily = afInet ∧ dst.length = 4 ∨ msg.ndmFamily = afInet6 ∧ dst.length = 16
  ifindex_ne_zero : msg.ndmIfindex ≠ 0
  isWord_ifname : List.IsWord isSpace (env.llIndexToName msg.ndmIfindex.toUInt32)
  lladdr_ne_nil : state ≠ some .noarp →
    ∀ lladdr ∈ parseRtattr msg.attributes ndaLladdr, lladdr ≠ []
  not_proxy : msg.ndmFlags &&& ntfProxy = 0
  state_eq : msg.ndmState = state.elim 0 NudState.flag

namespace NeighEntry

variable {env : NeighEnv}

/-- The `NDA_LLADDR` attribute of an entry. -/
def lladdr (e : NeighEntry env) : Option (List UInt8) := parseRtattr e.msg.attributes ndaLladdr

/-- The router flag of an entry. -/
def isRouter (e : NeighEntry env) : Bool := e.msg.ndmFlags &&& ntfRouter ≠ 0

/-- The name of the interface of an entry. -/
def ifname (e : NeighEntry env) : List Char := env.llIndexToName e.msg.ndmIfindex.toUInt32

/-- The printed address of an entry. -/
def ip (e : NeighEntry env) : List Char := env.inetNtop e.msg.ndmFamily e.dst

/-- The printed link-layer address of an entry. -/
def mac (e : NeighEntry env) : Option (List Char) :=
  e.lladdr.map fun lladdr =>
    env.llAddrN2a lladdr (env.llIndexToType e.msg.ndmIfindex.toUInt32) sprintBsize

/-- The address of an entry. -/
def address (e : NeighEntry env) : InetAddress :=
  (InetAddress.getByAddress e.dst).get
    (isSome_getByAddress (e.family_eq.imp And.right And.right))

/-- The state of an entry that the filter of `do_show_or_flush` lets through. -/
def printedState (e : NeighEntry env) : Option NudState := e.state.filter (· ≠ .noarp)

/-- A valid entry with a link-layer address, whose address is neither link-local nor
    loopback. -/
def isListed (e : NeighEntry env) : Bool :=
  e.lladdr.isSome && e.state.any NudState.isValid && !e.address.isLinkLocalAddress &&
    !e.address.isLoopbackAddress

/-- The host an entry stands for. -/
def host (e : NeighEntry env) : Option Host :=
  if e.isListed then some { ip := String.ofList e.ip, mac := e.mac.map String.ofList } else none

/-- The printed addresses are numeric text: one word, and `getByName` reads the network
    address back. -/
structure IsNumeric (getByName : List Char → Option InetAddress) (e : NeighEntry env) : Prop where
  isWord_ip : List.IsWord isSpace e.ip
  getByName_ip : getByName e.ip = some e.address
  /-- the endpoint of a tunnel over IPv4 -/
  isWord_inet : ∀ lladdr ∈ e.lladdr, lladdr.length = 4 →
    List.IsWord isSpace (env.inetNtop afInet lladdr)
  /-- the endpoint of a tunnel over IPv6 -/
  isWord_inet6 : ∀ lladdr ∈ e.lladdr, lladdr.length = 16 →
    List.IsWord isSpace (env.inetNtop afInet6 lladdr)

/-! ## The line of an entry -/

/-- What follows the address in the line of an entry: gaps and words. -/
def fields (e : NeighEntry env) (state : NudState) : List (List Char × List Char) :=
  (" ".toList, "dev".toList) :: (" ".toList, e.ifname) ::
    match e.mac, e.isRouter with
    | some mac, false =>
      [(" ".toList, "lladdr".toList), (" ".toList, mac), (" ".toList, state.name)]
    | some mac, true =>
      [(" ".toList, "lladdr".toList), (" ".toList, mac), (" ".toList, "router".toList),
        (" ".toList, state.name)]
    -- the interface name ends in a blank, the next field starts with another
    | none, false => [("  ".toList, state.name)]
    | none, true => [("  ".toList, "router".toList), (" ".toList, state.name)]

/-- The line of an entry in a state. -/
def line (e : NeighEntry env) (state : NudState) : List Char :=
  e.ip ++ (e.fields state).flatMap fun field => field.1 ++ field.2

/-- The line of an entry in the text, unless the filter stops it. -/
def printedLine (e : NeighEntry env) : Option (List Char) := e.printedState.map e.line

/-- The destination is printed as the address of the entry. -/
theorem formatHost_dst (e : NeighEntry env) : env.formatHost e.msg.ndmFamily e.dst = e.ip := by
  have hfamily : e.msg.ndmFamily = afInet ∨ e.msg.ndmFamily = afInet6 :=
    e.family_eq.imp And.left And.left
  simp [NeighEnv.formatHost, NeighEnv.rtAddrN2aR, hfamily, ip]

/-- `print_neigh` writes the fields one after the other. -/
theorem printLine_eq (e : NeighEntry env) {state : NudState} (h : e.state = some state) :
    printLine env showFilter e.msg = e.line state ++ ['\n'] := by
  have hindex : showFilter.index = 0 := rfl
  have hnotDel : e.msg.nlmsgType ≠ rtmDelneigh := by rw [e.nlmsgType_eq]; decide
  have hnotGet : e.msg.nlmsgType ≠ rtmGetneigh := by rw [e.nlmsgType_eq]; decide
  have hflag : e.msg.ndmState = state.flag := by rw [e.state_eq, h, Option.elim_some]
  have hstate : e.msg.ndmState ≠ 0 := by rw [hflag]; exact state.flag_ne_zero
  have hflags : printFlags e.msg.ndmState nudFlags = state.name := by
    rw [hflag, NudState.printFlags_flag]
  have hattr : parseRtattr e.msg.attributes ndaLladdr = e.lladdr := rfl
  have hrouter : e.msg.ndmFlags &&& ntfRouter ≠ 0 ↔ e.isRouter = true := by simp [isRouter]
  have hname : env.llIndexToName e.msg.ndmIfindex.toUInt32 = e.ifname := rfl
  simp only [printLine, hnotDel, hnotGet, e.dst_eq, e.formatHost_dst, hindex, e.ifindex_ne_zero,
    e.not_proxy, hstate, hflags, hattr, hrouter, hname, line, fields, mac, ne_eq, not_false_eq_true,
    not_true, and_self, if_true, if_false]
  -- with or without a link-layer address, with or without the router flag
  cases e.lladdr with
  | none => cases e.isRouter <;> simp
  | some lladdr => cases e.isRouter <;> simp

/-- The line written for an entry: none when the filter stops it. -/
theorem printNeigh_eq (e : NeighEntry env) :
    printNeigh env showFilter e.msg = e.printedLine.elim [] (· ++ ['\n']) := by
  have hfamily : showFilter.family = 0 := rfl
  have hindex : showFilter.index = 0 := rfl
  have hmaster : showFilter.master = 0 := rfl
  have hnone : showFilter.state &&& 0x100 = 0 := by decide
  -- no other test of the filter stops an entry
  have hpfx : pfxMismatch showFilter e.msg = false := by
    simp [pfxMismatch, e.dst_eq, show showFilter.pfx.family = 0 from rfl]
  have hused : inUse showFilter e.msg = false := by
    unfold inUse
    cases parseRtattr e.msg.attributes ndaCacheinfo with
    | none => rfl
    | some ci => simp [show showFilter.unusedOnly = false from rfl]
  have hdecnet : e.msg.ndmFamily ≠ afDecnet := by
    rcases e.family_eq with ⟨h, -⟩ | ⟨h, -⟩ <;> rw [h] <;> decide
  cases hentry : e.state with
  | none =>
    -- without a state the entry is not printed, as it is no proxy
    have hstate : e.msg.ndmState = 0 := by rw [e.state_eq, hentry, Option.elim_none]
    have hprinted : e.printedLine = none := by simp [printedLine, printedState, hentry]
    simp [printNeigh, e.nlmsgType_eq, hfamily, hindex, hstate, hnone, e.not_proxy, hdecnet,
      hprinted]
  | some state =>
    have hflag : e.msg.ndmState = state.flag := by rw [e.state_eq, hentry, Option.elim_some]
    have hstate : e.msg.ndmState ≠ 0 := by rw [hflag]; exact state.flag_ne_zero
    -- with one it is printed unless the state is NOARP
    have hstop : showFilter.state &&& e.msg.ndmState.toUInt32 = 0 ↔ state = .noarp := by
      rw [hflag, NudState.showFilter_state_and_flag]
    by_cases h : state = .noarp
    · have hprinted : e.printedLine = none := by simp [printedLine, printedState, hentry, h]
      simp [printNeigh, e.nlmsgType_eq, hfamily, hindex, hstop, h, e.not_proxy, hstate, hdecnet,
        hprinted]
    · have hprinted : e.printedLine = some (e.line state) := by
        simp [printedLine, printedState, hentry, h]
      simp [printNeigh, e.nlmsgType_eq, hfamily, hindex, hstop, h, hmaster, hpfx, hused,
        e.printLine_eq hentry, hprinted]

/-! ## The words of the line -/

variable {getByName : List Char → Option InetAddress} {state : NudState}

/-- An entry is printed with the state that it has, which is not NOARP. -/
theorem state_eq_of_printedState {e : NeighEntry env} (h : e.printedState = some state) :
    e.state = some state ∧ state ≠ .noarp := by
  simpa [printedState, Option.filter_eq_some_iff] using h

/-- The fields of a line are gaps and words. -/
theorem isGap_isWord_fields (e : NeighEntry env) (hnum : e.IsNumeric getByName)
    (h : e.printedState = some state) : ∀ field ∈ e.fields state,
    List.IsGap isSpace field.1 ∧ List.IsWord isSpace field.2 := by
  have hblank : List.IsGap isSpace " ".toList := by decide
  have hblanks : List.IsGap isSpace "  ".toList := by decide
  have hdev : List.IsWord isSpace "dev".toList := by decide
  have hlladdr : List.IsWord isSpace "lladdr".toList := by decide
  have hrouter : List.IsWord isSpace "router".toList := by decide
  have hifname : List.IsWord isSpace e.ifname := e.isWord_ifname
  have hstate := state.isWord_name
  -- an entry that is printed has an address of at least one byte, if it has one
  have hmac : ∀ mac ∈ e.mac, List.IsWord isSpace mac := by
    intro mac hmem
    obtain ⟨hentry, hnoarp⟩ := state_eq_of_printedState h
    obtain ⟨lladdr, hattr, rfl⟩ := Option.map_eq_some_iff.mp hmem
    have hne : lladdr ≠ [] := e.lladdr_ne_nil (by simp [hentry, hnoarp]) lladdr hattr
    exact isWord_llAddrN2a env _ hne (by decide) (hnum.isWord_inet lladdr hattr)
      (hnum.isWord_inet6 lladdr hattr)
  unfold fields
  split <;> simp_all

/-- The words of the line of an entry are the address and the words of its fields. -/
theorem splitRuns_line (e : NeighEntry env) (hnum : e.IsNumeric getByName)
    (h : e.printedState = some state) :
    (e.line state).splitRuns isSpace = e.ip :: (e.fields state).map Prod.snd :=
  List.splitRuns_append_flatMap hnum.isWord_ip.not_sep (e.isGap_isWord_fields hnum h)

/-- The words of an entry with a link-layer address: more than five, the fifth is the
    link-layer address and the last the state. -/
theorem words_of_mac (e : NeighEntry env) (state : NudState) {mac : List Char}
    (h : e.mac = some mac) :
    let words := e.ip :: (e.fields state).map Prod.snd
    5 < words.length ∧ words.getD 4 [] = mac ∧ words.getLastD [] = state.name := by
  simp only [fields, h]
  cases e.isRouter <;> simp

/-- An entry without a link-layer address has too few words. -/
theorem length_words_le (e : NeighEntry env) (state : NudState) (h : e.mac = none) :
    (e.ip :: (e.fields state).map Prod.snd).length ≤ 5 := by
  simp only [fields, h]
  cases e.isRouter <;> simp

/-- The line of an entry is read as the host of the entry. -/
theorem parseLine_line (e : NeighEntry env) (hnum : e.IsNumeric getByName)
    (h : e.printedState = some state) : parseLine getByName (e.line state) = e.host := by
  have hip : (e.ip :: (e.fields state).map Prod.snd).getD 0 [] = e.ip := rfl
  obtain ⟨hentry, hnoarp⟩ := state_eq_of_printedState h
  have hsome : e.lladdr.isSome = e.mac.isSome := by simp [mac]
  simp only [parseLine, e.splitRuns_line hnum h]
  cases hmac : e.mac with
  | none =>
    -- without a link-layer address the line is too short
    have hlen := e.length_words_le state hmac
    rw [if_neg (by omega)]
    simp [host, isListed, hsome, hmac]
  | some mac =>
    -- with one its fifth word is the address and its last one the state
    obtain ⟨hlen, hfifth, hlast⟩ := e.words_of_mac state hmac
    rw [if_pos hlen, hip, hfifth, hlast, hnum.getByName_ip]
    have hvalid : (state.name ≠ neighborFailed ∧ state.name ≠ neighborIncomplete) ↔
        state.isValid = true := by
      rw [ne_eq, ne_eq, NudState.name_eq_neighborFailed, NudState.name_eq_neighborIncomplete]
      simp [NudState.isValid, hnoarp, and_comm]
    simp only [host, isListed, hsome, hmac, hentry, hvalid, Option.any_some]
    cases state.isValid <;> simp

/-! ## The whole table -/

/-- Fields are separated by blanks. -/
theorem eq_blank_of_mem_gap (e : NeighEntry env) (state : NudState) :
    ∀ field ∈ e.fields state, ∀ c ∈ field.1, c = ' ' := by
  unfold fields
  split <;> simp

/-- The blank is the only white space in a line. -/
theorem not_mem_line (e : NeighEntry env) (hnum : e.IsNumeric getByName)
    (h : e.printedState = some state) {c : Char} (hspace : isSpace c = true) (hc : c ≠ ' ') :
    c ∉ e.line state := by
  intro hmem
  simp only [line, List.mem_append, List.mem_flatMap] at hmem
  have hword (w : List Char) (hw : List.IsWord isSpace w) : c ∉ w := by
    intro hcw
    exact absurd hspace (by simp [hw.not_sep c hcw])
  -- A character of a line is in the address, in a gap or in a field.
  rcases hmem with hmem | ⟨field, hfield, hmem | hmem⟩
  · exact hword e.ip hnum.isWord_ip hmem
  · exact hc (e.eq_blank_of_mem_gap state field hfield c hmem)
  · exact hword field.2 (e.isGap_isWord_fields hnum h field hfield).2 hmem

/-- Reading back the line of an entry gives its host; an entry that the filter stops has
    neither. -/
theorem printedLine_bind_parseLine (e : NeighEntry env) (hnum : e.IsNumeric getByName) :
    e.printedLine.bind (parseLine getByName) = e.host := by
  cases h : e.printedState with
  | some state => simp only [printedLine, h, Option.map_some, Option.bind_some,
      e.parseLine_line hnum h]
  | none =>
    -- an entry that is not printed has no state or is in NOARP, so it is not listed
    have hvalid : e.state.any NudState.isValid = false := by
      cases hentry : e.state with
      | none => rfl
      | some state =>
        simp only [printedState, hentry, Option.filter_some] at h
        have hnoarp : state = .noarp := by simpa using h
        rw [hnoarp]
        rfl
    simp [printedLine, h, host, isListed, hvalid]

/-- The hosts of a table have the printed addresses of the listed entries. -/
theorem map_ip_filterMap_host (entries : List (NeighEntry env)) :
    (entries.filterMap host).map Host.ip =
      ((entries.filter isListed).map ip).map String.ofList := by
  induction entries with
  | nil => rfl
  | cons e entries ih => by_cases h : e.isListed = true <;> simp_all [host]

end NeighEntry

/-- A dump whose messages are printed as lines, or not at all, is read line by line. -/
theorem parse_dump {ι : Type} {env : NeighEnv} {getByName : List Char → Option InetAddress}
    {msg : ι → NeighMsg} {printed : ι → Option (List Char)} {host : ι → Option Host}
    (entries : List ι)
    (htext : ∀ e ∈ entries,
      printNeigh env showFilter (msg e) = (printed e).elim [] (· ++ ['\n']))
    (hbreak : ∀ e ∈ entries, ∀ line ∈ printed e, '\r' ∉ line ∧ '\n' ∉ line)
    (hparse : ∀ e ∈ entries, (printed e).bind (parseLine getByName) = host e) :
    parseAndExtractValidArpFromInputStream getByName 0 (doShowOrFlush env (entries.map msg)) =
      entries.filterMap host := by
  -- the text has one line for each entry that is printed
  have hlines : doShowOrFlush env (entries.map msg) =
      (entries.filterMap printed).flatMap fun line => line ++ ['\n'] := by
    simp only [doShowOrFlush, List.flatMap_map]
    clear hbreak hparse
    induction entries with
    | nil => rfl
    | cons e entries ih =>
      rw [List.flatMap_cons, htext e List.mem_cons_self,
        ih fun x hx => htext x (List.mem_cons_of_mem e hx), List.filterMap_cons]
      cases printed e <;> simp
  have hbreak' : ∀ line ∈ entries.filterMap printed, '\r' ∉ line ∧ '\n' ∉ line := by
    intro line hline
    obtain ⟨e, he, hprinted⟩ := List.mem_filterMap.mp hline
    exact hbreak e he line hprinted
  -- so the parser sees their lines and nothing else
  calc parseAndExtractValidArpFromInputStream getByName 0 (doShowOrFlush env (entries.map msg))
      = (entries.filterMap printed).filterMap (parseLine getByName) := by
        simp only [parseAndExtractValidArpFromInputStream, ne_eq, not_true, if_false, hlines]
        rw [List.lines_flatMap hbreak']
    _ = entries.filterMap fun e => (printed e).bind (parseLine getByName) :=
        List.filterMap_filterMap
    _ = entries.filterMap host := List.filterMap_congr hparse

/-- The text that `do_show_or_flush` writes for a neighbour table is read back as the
    hosts of the listed entries, in order. -/
theorem NeighEntry.parse_table {env : NeighEnv} (entries : List (NeighEntry env))
    {getByName : List Char → Option InetAddress} (h : ∀ e ∈ entries, e.IsNumeric getByName) :
    parseAndExtractValidArpFromInputStream getByName 0 (doShowOrFlush env (entries.map msg)) =
      entries.filterMap host := by
  refine parse_dump entries (fun e _ => e.printNeigh_eq) ?_
    fun e he => e.printedLine_bind_parseLine (h e he)
  intro e he line hline
  obtain ⟨state, hstate, rfl⟩ := Option.map_eq_some_iff.mp hline
  exact ⟨e.not_mem_line (h e he) hstate (by decide) (by decide),
    e.not_mem_line (h e he) hstate (by decide) (by decide)⟩

end LanScan.Android
