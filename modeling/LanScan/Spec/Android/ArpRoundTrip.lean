import LanScan.Spec.Android.ArpEntry

/-!
# The ARP table round trip

The neighbour entries of a network in which every link-layer address has six bytes: their
link-layer addresses are printed in full, as in `a0:0b:cc:01:02:ff`.

Key results:
- `llAddrN2a_eq_macText`: the text of a link-layer address
- `printNeigh_eq`: the line written for an entry, if any
- `parse_doShowOrFlush`: the parser finds exactly the valid entries, in order
-/

namespace LanScan.Android

/-! ## Link-layer addresses -/

/-- Lower-case hex digits, two for each byte, with colons between the bytes. -/
def macText (lladdr : List UInt8) : List Char := [':'].intercalate (lladdr.map hexByte)

/-- The first byte is printed without a colon. -/
theorem macText_cons (b : UInt8) (lladdr : List UInt8) :
    macText (b :: lladdr) = hexByte b ++ lladdr.flatMap fun b => ':' :: hexByte b := by
  induction lladdr generalizing b with
  | nil => simp [macText]
  | cons b' lladdr ih =>
    have ih' := ih b'
    simp only [macText, List.map_cons] at ih' ⊢
    rw [List.intercalate_cons_cons, ih']
    simp

/-- The loop of `ll_addr_n2a` writes every byte when the buffer has room for it. -/
theorem llAddrLoop_eq_flatMap {blen l : Nat} {addr : List UInt8}
    (h : l + 3 * addr.length < blen) :
    llAddrLoop blen l addr = addr.flatMap fun b => ':' :: hexByte b := by
  induction addr generalizing l with
  | nil => rfl
  | cons b addr ih =>
    simp only [List.length_cons] at h
    have hl : l < blen := by omega
    have hroom : (':' :: hexByte b).length ≤ blen - l - 1 := by simp [hexByte]; omega
    simp only [llAddrLoop, hl, if_true, List.flatMap_cons]
    rw [List.take_of_length_le hroom, ih (by omega)]

/-- An address that fits into the buffer and is no tunnel endpoint is printed in full. -/
theorem llAddrN2a_eq_macText (env : NeighEnv) {lladdr : List UInt8} (type : Int) {blen : Nat}
    (hne : lladdr ≠ []) (h4 : lladdr.length ≠ 4) (h16 : lladdr.length ≠ 16)
    (hblen : 3 * lladdr.length ≤ blen) : env.llAddrN2a lladdr type blen = macText lladdr := by
  cases lladdr with
  | nil => exact absurd rfl hne
  | cons b addr =>
    simp only [List.length_cons] at hblen
    have hroom : (hexByte b).length ≤ blen - 1 := by simp [hexByte]; omega
    simp only [NeighEnv.llAddrN2a, h4, h16, false_and, if_false]
    rw [List.take_of_length_le hroom, llAddrLoop_eq_flatMap (by omega), macText_cons]

/-! ## Neighbour entries -/

/-- A neighbour entry in a network in which every link-layer address has six bytes: such an
    address or none, and one state. -/
structure Neighbour (env : NeighEnv) extends NeighEntry env where
  nud : NudState
  state := some nud
  state_eq_some : state = some nud := by rfl
  length_lladdr : ∀ lladdr ∈ parseRtattr msg.attributes ndaLladdr, lladdr.length = 6
  lladdr_ne_nil _ lladdr h := List.ne_nil_of_length_pos (by rw [length_lladdr lladdr h]; decide)

namespace Neighbour

variable {env : NeighEnv}

/-- The host an entry stands for: a valid entry with a link-layer address, whose
    address is neither link-local nor loopback. -/
def host (e : Neighbour env) : Option Host :=
  match e.lladdr with
  | some lladdr =>
    if e.nud.isValid && !e.address.isLinkLocalAddress && !e.address.isLoopbackAddress then
      some { ip := String.ofList e.ip, mac := some (String.ofList (macText lladdr)) }
    else none
  | none => none

/-- The printed address is numeric text: one word, which `getByName` reads back. -/
structure IsNumeric (getByName : List Char → Option InetAddress) (e : Neighbour env) : Prop where
  isWord_ip : List.IsWord isSpace e.ip
  getByName_ip : getByName e.ip = some e.address

instance (getByName : List Char → Option InetAddress) (e : Neighbour env) :
    Decidable (e.IsNumeric getByName) :=
  decidable_of_iff (List.IsWord isSpace e.ip ∧ getByName e.ip = some e.address)
    ⟨fun h => ⟨h.1, h.2⟩, fun h => ⟨h.1, h.2⟩⟩

/-- Six bytes are printed in full. -/
theorem mac_eq (e : Neighbour env) : e.mac = e.lladdr.map macText := by
  apply Option.map_congr
  intro lladdr h
  have hlen : lladdr.length = 6 := e.length_lladdr lladdr h
  have hne : lladdr ≠ [] := List.ne_nil_of_length_pos (by omega)
  exact llAddrN2a_eq_macText env _ hne (by omega) (by omega) (by rw [hlen]; decide)

/-- It has the same host as an entry of the dump. -/
theorem host_toNeighEntry (e : Neighbour env) : e.toNeighEntry.host = e.host := by
  simp only [NeighEntry.host, NeighEntry.isListed, e.mac_eq, e.state_eq_some, host, Option.any_some]
  cases e.lladdr <;> simp

/-- Its names are those of an entry of the dump. -/
theorem isNumeric_toNeighEntry {getByName : List Char → Option InetAddress} {e : Neighbour env}
    (h : e.IsNumeric getByName) : e.toNeighEntry.IsNumeric getByName where
  isWord_ip := h.isWord_ip
  getByName_ip := h.getByName_ip
  -- no tunnel endpoint has six bytes
  isWord_inet lladdr hlladdr h4 := absurd (e.length_lladdr lladdr hlladdr) (by omega)
  isWord_inet6 lladdr hlladdr h16 := absurd (e.length_lladdr lladdr hlladdr) (by omega)

/-- So are the entries of a table in which every address is numeric. -/
theorem isNumeric_of_mem {getByName : List Char → Option InetAddress}
    {entries : List (Neighbour env)} (h : ∀ e ∈ entries, e.IsNumeric getByName) :
    ∀ entry ∈ entries.map toNeighEntry, entry.IsNumeric getByName := by
  intro entry hentry
  obtain ⟨e, he, rfl⟩ := List.mem_map.mp hentry
  exact isNumeric_toNeighEntry (h e he)

/-- The line written for an entry: none when the filter stops it. -/
theorem printNeigh_eq (e : Neighbour env) :
    printNeigh env showFilter e.msg =
      if e.nud = .noarp then [] else e.line e.nud ++ ['\n'] := by
  rw [e.toNeighEntry.printNeigh_eq, NeighEntry.printedLine, NeighEntry.printedState,
    e.state_eq_some]
  by_cases h : e.nud = .noarp <;> simp [Option.filter, h]

/-- The text that `do_show_or_flush` writes for a table of neighbour entries, with any
    mix of optional fields, flags and states, is read back as the valid hosts among
    them, in order. -/
theorem parse_doShowOrFlush (entries : List (Neighbour env))
    {getByName : List Char → Option InetAddress} (h : ∀ e ∈ entries, e.IsNumeric getByName) :
    parseAndExtractValidArpFromInputStream getByName 0
        (doShowOrFlush env (entries.map fun e => e.msg)) = entries.filterMap host := by
  have hmsg : entries.map (fun e => e.msg) = (entries.map toNeighEntry).map NeighEntry.msg := by
    rw [List.map_map]
    rfl
  rw [hmsg, NeighEntry.parse_table _ (isNumeric_of_mem h), List.filterMap_map]
  exact List.filterMap_congr fun e _ => e.host_toNeighEntry

end Neighbour

/-! ## A table -/

/-- A wireless network, with addresses in which `inet_ntop` abbreviates nothing. -/
def wlanEnv : NeighEnv where
  inetNtop _ addr := ((InetAddress.getByAddress addr).elim "" InetAddress.hostAddress).toList
  ifIndextoname idx := if idx = 3 then some "wlan0".toList else none
  idxHead _ := []

/-- An entry for an address behind `wlan0`. -/
def wlanEntry (ndmFamily : UInt8) (dst : List UInt8) (lladdr : Option (List UInt8))
    (state : NudState) (ndmFlags : UInt8)
    (hfamily : ndmFamily = afInet ∧ dst.length = 4 ∨ ndmFamily = afInet6 ∧ dst.length = 16 := by
      decide)
    (hlladdr : ∀ addr ∈ lladdr, addr.length = 6 := by decide)
    (hflags : ndmFlags &&& ntfProxy = 0 := by decide) : Neighbour wlanEnv where
  msg := {
    nlmsgType := rtmNewneigh, nlmsgFlags := 0, ndmFamily, ndmIfindex := 3,
    ndmState := state.flag, ndmFlags,
    attributes := (ndaDst, dst) :: (lladdr.map fun addr => (ndaLladdr, addr)).toList }
  dst := dst
  nud := state
  nlmsgType_eq := rfl
  dst_eq := rfl
  family_eq := hfamily
  ifindex_ne_zero := show (3 : Int32) ≠ 0 by decide
  isWord_ifname := show List.IsWord isSpace (wlanEnv.llIndexToName 3) by decide
  length_lladdr := by
    cases lladdr with
    | none => exact fun _ h => nomatch h
    | some addr => exact hlladdr
  not_proxy := hflags
  state_eq := rfl

/-- An entry without flags is no proxy. -/
theorem zero_and_ntfProxy : (0 : UInt8) &&& ntfProxy = 0 := by decide

/-- A laptop that has joined the network. -/
def wlanLaptop : Neighbour wlanEnv :=
  wlanEntry afInet [192, 168, 1, 3] (some [0, 1, 2, 3, 4, 9]) .stale 0

/-- A router, an IPv6 host, and entries that are failed, link-local or without ARP. -/
def wlanTable : List (Neighbour wlanEnv) :=
  [wlanEntry afInet [192, 168, 1, 1] (some [0xA0, 0x0B, 0xCC, 0x01, 0x02, 0xFF]) .reachable
      ntfRouter,
    wlanEntry afInet6 [0x20, 1, 0xD, 0xB8, 0, 1, 0, 2, 0, 3, 0, 4, 0, 5, 0, 6]
      (some [0, 1, 2, 3, 4, 5]) .stale 0,
    wlanEntry afInet [192, 168, 1, 7] none .failed 0,
    wlanEntry afInet [192, 168, 1, 8] (some [0, 1, 2, 3, 4, 6]) .incomplete ntfRouter,
    wlanEntry afInet [169, 254, 7, 7] (some [0, 1, 2, 3, 4, 7]) .delay 0,
    wlanEntry afInet [192, 168, 1, 9] (some [0, 1, 2, 3, 4, 8]) .noarp 0]

/-- The router and the IPv6 host are read back. -/
theorem parse_doShowOrFlush_wlan :
    parseAndExtractValidArpFromInputStream
        (fun text => (wlanTable.map fun e => e.address).find? (·.hostAddress.toList = text)) 0
        (doShowOrFlush wlanEnv (wlanTable.map fun e => e.msg)) =
      [{ ip := "192.168.1.1", mac := some "a0:0b:cc:01:02:ff" },
        { ip := "2001:db8:1:2:3:4:5:6", mac := some "00:01:02:03:04:05" }] :=
  (Neighbour.parse_doShowOrFlush wlanTable (by decide)).trans (by decide)

end LanScan.Android
