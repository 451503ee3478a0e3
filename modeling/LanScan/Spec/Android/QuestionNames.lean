import LanScan.Spec.Android.ArpRoundTrip
import LanScan.Spec.Android.MDNSLookup

/-!
# The names that are asked for (Android)

`processHost` asks for the name of every host of the neighbour table, and the table has
addresses of both protocols.  `reverseName` renders four bytes of an address, whatever its
length, so IPv6 addresses are told apart by their first 32 bits only.

## Key results

- `reverseName_eq`: what is rendered
- `questionName_ne_iff`: which addresses of the table are asked for by different names
- `exists_inet6_of_take`: among them are all pairs of IPv4 addresses
- `request_eq_of_take`: the others are asked for by the same request
- `not_linkLocal_of_canReturn`: no address of the table is link-local
-/

namespace LanScan.Android.MDNSResolver

/-- An address that `processHost` is called with for a host that
    `parseAndExtractValidArpFromInputStream` returns. -/
def CanReturn (getByName : List Char → Option InetAddress) (ip : InetAddress) : Prop :=
  ∃ returnCode text, ∃ host ∈ parseAndExtractValidArpFromInputStream getByName returnCode text,
    getByName host.ip.toList = some ip

/-- The question name in the request of `resolve` for an address. -/
def questionName (ip : InetAddress) : List UInt8 := writeName (reverseName ip.address)

/-- The question name follows the header of the request. -/
theorem request_eq (ip : InetAddress) : request ip.address =
    writeShort (requestId ip.address) ++ [0, 0, 0, 1, 0, 0, 0, 0, 0, 0] ++ questionName ip ++
      [0, 0xC, 0, 1] := rfl

/-! ## Four bytes -/

/-- The IPv4 address with the first four bytes of an address. -/
def firstFour (addr : List UInt8) : Ipv4 where
  b₀ := addr.getD 0 0
  b₁ := addr.getD 1 0
  b₂ := addr.getD 2 0
  b₃ := addr.getD 3 0

/-- `reverseName` renders the first four bytes. -/
theorem reverseName_eq (addr : List UInt8) : reverseName addr = (firstFour addr).reverseName :=
  reverseName_inet (firstFour addr)

/-- An address has four bytes at least. -/
theorem four_le_length_address (ip : InetAddress) : 4 ≤ ip.address.length := by
  cases ip with
  | inet4 => exact Nat.le_refl 4
  | inet6 address => simp [InetAddress.address]

/-- The first four bytes are those that `firstFour` has. -/
theorem take_four_eq {addr : List UInt8} (h : 4 ≤ addr.length) :
    addr.take 4 = (inet (firstFour addr)).address := by
  match addr, h with
  | _ :: _ :: _ :: _ :: _, _ => rfl

/-- Addresses agree in their first four bytes if these are the same IPv4 address. -/
theorem take_four_eq_iff (ip ip' : InetAddress) :
    ip.address.take 4 = ip'.address.take 4 ↔ firstFour ip.address = firstFour ip'.address := by
  rw [take_four_eq (four_le_length_address ip), take_four_eq (four_le_length_address ip')]
  constructor
  · intro h
    -- The four bytes of an IPv4 address are its octets in order.
    simp only [inet, InetAddress.address, List.cons.injEq, and_true] at h
    obtain ⟨h₀, h₁, h₂, h₃⟩ := h
    rw [Ipv4.mk.injEq]
    exact ⟨h₀, h₁, h₂, h₃⟩
  · intro h
    rw [h]

/-- The question is that for the first four bytes. -/
theorem questionName_eq (ip : InetAddress) : questionName ip = (firstFour ip.address).owner := by
  rw [questionName, reverseName_eq, writeName_reverseName]

/-- An IPv4 address is its first four bytes. -/
theorem take_four_ne_of_inet4 {a b : Ipv4} (h : inet a ≠ inet b) :
    (inet a).address.take 4 ≠ (inet b).address.take 4 := by
  intro htake
  apply h
  simp only [inet, InetAddress.address, List.take_succ_cons, List.take_zero, List.cons.injEq,
    and_true] at htake
  obtain ⟨h₀, h₁, h₂, h₃⟩ := htake
  simp only [inet, h₀, h₁, h₂, h₃]

/-- Addresses that agree in four bytes get the same request, id and all. -/
theorem request_eq_of_take {ip ip' : InetAddress}
    (h : ip.address.take 4 = ip'.address.take 4) : request ip.address = request ip'.address := by
  have hfour := (take_four_eq_iff ip ip').mp h
  have hname : questionName ip = questionName ip' := by
    rw [questionName_eq, hfour, questionName_eq]
  have hid : requestId ip.address = requestId ip'.address := by
    have h₂ : ip.address.getD 2 0 = ip'.address.getD 2 0 := congrArg Ipv4.b₂ hfour
    have h₃ : ip.address.getD 3 0 = ip'.address.getD 3 0 := congrArg Ipv4.b₃ hfour
    rw [requestId, requestId, h₂, h₃]
  rw [request_eq, request_eq, hname, hid]

/-! ## The hosts of the table -/

/-- The parser lets through what is neither link-local nor loopback. -/
theorem not_linkLocal_of_canReturn {getByName : List Char → Option InetAddress}
    {ip : InetAddress} (h : CanReturn getByName ip) :
    ip.isLinkLocalAddress = false ∧ ip.isLoopbackAddress = false := by
  obtain ⟨returnCode, text, host, hhost, hip⟩ := h
  unfold parseAndExtractValidArpFromInputStream at hhost
  split at hhost
  · exact absurd hhost List.not_mem_nil
  · obtain ⟨line, -, hline⟩ := List.mem_filterMap.mp hhost
    unfold parseLine at hline
    simp only at hline
    split at hline
    · split at hline
      · exact nomatch hline
      · rename_i address haddress
        split at hline
        · rename_i hrange
          split at hline
          · cases hline
            -- `processHost` reads the same text again
            rw [String.toList_ofList, haddress] at hip
            cases hip
            simpa using hrange
          · exact nomatch hline
        · exact nomatch hline
    · exact nomatch hline

/-- The address of every listed entry of a dump can be returned. -/
theorem canReturn_of_isListed {env : NeighEnv} {entries : List (NeighEntry env)}
    {getByName : List Char → Option InetAddress} (hnum : ∀ e ∈ entries, e.IsNumeric getByName)
    {e : NeighEntry env} (he : e ∈ entries) (hlisted : e.isListed = true) :
    CanReturn getByName e.address := by
  have hhost : e.host = some { ip := String.ofList e.ip, mac := e.mac.map String.ofList } := by
    rw [NeighEntry.host, if_pos hlisted]
  -- The host is among those that the parser reads back from the printed table.
  have hmem : { ip := String.ofList e.ip, mac := e.mac.map String.ofList } ∈
      parseAndExtractValidArpFromInputStream getByName 0
        (doShowOrFlush env (entries.map NeighEntry.msg)) := by
    rw [NeighEntry.parse_table entries hnum]
    exact List.mem_filterMap.mpr ⟨e, he, hhost⟩
  refine ⟨0, _, _, hmem, ?_⟩
  rw [String.toList_ofList]
  exact (hnum e he).getByName_ip

/-- Questions are equal if the first four bytes are. -/
theorem questionName_eq_iff (ip ip' : InetAddress) :
    questionName ip = questionName ip' ↔ ip.address.take 4 = ip'.address.take 4 := by
  rw [questionName_eq, questionName_eq, take_four_eq_iff]
  exact ⟨fun h => Ipv4.owner_injective h, congrArg Ipv4.owner⟩

/-- Two distinct addresses with the same first four bytes are not both IPv4 addresses. -/
theorem exists_inet6_of_take {ip ip' : InetAddress} (hne : ip ≠ ip')
    (h : ip.address.take 4 = ip'.address.take 4) :
    ∃ six, ip = .inet6 six ∨ ip' = .inet6 six := by
  cases ip with
  | inet6 six => exact ⟨six, .inl rfl⟩
  | inet4 a₀ a₁ a₂ a₃ =>
    cases ip' with
    | inet6 six => exact ⟨six, .inr rfl⟩
    | inet4 b₀ b₁ b₂ b₃ =>
      exact absurd h (@take_four_ne_of_inet4 ⟨a₀, a₁, a₂, a₃⟩ ⟨b₀, b₁, b₂, b₃⟩ hne)

/-- **Question names.** Two distinct addresses of hosts of the neighbour table are asked for by
    different names if and only if they differ in their first four bytes.  Where they do not, one
    of them is an IPv6 address that is neither link-local nor loopback, and both requests are the
    same. -/
theorem questionName_ne_iff {getByName : List Char → Option InetAddress} {ip ip' : InetAddress}
    (h : CanReturn getByName ip) (h' : CanReturn getByName ip') (hne : ip ≠ ip') :
    (questionName ip ≠ questionName ip' ↔ ip.address.take 4 ≠ ip'.address.take 4) ∧
      (questionName ip = questionName ip' → request ip.address = request ip'.address ∧
        ∃ six, (ip = .inet6 six ∨ ip' = .inet6 six) ∧
          (InetAddress.inet6 six).isLinkLocalAddress = false ∧
          (InetAddress.inet6 six).isLoopbackAddress = false) := by
  refine ⟨not_congr (questionName_eq_iff ip ip'), fun hname => ?_⟩
  have htake := (questionName_eq_iff ip ip').mp hname
  refine ⟨request_eq_of_take htake, ?_⟩
  obtain ⟨six, hsix⟩ := exists_inet6_of_take hne htake
  refine ⟨six, hsix, ?_⟩
  rcases hsix with rfl | rfl
  · exact not_linkLocal_of_canReturn h
  · exact not_linkLocal_of_canReturn h'

/-- A host of an IPv6 network. -/
def sixEntry (last : UInt8) : Neighbour wlanEnv :=
  wlanEntry afInet6 [0x20, 1, 0xD, 0xB8, 0, 1, 0, 2, 0, 3, 0, 4, 0, 5, 0, last]
    (some [0, 1, 2, 3, 4, last]) .reachable 0 (.inr ⟨rfl, rfl⟩) (by simp) zero_and_ntfProxy

/-- A router, and two hosts of one IPv6 network. -/
def dualStack : List (Neighbour wlanEnv) := wlanTable.take 1 ++ [sixEntry 6, sixEntry 7]

/-- The numeric names of the three. -/
def dualStackNames (text : List Char) : Option InetAddress :=
  (dualStack.map fun e => e.address).find? (·.hostAddress.toList = text)

/-- The parser returns all addresses of the table. -/
theorem canReturn_dualStack {e : Neighbour wlanEnv} (he : e ∈ dualStack) :
    CanReturn dualStackNames e.address := by
  have hnum : ∀ e ∈ dualStack, e.IsNumeric dualStackNames := by decide
  have hlisted : ∀ e ∈ dualStack, e.toNeighEntry.isListed = true := by decide
  have hentries := Neighbour.isNumeric_of_mem hnum
  exact canReturn_of_isListed hentries (List.mem_map_of_mem he) (hlisted e he)

/-- The addresses of the two IPv6 hosts. -/
def hostSix (last : UInt8) : InetAddress :=
  .inet6 #v[0x20, 1, 0xD, 0xB8, 0, 1, 0, 2, 0, 3, 0, 4, 0, 5, 0, last]

/-- The parser returns the router. -/
theorem canReturn_router : CanReturn dualStackNames (.inet4 192 168 1 1) :=
  canReturn_dualStack (List.getElem_mem (l := dualStack) (n := 0) (by decide))

/-- The parser returns both IPv6 hosts. -/
theorem canReturn_hostSix : CanReturn dualStackNames (hostSix 6) ∧
    CanReturn dualStackNames (hostSix 7) :=
  ⟨canReturn_dualStack (List.getElem_mem (l := dualStack) (n := 1) (by decide)),
    canReturn_dualStack (List.getElem_mem (l := dualStack) (n := 2) (by decide))⟩

/-- The router and a host with an IPv6 address are told apart. -/
theorem questionName_ne_router :
    questionName (.inet4 192 168 1 1) ≠ questionName (hostSix 6) :=
  (questionName_ne_iff canReturn_router canReturn_hostSix.1 (by decide)).1.mpr (by decide)

/-- Both IPv6 hosts are asked for by the name of 32.1.13.184. -/
theorem questionNames_collide :
    ¬ ∀ (getByName : List Char → Option InetAddress) (ip ip' : InetAddress),
      CanReturn getByName ip → CanReturn getByName ip' → ip ≠ ip' →
      questionName ip ≠ questionName ip' := by
  intro h
  have hne := h dualStackNames (hostSix 6) (hostSix 7) canReturn_hostSix.1 canReturn_hostSix.2
    (by decide)
  exact hne (by decide)

end LanScan.Android.MDNSResolver
