import LanScan.Spec.Android.NetlinkAttributes

/-!
# Decoding netlink messages

`decode` says which messages the bytes are that `recvmsg` puts into a buffer.  On the
bytes of a neighbour message `print_neigh` prints what it prints for the decoded message,
as long as the addresses have the lengths that belong to their families.

Key results:
- `decodeNeigh_recordAt`: a message does not depend on what stands behind it
- `printNeigh_of_isNeigh`, `printNeigh_of_short`, `printNeigh_of_not_isNeigh`: what
  `print_neigh` prints
-/

namespace LanScan.Android.Netlink

open LittleEndian NativeIPNeigh

variable {env : NeighEnv} {filter : NeighFilter} {ndaMax : Nat} {n h : Ptr}

/-! ## Decoding -/

/-- The messages that `print_neigh` prints. -/
def isNeigh (type : UInt16) : Prop :=
  type = rtmNewneigh ∨ type = rtmDelneigh ∨ type = rtmGetneigh

instance (type : UInt16) : Decidable (isNeigh type) := inferInstanceAs (Decidable (_ ∨ _ ∨ _))

/-- A neighbour message. -/
def decodeNeigh (n : Ptr) : NeighMsg where
  nlmsgType := nlmsgType n
  nlmsgFlags := nlmsgFlags n
  ndmFamily := ndmFamily (nlmsgData n)
  ndmIfindex := ndmIfindex (nlmsgData n)
  ndmState := ndmState (nlmsgData n)
  ndmFlags := ndmFlags (nlmsgData n)
  attributes :=
    attributesOf (ndaRta (nlmsgData n)) ((nlmsgLen n : Int) - nlmsgLength sizeofNdmsg)

/-- What follows the header of a message. -/
def decodeBody (n : Ptr) : NlBody :=
  if nlmsgType n = nlmsgDone then
    .done (if nlmsgLen n < nlmsgLength 4 then none else some (u32 (nlmsgData n) 0).toInt32)
  else if nlmsgType n = nlmsgError then .error
  else if isNeigh (nlmsgType n) ∧ nlmsgLen n < nlmsgLength sizeofNdmsg then .short
  else .neigh (decodeNeigh n)

/-- A message of a datagram. -/
def decodeMsg (n : Ptr) : NlMsg := ⟨nlmsgSeq n, decodeBody n⟩

/-- What one call of `recvmsg` puts into the buffer. -/
def decode : RecvMsg → Received
  | .interrupted => .interrupted
  | .failed => .failed
  | .received nlPid bytes truncated =>
    -- no bytes are the end of the socket
    if bytes.length = 0 then .failed
    else .datagram {
      nlPid
      messages := (nlmsg.records bytes bytes.length).map decodeMsg
      remnant := nlmsg.remnant bytes bytes.length ≠ 0
      truncated }

/-- The addresses of a message have the lengths that belong to their families, and its
    cache information has all its fields. -/
structure WholeAddresses (m : NeighMsg) : Prop where
  inet : m.ndmFamily = afInet → ∀ dst ∈ Android.parseRtattr m.attributes ndaDst, dst.length = 4
  inet6 : m.ndmFamily = afInet6 → ∀ dst ∈ Android.parseRtattr m.attributes ndaDst, dst.length = 16
  packet : m.ndmFamily = afPacket → ∀ dst ∈ Android.parseRtattr m.attributes ndaDst, dst ≠ []
  lladdr : ∀ lladdr ∈ Android.parseRtattr m.attributes ndaLladdr, lladdr ≠ []
  cacheinfo : ∀ ci ∈ Android.parseRtattr m.attributes ndaCacheinfo, 16 ≤ ci.length

instance (m : NeighMsg) : Decidable (WholeAddresses m) :=
  decidable_of_iff
    ((m.ndmFamily = afInet → ∀ dst ∈ Android.parseRtattr m.attributes ndaDst, dst.length = 4) ∧
      (m.ndmFamily = afInet6 → ∀ dst ∈ Android.parseRtattr m.attributes ndaDst, dst.length = 16) ∧
      (m.ndmFamily = afPacket → ∀ dst ∈ Android.parseRtattr m.attributes ndaDst, dst ≠ []) ∧
      (∀ lladdr ∈ Android.parseRtattr m.attributes ndaLladdr, lladdr ≠ []) ∧
      ∀ ci ∈ Android.parseRtattr m.attributes ndaCacheinfo, 16 ≤ ci.length)
    ⟨fun ⟨h₁, h₂, h₃, h₄, h₅⟩ => ⟨h₁, h₂, h₃, h₄, h₅⟩,
      fun ⟨h₁, h₂, h₃, h₄, h₅⟩ => ⟨h₁, h₂, h₃, h₄, h₅⟩⟩

/-- `filter.state` stops a neighbour. -/
def stateMismatch (filter : NeighFilter) (m : NeighMsg) : Prop :=
  filter.state &&& m.ndmState.toUInt32 = 0 ∧ m.ndmFlags &&& ntfProxy = 0 ∧
    (m.ndmState ≠ 0 ∨ filter.state &&& 0x100 = 0) ∧ m.ndmFamily ≠ afDecnet

instance (filter : NeighFilter) (m : NeighMsg) : Decidable (stateMismatch filter m) :=
  inferInstanceAs (Decidable (_ ∧ _ ∧ _ ∧ _))

/-- The record is no neighbour that is printed, or one with whole addresses. -/
def RecordHasWholeAddresses (m : List UInt8) : Prop :=
  isNeigh (nlmsgType m) → ¬ stateMismatch showFilter (decodeNeigh m) →
    WholeAddresses (decodeNeigh m)

instance (m : List UInt8) : Decidable (RecordHasWholeAddresses m) :=
  inferInstanceAs (Decidable (_ → _ → _))

/-- The neighbours that are received, and printed, have whole addresses. -/
def HasWholeAddresses : RecvMsg → Prop
  | .received _ bytes _ => ∀ m ∈ nlmsg.records bytes bytes.length, RecordHasWholeAddresses m
  | .interrupted | .failed => True

instance : (r : RecvMsg) → Decidable (HasWholeAddresses r)
  | .received _ bytes _ =>
    inferInstanceAs (Decidable (∀ m ∈ nlmsg.records bytes bytes.length, _))
  | .interrupted => .isTrue trivial
  | .failed => .isTrue trivial

/-! ## A message and its record -/

/-- A message alone has its length field. -/
theorem nlmsgLen_recordAt (hlen : nlmsgHdrlen ≤ nlmsgLen h) :
    nlmsgLen (nlmsg.recordAt h) = nlmsgLen h :=
  nlmsg.lengthOf_take_of_le hlen h

/-- A field of the header. -/
theorem read_recordAt {w i : Nat} (hwi : i + w ≤ nlmsgHdrlen) (hlen : nlmsgHdrlen ≤ nlmsgLen h) :
    read w (nlmsg.recordAt h) i = read w h i :=
  read_take (Nat.le_trans hwi hlen) h

/-- A message alone has its type. -/
theorem nlmsgType_recordAt (hlen : nlmsgHdrlen ≤ nlmsgLen h) :
    nlmsgType (nlmsg.recordAt h) = nlmsgType h :=
  congrArg UInt16.ofNat (read_recordAt (by decide) hlen)

/-- A message alone has its sequence number. -/
theorem nlmsgSeq_recordAt (hlen : nlmsgHdrlen ≤ nlmsgLen h) :
    nlmsgSeq (nlmsg.recordAt h) = nlmsgSeq h :=
  congrArg UInt32.ofNat (read_recordAt (by decide) hlen)

/-- A field behind the header. -/
theorem read_nlmsgData_recordAt {w i : Nat} (hlen : nlmsgHdrlen + i + w ≤ nlmsgLen h) :
    read w (nlmsgData (nlmsg.recordAt h)) i = read w (nlmsgData h) i := by
  rw [nlmsgData, nlmsgData, read_drop, read_drop]
  exact read_take hlen h

/-- The attributes end where the message does. -/
theorem attributesOf_recordAt (hlen : nlmsgLength sizeofNdmsg ≤ nlmsgLen h) :
    attributesOf (ndaRta (nlmsgData (nlmsg.recordAt h)))
        ((nlmsgLen h : Int) - nlmsgLength sizeofNdmsg) =
      attributesOf (ndaRta (nlmsgData h)) ((nlmsgLen h : Int) - nlmsgLength sizeofNdmsg) := by
  have hrta : ndaRta (nlmsgData (nlmsg.recordAt h)) =
      (ndaRta (nlmsgData h)).take (nlmsgLen h - nlmsgLength sizeofNdmsg) := by
    rw [ndaRta, ndaRta, nlmsgData, nlmsgData, List.drop_drop, List.drop_drop]
    exact List.drop_take
  have hle : (nlmsgLen h : Int) - nlmsgLength sizeofNdmsg ≤
      (nlmsgLen h - nlmsgLength sizeofNdmsg : Nat) := by omega
  rw [hrta, attributesOf, (rtattr.records_take hle).1, attributesOf]

/-- A neighbour is decoded from its own bytes. -/
theorem decodeNeigh_recordAt (hlen : nlmsgLength sizeofNdmsg ≤ nlmsgLen h) :
    decodeNeigh (nlmsg.recordAt h) = decodeNeigh h := by
  have hlen' : 28 ≤ nlmsgLen h := hlen
  have hheader : nlmsgHdrlen ≤ nlmsgLen h := Nat.le_trans (by decide) hlen
  -- All fields lie within the 28 bytes, which the record keeps.
  have hfield (w i : Nat) (hwi : i + w ≤ 12) := @read_nlmsgData_recordAt h w i
    (by rw [show nlmsgHdrlen = 16 from rfl]; omega)
  simp only [decodeNeigh, nlmsgLen_recordAt hheader, attributesOf_recordAt hlen, ndmFamily,
    ndmIfindex, ndmState, ndmFlags, nlmsgType, nlmsgFlags, u16, u32,
    read_recordAt (show 4 + 2 ≤ nlmsgHdrlen by decide) hheader,
    read_recordAt (show 6 + 2 ≤ nlmsgHdrlen by decide) hheader, hfield 1 0 (by decide),
    hfield 4 4 (by decide), hfield 2 8 (by decide), hfield 1 10 (by decide)]

/-! ## Addresses -/

/-- `inet_ntop` reads as many bytes as the family has. -/
theorem inetNtop_take (af : UInt8) {addr : Ptr} {alen : Nat}
    (halen : alen = if af = afInet then 4 else 16) :
    inetNtop env af addr = env.inetNtop af (addr.take alen) := by
  rw [inetNtop, halen]

/-- An address of at least one byte is printed from its own bytes. -/
theorem llAddrN2a_take {addr : Ptr} {alen : Nat} (hpos : 0 < alen)
    (hlen : (addr.take alen).length = alen) (type : Int) (blen : Nat) :
    llAddrN2a env addr alen type blen = env.llAddrN2a (addr.take alen) type blen := by
  unfold llAddrN2a NeighEnv.llAddrN2a
  rw [hlen]
  split
  -- four and sixteen bytes are printed as addresses, any others byte by byte
  · next h => exact inetNtop_take afInet h.1
  split
  · next h => exact inetNtop_take afInet6 h.1
  cases addr with
  | nil =>
    rw [List.take_nil, List.length_nil] at hlen
    omega
  | cons b rest =>
    obtain ⟨k, rfl⟩ : ∃ k, alen = k + 1 := ⟨alen - 1, by omega⟩
    have hb : UInt8.ofNat (LittleEndian.read 1 (b :: rest) 0) = b := by
      simp [LittleEndian.read, LittleEndian.toNat]
    rw [hb, List.take_succ_cons]
    rfl

/-- An address with the length of its family is printed from its own bytes. -/
theorem formatHostRta_eq {af : UInt8} {rta : Ptr}
    (hpayload : (payloadAt rta).length = rtaPayload rta)
    (hinet : af = afInet → (payloadAt rta).length = 4)
    (hinet6 : af = afInet6 → (payloadAt rta).length = 16)
    (hpacket : af = afPacket → payloadAt rta ≠ []) :
    formatHostRta env af rta = env.formatHost af (payloadAt rta) := by
  unfold formatHostRta rtAddrN2aR NeighEnv.formatHost NeighEnv.rtAddrN2aR
  split
  · next h =>
    -- IPv4 and IPv6: the attribute holds exactly the bytes that are read
    refine inetNtop_take af ?_
    rcases h with rfl | rfl
    · rw [← hpayload, hinet rfl, if_pos rfl]
    · rw [← hpayload, hinet6 rfl, if_neg (by decide)]
  split
  · next h =>
    -- packet addresses are printed by `ll_addr_n2a`
    have hpos : 0 < rtaPayload rta := hpayload ▸ List.length_pos_iff.mpr (hpacket h)
    exact llAddrN2a_take hpos hpayload _ _
  · rfl

/-! ## print_neigh -/

/-- The table that `print_neigh` has for a message. -/
def attributeTable (ndaMax : Nat) (n : Ptr) : Attributes :=
  parseRtattr ndaMax (ndaRta (nlmsgData n)) ((nlmsgLen n : Int) - nlmsgLength sizeofNdmsg)

/-- The table against the attributes of the decoded message. -/
theorem attributeTable_cases {type : UInt16} (htype : type.toNat ≤ ndaMax)
    (hmem : nlmsgLen n ≤ n.length) (hlen : nlmsgLength sizeofNdmsg ≤ nlmsgLen n) :
    (attributeTable ndaMax n type = none ∧
        Android.parseRtattr (decodeNeigh n).attributes type = none) ∨
      ∃ rta, attributeTable ndaMax n type = some rta ∧
        Android.parseRtattr (decodeNeigh n).attributes type = some (payloadAt rta) ∧
        (payloadAt rta).length = rtaPayload rta := by
  have hlookup : (attributeTable ndaMax n type).map payloadAt =
      Android.parseRtattr (decodeNeigh n).attributes type := map_payloadAt_parseRtattr htype
  -- the attributes lie within the message
  have hend : (nlmsgLen n : Int) - nlmsgLength sizeofNdmsg ≤ (ndaRta (nlmsgData n)).length := by
    rw [ndaRta, nlmsgData, List.drop_drop, List.length_drop,
      show nlmsgHdrlen + align sizeofNdmsg = nlmsgLength sizeofNdmsg from rfl]
    omega
  rw [← hlookup]
  cases htb : attributeTable ndaMax n type with
  | none => exact .inl ⟨rfl, rfl⟩
  | some rta =>
    have hrta := mem_pointers_of_parseRtattrFlags htb
    exact .inr ⟨rta, rfl, rfl, length_payloadAt hend hrta⟩

/-- The line printed from the bytes is the line of the decoded message. -/
theorem printLine_eq (hmax : 3 ≤ ndaMax) (hmem : nlmsgLen n ≤ n.length)
    (hlen : nlmsgLength sizeofNdmsg ≤ nlmsgLen n) (hwhole : WholeAddresses (decodeNeigh n)) :
    printLine env filter n (attributeTable ndaMax n) =
      Android.printLine env filter (decodeNeigh n) := by
  have hformat {dst : Ptr} (hattr : Android.parseRtattr (decodeNeigh n).attributes ndaDst =
      some (payloadAt dst)) (hpayload : (payloadAt dst).length = rtaPayload dst) :
      formatHostRta env (ndmFamily (nlmsgData n)) dst =
        env.formatHost (ndmFamily (nlmsgData n)) (payloadAt dst) :=
    formatHostRta_eq hpayload (fun h => hwhole.inet h _ hattr) (fun h => hwhole.inet6 h _ hattr)
      (fun h => hwhole.packet h _ hattr)
  have haddr {lladdr : Ptr} (hattr : Android.parseRtattr (decodeNeigh n).attributes ndaLladdr =
      some (payloadAt lladdr)) (hpayload : (payloadAt lladdr).length = rtaPayload lladdr)
      (type : Int) : llAddrN2a env (rtaData lladdr) (rtaPayload lladdr) type sprintBsize =
        env.llAddrN2a (payloadAt lladdr) type sprintBsize :=
    llAddrN2a_take (hpayload ▸ List.length_pos_iff.mpr (hwhole.lladdr _ hattr)) hpayload _ _
  have hdst : ndaDst.toNat ≤ ndaMax := Nat.le_trans (by decide) hmax
  have hlladdr : ndaLladdr.toNat ≤ ndaMax := Nat.le_trans (by decide) hmax
  unfold printLine Android.printLine
  -- each of the two addresses is there on both sides, or on neither
  rcases attributeTable_cases hdst hmem hlen with ⟨htb, hattr⟩ | ⟨dst, htb, hattr, hpayload⟩ <;>
    rcases attributeTable_cases hlladdr hmem hlen with
      ⟨htb', hattr'⟩ | ⟨lladdr, htb', hattr', hpayload'⟩
  · rw [htb, hattr, htb', hattr']; rfl
  · simp only [htb, hattr, htb', hattr', haddr hattr' hpayload']; rfl
  · simp only [htb, hattr, htb', hattr', hformat hattr hpayload]; rfl
  · simp only [htb, hattr, htb', hattr', hformat hattr hpayload, haddr hattr' hpayload']; rfl

/-- The test of the prefix, on the bytes and on the decoded message. -/
theorem pfxMismatch_eq (hmax : 3 ≤ ndaMax) (hmem : nlmsgLen n ≤ n.length)
    (hlen : nlmsgLength sizeofNdmsg ≤ nlmsgLen n) :
    pfxMismatch filter (attributeTable ndaMax n) =
      Android.pfxMismatch filter (decodeNeigh n) := by
  have hdst : ndaDst.toNat ≤ ndaMax := Nat.le_trans (by decide) hmax
  rcases attributeTable_cases hdst hmem hlen with ⟨htb, hattr⟩ | ⟨dst, htb, hattr, -⟩
  · simp only [pfxMismatch, Android.pfxMismatch, htb, hattr]
  · simp only [pfxMismatch, Android.pfxMismatch, htb, hattr]
    rfl

/-- The test of the use count, on the bytes and on the decoded message. -/
theorem inUse_eq (hmax : 3 ≤ ndaMax) (hmem : nlmsgLen n ≤ n.length)
    (hlen : nlmsgLength sizeofNdmsg ≤ nlmsgLen n) (hwhole : WholeAddresses (decodeNeigh n)) :
    inUse filter (attributeTable ndaMax n) = Android.inUse filter (decodeNeigh n) := by
  have hci : ndaCacheinfo.toNat ≤ ndaMax := Nat.le_trans (by decide) hmax
  rcases attributeTable_cases hci hmem hlen with ⟨htb, hattr⟩ | ⟨ci, htb, hattr, hpayload⟩
  · simp only [inUse, Android.inUse, htb, hattr]
  · -- the four bytes of the reference count are inside of the payload
    have hsize : 12 + 4 ≤ rtaPayload ci := hpayload ▸ hwhole.cacheinfo _ hattr
    have hrefcnt : LittleEndian.read 4 (rtaData ci) 12 =
        LittleEndian.toNat (((payloadAt ci).drop 12).take 4) :=
      (LittleEndian.read_take hsize _).symm
    simp only [inUse, Android.inUse, htb, hattr, hrefcnt, ne_eq, LittleEndian.toNat_eq_zero_iff]
    congr 1
    rw [decide_not, Bool.eq_iff_iff]
    simp

/-- The types that `print_neigh` refuses. -/
theorem not_isNeigh_iff (type : UInt16) : ¬ isNeigh type ↔
    type ≠ rtmNewneigh ∧ type ≠ rtmDelneigh ∧ type ≠ rtmGetneigh := by
  rw [isNeigh, not_or, not_or]

/-- `print_neigh` prints neighbours only. -/
theorem printNeigh_of_not_isNeigh (h : ¬ isNeigh (nlmsgType n)) :
    printNeigh env ndaMax filter n = some [] :=
  if_pos ((not_isNeigh_iff _).mp h)

/-- Of another type nothing is printed. -/
theorem printNeigh_decodeNeigh_of_not_isNeigh (h : ¬ isNeigh (nlmsgType n)) :
    Android.printNeigh env filter (decodeNeigh n) = [] :=
  if_pos ((not_isNeigh_iff _).mp h)

/-- A neighbour without its `ndmsg` is not printed. -/
theorem printNeigh_of_short (h : isNeigh (nlmsgType n))
    (hlen : nlmsgLen n < nlmsgLength sizeofNdmsg) : printNeigh env ndaMax filter n = none := by
  unfold printNeigh
  rw [if_neg fun htypes => (not_isNeigh_iff _).mpr htypes h]
  exact if_pos (by omega)

/-- A neighbour is printed as its message is. -/
theorem printNeigh_of_isNeigh (hmax : 3 ≤ ndaMax) (h : isNeigh (nlmsgType n))
    (hmem : nlmsgLen n ≤ n.length) (hlen : nlmsgLength sizeofNdmsg ≤ nlmsgLen n)
    (hwhole : ¬ stateMismatch filter (decodeNeigh n) → WholeAddresses (decodeNeigh n)) :
    printNeigh env ndaMax filter n = some (Android.printNeigh env filter (decodeNeigh n)) := by
  have hshort : ¬ (nlmsgLen n : Int) - nlmsgLength sizeofNdmsg < 0 := by omega
  unfold printNeigh Android.printNeigh
  rw [if_neg fun htypes => (not_isNeigh_iff _).mpr htypes h, if_neg hshort,
    if_neg fun htypes => (not_isNeigh_iff (decodeNeigh n).nlmsgType).mpr htypes h]
  -- the checks before the attributes are the same ones
  rw [apply_ite some, apply_ite some, apply_ite some]
  refine ite_congr rfl (fun _ => rfl) fun _ => ite_congr rfl (fun _ => rfl) fun _ =>
    ite_congr rfl (fun _ => rfl) fun hstate => ?_
  have hline : printLine env filter n (attributeTable ndaMax n) = _ :=
    printLine_eq hmax hmem hlen (hwhole hstate)
  have hpfx : pfxMismatch filter (attributeTable ndaMax n) = _ := pfxMismatch_eq hmax hmem hlen
  have huse : inUse filter (attributeTable ndaMax n) = _ := inUse_eq hmax hmem hlen (hwhole hstate)
  rw [attributeTable] at hline hpfx huse
  simp only [hline, hpfx, huse]
  rfl

end LanScan.Android.Netlink
