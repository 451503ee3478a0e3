import LanScan.Spec.Android.NetlinkDump
import LanScan.Spec.Android.ArpEntry
import LanScan.Spec.Android.PipeCapacity

/-!
# Neighbour tables in netlink messages

How the kernel puts a neighbour table into the datagrams of a dump, and that what it puts
there comes out as hosts at the other end of the pipe.

Key results:
- `decodeNeigh_encodeNeigh`: a message is decoded to what was encoded
- `reply_decode`: the datagrams of a dump are a reply with the whole table
- `hosts_of_answers`: from the bytes of the kernel to the hosts
-/

namespace LanScan.Android.Netlink

open LittleEndian NativeIPNeigh

variable {n : NeighMsg} {nlmsgSeq nlmsgPid : UInt32} {ndmType : UInt8}

/-! ## Encoding -/

/-- The bytes of `struct nlmsghdr`. -/
def encodeHeader (len : Nat) (type flags : UInt16) (seq pid : UInt32) : List UInt8 :=
  bytes 4 len ++ (bytes 2 type.toNat ++ (bytes 2 flags.toNat ++
    (bytes 4 seq.toNat ++ bytes 4 pid.toNat)))

/-- The bytes of `struct ndmsg`. -/
def encodeNdmsg (n : NeighMsg) (ndmType : UInt8) : List UInt8 :=
  n.ndmFamily :: 0 :: 0 :: 0 :: (bytes 4 n.ndmIfindex.toUInt32.toNat ++
    (bytes 2 n.ndmState.toNat ++ [n.ndmFlags, ndmType]))

/-- The bytes of a neighbour message. -/
def encodeNeigh (seq pid : UInt32) (ndmType : UInt8) (n : NeighMsg) : List UInt8 :=
  encodeHeader (nlmsgLength sizeofNdmsg + (encodeAttributes n.attributes).length) n.nlmsgType
      n.nlmsgFlags seq pid ++
    (encodeNdmsg n ndmType ++ encodeAttributes n.attributes)

/-- The bytes of `NLMSG_DONE`. -/
def encodeDone (seq pid : UInt32) (flags : UInt16) (len : Int32) : List UInt8 :=
  encodeHeader (nlmsgLength 4) nlmsgDone flags seq pid ++ bytes 4 len.toUInt32.toNat

/-- The lengths of a message and of its attributes fit into their fields. -/
structure Fits (n : NeighMsg) : Prop where
  rtaLen : ∀ a ∈ n.attributes, rtaLength a.2.length < 65536
  nlmsgLen : nlmsgLength sizeofNdmsg + (encodeAttributes n.attributes).length < 4294967296

/-! ## Headers -/

/-- A header has sixteen bytes. -/
theorem length_encodeHeader (len : Nat) (type flags : UInt16) (seq pid : UInt32) :
    (encodeHeader len type flags seq pid).length = nlmsgHdrlen := by
  simp [encodeHeader, nlmsgHdrlen]

section Header

variable {len : Nat} (type flags : UInt16) (seq pid : UInt32) (back : List UInt8)

/-- A message has the length that its header was written with. -/
theorem nlmsgLen_encodeHeader (h : len < 4294967296) :
    nlmsgLen (encodeHeader len type flags seq pid ++ back) = len := by
  rw [nlmsgLen, encodeHeader, List.append_assoc]
  exact read_bytes_append h _

/-- A message has the type that its header was written with. -/
theorem nlmsgType_encodeHeader :
    nlmsgType (encodeHeader len type flags seq pid ++ back) = type := by
  have h : LittleEndian.read 2 (encodeHeader len type flags seq pid ++ back) (4 + 0) =
      type.toNat := by
    simp only [encodeHeader, List.append_assoc, read_bytes_append_add]
    exact read_bytes_append type.toNat_lt _
  rw [nlmsgType, u16, h, UInt16.ofNat_toNat]

/-- A message has the flags that its header was written with. -/
theorem nlmsgFlags_encodeHeader :
    nlmsgFlags (encodeHeader len type flags seq pid ++ back) = flags := by
  have h : LittleEndian.read 2 (encodeHeader len type flags seq pid ++ back) (4 + (2 + 0)) =
      flags.toNat := by
    simp only [encodeHeader, List.append_assoc, read_bytes_append_add]
    exact read_bytes_append flags.toNat_lt _
  rw [nlmsgFlags, u16, h, UInt16.ofNat_toNat]

/-- A message has the sequence number that its header was written with. -/
theorem nlmsgSeq_encodeHeader :
    Netlink.nlmsgSeq (encodeHeader len type flags seq pid ++ back) = seq := by
  have h : LittleEndian.read 4 (encodeHeader len type flags seq pid ++ back) (4 + (2 + (2 + 0))) =
      seq.toNat := by
    simp only [encodeHeader, List.append_assoc, read_bytes_append_add]
    exact read_bytes_append seq.toNat_lt _
  rw [Netlink.nlmsgSeq, u32, h, UInt32.ofNat_toNat]

/-- The payload stands behind the header. -/
theorem nlmsgData_encodeHeader :
    nlmsgData (encodeHeader len type flags seq pid ++ back) = back := by
  rw [nlmsgData, ← length_encodeHeader len type flags seq pid, List.drop_left]

end Header

/-! ## Messages -/

section Ndmsg

variable (n : NeighMsg) (ndmType : UInt8) (back : List UInt8)

/-- An `ndmsg` has twelve bytes. -/
theorem length_encodeNdmsg : (encodeNdmsg n ndmType).length = sizeofNdmsg := by
  simp [encodeNdmsg, sizeofNdmsg]

/-- The family is read back. -/
theorem ndmFamily_encodeNdmsg : ndmFamily (encodeNdmsg n ndmType ++ back) = n.ndmFamily := by
  have h : LittleEndian.read 1 (encodeNdmsg n ndmType ++ back) 0 = n.ndmFamily.toNat :=
    read_cons_zero _ _
  rw [ndmFamily, h, UInt8.ofNat_toNat]

/-- The interface is read back. -/
theorem ndmIfindex_encodeNdmsg : ndmIfindex (encodeNdmsg n ndmType ++ back) = n.ndmIfindex := by
  have h : LittleEndian.read 4 (encodeNdmsg n ndmType ++ back) (1 + (1 + (1 + (1 + 0)))) =
      n.ndmIfindex.toUInt32.toNat := by
    simp only [encodeNdmsg, List.cons_append, List.append_assoc, read_cons_add]
    exact read_bytes_append n.ndmIfindex.toUInt32.toNat_lt _
  rw [ndmIfindex, u32, h, UInt32.ofNat_toNat, Int32.toInt32_toUInt32]

/-- The state is read back. -/
theorem ndmState_encodeNdmsg : ndmState (encodeNdmsg n ndmType ++ back) = n.ndmState := by
  have h : LittleEndian.read 2 (encodeNdmsg n ndmType ++ back)
      (1 + (1 + (1 + (1 + (4 + 0))))) = n.ndmState.toNat := by
    simp only [encodeNdmsg, List.cons_append, List.append_assoc, read_cons_add,
      read_bytes_append_add]
    exact read_bytes_append n.ndmState.toNat_lt _
  rw [ndmState, u16, h, UInt16.ofNat_toNat]

/-- The flags are read back. -/
theorem ndmFlags_encodeNdmsg : ndmFlags (encodeNdmsg n ndmType ++ back) = n.ndmFlags := by
  have h : LittleEndian.read 1 (encodeNdmsg n ndmType ++ back)
      (1 + (1 + (1 + (1 + (4 + (2 + 0)))))) = n.ndmFlags.toNat := by
    simp only [encodeNdmsg, List.cons_append, List.append_assoc, read_cons_add,
      read_bytes_append_add]
    exact read_cons_zero _ _
  rw [ndmFlags, h, UInt8.ofNat_toNat]

/-- The attributes stand behind the `ndmsg`. -/
theorem ndaRta_encodeNdmsg : ndaRta (encodeNdmsg n ndmType ++ back) = back :=
  List.drop_left' (length_encodeNdmsg n ndmType)

end Ndmsg

/-- The header of a neighbour counts its `ndmsg` and all of its attributes. -/
theorem nlmsgLen_encodeNeigh (h : Fits n) (seq pid : UInt32) (ndmType : UInt8) :
    nlmsgLen (encodeNeigh seq pid ndmType n) =
      nlmsgLength sizeofNdmsg + (encodeAttributes n.attributes).length :=
  nlmsgLen_encodeHeader _ _ _ _ _ h.nlmsgLen

/-- A neighbour that fits its length fields is a whole message. -/
theorem wellFormed_encodeNeigh (h : Fits n) (seq pid : UInt32) (ndmType : UInt8) :
    nlmsg.WellFormed (encodeNeigh seq pid ndmType n) := by
  have hlength : (encodeNeigh seq pid ndmType n).length =
      nlmsgLength sizeofNdmsg + (encodeAttributes n.attributes).length := by
    rw [encodeNeigh, List.length_append, List.length_append, length_encodeHeader,
      length_encodeNdmsg, nlmsgLength]
    omega
  refine ⟨?_, (nlmsgLen_encodeNeigh h seq pid ndmType).trans hlength.symm⟩
  rw [hlength]
  exact Nat.le_trans (by decide : nlmsgHdrlen ≤ nlmsgLength sizeofNdmsg) (Nat.le_add_right _ _)

/-- A message is decoded to what was encoded. -/
theorem decodeNeigh_encodeNeigh (h : Fits n) (seq pid : UInt32) (ndmType : UInt8) :
    decodeNeigh (encodeNeigh seq pid ndmType n) = n := by
  have hlength : ((nlmsgLength sizeofNdmsg + (encodeAttributes n.attributes).length : Nat) : Int) -
      nlmsgLength sizeofNdmsg = (encodeAttributes n.attributes).length := by omega
  rw [decodeNeigh, nlmsgLen_encodeNeigh h, hlength]
  simp only [encodeNeigh, nlmsgType_encodeHeader, nlmsgFlags_encodeHeader, nlmsgData_encodeHeader,
    ndmFamily_encodeNdmsg, ndmIfindex_encodeNdmsg, ndmState_encodeNdmsg, ndmFlags_encodeNdmsg,
    ndaRta_encodeNdmsg, attributesOf_encodeAttributes h.rtaLen]

/-- So is a message of a dump with a neighbour in it. -/
theorem decodeMsg_encodeNeigh (h : Fits n) (htype : n.nlmsgType = rtmNewneigh) (seq pid : UInt32)
    (ndmType : UInt8) : decodeMsg (encodeNeigh seq pid ndmType n) = ⟨seq, .neigh n⟩ := by
  have hseq : Netlink.nlmsgSeq (encodeNeigh seq pid ndmType n) = seq := nlmsgSeq_encodeHeader ..
  have htype' : nlmsgType (encodeNeigh seq pid ndmType n) = rtmNewneigh :=
    (nlmsgType_encodeHeader ..).trans htype
  have hlong : ¬ nlmsgLen (encodeNeigh seq pid ndmType n) < nlmsgLength sizeofNdmsg := by
    rw [nlmsgLen_encodeNeigh h]
    omega
  rw [decodeMsg, hseq, decodeBody, htype', if_neg (by decide), if_neg (by decide),
    if_neg fun hshort => hlong hshort.2, decodeNeigh_encodeNeigh h]

/-- A `DONE` is a whole message. -/
theorem wellFormed_encodeDone (seq pid : UInt32) (flags : UInt16) (len : Int32) :
    nlmsg.WellFormed (encodeDone seq pid flags len) := by
  have hlength : (encodeDone seq pid flags len).length = nlmsgLength 4 := by
    rw [encodeDone, List.length_append, length_encodeHeader, length_bytes]
    rfl
  refine ⟨by rw [hlength]; decide, ?_⟩
  rw [hlength]
  exact nlmsgLen_encodeHeader _ _ _ _ _ (by decide)

/-- A `DONE` is decoded with the error that it reports. -/
theorem decodeMsg_encodeDone (seq pid : UInt32) (flags : UInt16) (len : Int32) :
    decodeMsg (encodeDone seq pid flags len) = ⟨seq, .done (some len)⟩ := by
  have hseq : Netlink.nlmsgSeq (encodeDone seq pid flags len) = seq := nlmsgSeq_encodeHeader ..
  have htype : nlmsgType (encodeDone seq pid flags len) = nlmsgDone := nlmsgType_encodeHeader ..
  have hlen : nlmsgLen (encodeDone seq pid flags len) = nlmsgLength 4 :=
    nlmsgLen_encodeHeader _ _ _ _ _ (by decide)
  have hdata : nlmsgData (encodeDone seq pid flags len) = bytes 4 len.toUInt32.toNat :=
    nlmsgData_encodeHeader ..
  -- the four bytes of the length field are read back as the `int` they were written from
  have hfield : LittleEndian.read 4 (bytes 4 len.toUInt32.toNat) 0 = len.toUInt32.toNat := by
    rw [← List.append_nil (bytes 4 len.toUInt32.toNat)]
    exact read_bytes_append len.toUInt32.toNat_lt _
  rw [decodeMsg, hseq, decodeBody, htype, if_pos rfl, hlen, if_neg (by omega), hdata, u32, hfield,
    UInt32.ofNat_toNat, Int32.toInt32_toUInt32]

/-! ## Datagrams -/

/-- The bytes of some neighbours in one datagram. -/
def encodePart (seq pid : UInt32) (ndmType : NeighMsg → UInt8) (part : List NeighMsg) :
    List UInt8 :=
  part.flatMap fun n => nlmsg.pad 0 (encodeNeigh seq pid (ndmType n) n)

/-- What the kernel answers to the dump request `seq`: the neighbours of a table in one or more
    datagrams, of which the last one ends in `DONE`. -/
inductive KernelReply (seq : UInt32) : List RecvMsg → List NeighMsg → Prop
  | interrupted {rest table} (h : KernelReply seq rest table) :
      KernelReply seq (.interrupted :: rest) table
  | part {part rest table} (pid : UInt32) (ndmType : NeighMsg → UInt8) (hpart : part ≠ [])
      (h : KernelReply seq rest table) :
      KernelReply seq (.received 0 (encodePart seq pid ndmType part) false :: rest) (part ++ table)
  | last {part} (pid : UInt32) (ndmType : NeighMsg → UInt8) (flags : UInt16) (len : Int32)
      (hlen : 0 ≤ len) :
      KernelReply seq [.received 0 (encodePart seq pid ndmType part ++
        nlmsg.pad 0 (encodeDone seq pid flags len)) false] part

instance (n : NeighMsg) : Decidable (Fits n) :=
  decidable_of_iff ((∀ a ∈ n.attributes, rtaLength a.2.length < 65536) ∧
      nlmsgLength sizeofNdmsg + (encodeAttributes n.attributes).length < 4294967296)
    ⟨fun h => ⟨h.1, h.2⟩, fun h => ⟨h.1, h.2⟩⟩

/-- A neighbour that the kernel can send: its lengths fit, and if it is printed, its addresses
    are whole. -/
structure Sendable (n : NeighMsg) : Prop where
  fits : Fits n
  nlmsgType_eq : n.nlmsgType = rtmNewneigh
  whole : ¬ stateMismatch showFilter n → WholeAddresses n

section Datagram

variable (seq pid : UInt32) (ndmType : NeighMsg → UInt8) {part : List NeighMsg}

/-- The messages of a part stand one behind the other in its bytes. -/
theorem layout_encodePart (h : ∀ n ∈ part, Sendable n) :
    nlmsg.Layout (part.map fun n => encodeNeigh seq pid (ndmType n) n)
      (encodePart seq pid ndmType part) :=
  nlmsg.layout_flatMap_pad 0 fun n hn => wellFormed_encodeNeigh (h n hn).fits seq pid (ndmType n)

/-- So do those of a part with a `DONE` behind it. -/
theorem layout_encodePart_append_encodeDone (h : ∀ n ∈ part, Sendable n) (flags : UInt16)
    (len : Int32) :
    nlmsg.Layout ((part.map fun n => encodeNeigh seq pid (ndmType n) n) ++
        [encodeDone seq pid flags len])
      (encodePart seq pid ndmType part ++ nlmsg.pad 0 (encodeDone seq pid flags len)) := by
  have hdone : ∀ u ∈ [()], nlmsg.WellFormed (encodeDone seq pid flags len) := fun _ _ =>
    wellFormed_encodeDone seq pid flags len
  refine (layout_encodePart seq pid ndmType h).append ?_
  simpa using nlmsg.layout_flatMap_pad 0 hdone

/-- A datagram that holds some records is decoded to their messages. -/
theorem decode_of_layout {records : List (List UInt8)} {bytes : List UInt8}
    (h : nlmsg.Layout records bytes) (hne : records ≠ []) :
    decode (.received 0 bytes false) = .datagram {
      nlPid := 0, messages := records.map decodeMsg, remnant := false, truncated := false } := by
  obtain ⟨hrecords, hremnant⟩ := nlmsg.records_of_layout h
  have hlength : ¬ bytes.length = 0 := by
    intro hzero
    rw [List.length_eq_zero_iff] at hzero
    subst hzero
    exact hne (hrecords.symm.trans (nlmsg.records_of_not_ok (nlmsg.not_ok_of_nonpos (by simp))))
  rw [decode, if_neg hlength, hrecords, hremnant]
  rfl

/-- The messages of a part are decoded to its entries. -/
theorem map_decodeMsg_encodePart (h : ∀ n ∈ part, Sendable n) :
    (part.map fun n => encodeNeigh seq pid (ndmType n) n).map decodeMsg =
      part.map fun n => ⟨seq, .neigh n⟩ := by
  rw [List.map_map]
  exact List.map_congr_left fun n hn =>
    decodeMsg_encodeNeigh (h n hn).fits (h n hn).nlmsgType_eq seq pid (ndmType n)

/-- All messages of the dump are accepted. -/
theorem accepted_neigh (seq : UInt32) (part : List NeighMsg) (after : List NlMsg) :
    accepted seq 0 (part.map (fun n => ⟨seq, .neigh n⟩) ++ after) =
      part.map .neigh ++ accepted seq 0 after := by
  simp [accepted, List.filterMap_map]

end Datagram

/-- The datagrams of a dump are a reply with the whole table. -/
theorem reply_decode {seq : UInt32} {received : List RecvMsg} {table : List NeighMsg}
    (h : KernelReply seq received table) (hsend : ∀ n ∈ table, Sendable n) :
    Reply seq (received.map decode) table := by
  induction h with
  | interrupted h ih => exact .interrupted (ih hsend)
  | @part part rest table pid ndmType hpart h ih =>
    have hpart' : ∀ n ∈ part, Sendable n := fun n hn => hsend n (List.mem_append_left _ hn)
    have hrest := ih fun n hn => hsend n (List.mem_append_right _ hn)
    -- a datagram of entries: all of its messages answer the request
    have hlayout := layout_encodePart seq pid ndmType hpart'
    rw [List.map_cons, decode_of_layout hlayout (by simpa using hpart),
      map_decodeMsg_encodePart seq pid ndmType hpart']
    refine .part ?_ (.inr rfl) hrest
    have hd := accepted_neigh seq part []
    rwa [List.append_nil, show accepted seq 0 [] = [] from rfl, List.append_nil] at hd
  | @last part pid ndmType flags len hlen =>
    -- the last datagram: entries, and the `DONE` behind them
    have hlayout := layout_encodePart_append_encodeDone seq pid ndmType hsend flags len
    rw [List.map_cons, decode_of_layout hlayout (by simp), List.map_append,
      map_decodeMsg_encodePart seq pid ndmType hsend, List.map_singleton, decodeMsg_encodeDone]
    have hd := accepted_neigh seq part [⟨seq, .done (some len)⟩]
    have hdone : accepted seq 0 [⟨seq, .done (some len)⟩] = [.done (some len)] := by
      simp [accepted]
    rw [hdone] at hd
    exact .last hd hlen

/-- The addresses in the datagrams of a dump are whole. -/
theorem hasWholeAddresses_of_kernelReply {seq : UInt32} {received : List RecvMsg}
    {table : List NeighMsg} (h : KernelReply seq received table)
    (hsend : ∀ n ∈ table, Sendable n) : ∀ r ∈ received, HasWholeAddresses r := by
  have hneigh (part : List NeighMsg) (pid : UInt32) (ndmType : NeighMsg → UInt8)
      (hpart : ∀ n ∈ part, Sendable n) :
      ∀ m ∈ part.map fun n => encodeNeigh seq pid (ndmType n) n, RecordHasWholeAddresses m := by
    intro m hm htype
    obtain ⟨n, hn, rfl⟩ := List.mem_map.mp hm
    rw [decodeNeigh_encodeNeigh (hpart n hn).fits]
    exact (hpart n hn).whole
  induction h with
  | interrupted h ih =>
    intro r hr
    rcases List.mem_cons.mp hr with rfl | hr
    · trivial
    · exact ih hsend r hr
  | @part part rest table pid ndmType hpart h ih =>
    have hpart' : ∀ n ∈ part, Sendable n := fun n hn => hsend n (List.mem_append_left _ hn)
    intro r hr
    rcases List.mem_cons.mp hr with rfl | hr
    · intro m hm
      rw [(nlmsg.records_of_layout (layout_encodePart seq pid ndmType hpart')).1] at hm
      exact hneigh part pid ndmType hpart' m hm
    · exact ih (fun n hn => hsend n (List.mem_append_right _ hn)) r hr
  | @last part pid ndmType flags len hlen =>
    intro r hr
    obtain rfl := List.mem_singleton.mp hr
    have hlayout := layout_encodePart_append_encodeDone seq pid ndmType hsend flags len
    intro m hm
    rw [(nlmsg.records_of_layout hlayout).1] at hm
    rcases List.mem_append.mp hm with hm | hm
    · exact hneigh part pid ndmType hsend m hm
    · -- `DONE` is not printed
      obtain rfl := List.mem_singleton.mp hm
      intro htype
      rw [show nlmsgType (encodeDone seq pid flags len) = nlmsgDone from
        nlmsgType_encodeHeader ..] at htype
      exact absurd htype (by decide)

/-! ## From the kernel to the hosts -/

/-- The steps of `nativeIPNeigh` all succeed, and the kernel answers with a table. -/
structure Machine.Answers (m : Machine) (table : List NeighMsg) : Prop where
  fdopen : m.kernel.fdopen = true
  opens : m.kernel.Opens
  sendmsg : 0 ≤ m.kernel.sendmsg
  reply : KernelReply (m.kernel.time + 1) m.recvmsg table

/-- A kernel that answers with the bytes of a table delivers the table. -/
theorem delivers_decode {m : Machine} {table : List NeighMsg} (h : m.Answers table)
    (hsend : ∀ n ∈ table, Sendable n) : m.decode.Delivers table where
  fdopen := h.fdopen
  opens := ⟨h.opens.socket, h.opens.setSndbuf, h.opens.setRcvbuf, h.opens.getsockname,
    h.opens.addrLen, h.opens.nlFamily⟩
  sendmsg := h.sendmsg
  reply := reply_decode h.reply hsend

/-- The addresses of an entry that is printed have the lengths of their families. -/
theorem wholeAddresses_msg {env : NeighEnv} (e : NeighEntry env)
    (hci : ∀ ci ∈ Android.parseRtattr e.msg.attributes ndaCacheinfo, 16 ≤ ci.length)
    (hstate : ¬ stateMismatch showFilter e.msg) : WholeAddresses e.msg where
  inet hfamily dst hdst := by
    obtain rfl : e.dst = dst := Option.some.inj (e.dst_eq.symm.trans hdst)
    rcases e.family_eq with ⟨-, hlen⟩ | ⟨h6, -⟩
    · exact hlen
    · exact absurd (hfamily.symm.trans h6) (by decide)
  inet6 hfamily dst hdst := by
    obtain rfl : e.dst = dst := Option.some.inj (e.dst_eq.symm.trans hdst)
    rcases e.family_eq with ⟨h4, -⟩ | ⟨-, hlen⟩
    · exact absurd (hfamily.symm.trans h4) (by decide)
    · exact hlen
  packet hfamily dst hdst := by
    rcases e.family_eq with ⟨h4, -⟩ | ⟨h6, -⟩
    · exact absurd (hfamily.symm.trans h4) (by decide)
    · exact absurd (hfamily.symm.trans h6) (by decide)
  lladdr := by
    -- without a link-layer address an entry is in no state but NOARP, and the filter stops it
    refine e.lladdr_ne_nil fun hnoarp => hstate ?_
    have hndmState := e.state_eq
    have hfamily : e.msg.ndmFamily ≠ afDecnet := by
      rcases e.family_eq with ⟨h4, -⟩ | ⟨h6, -⟩
      · rw [h4]; decide
      · rw [h6]; decide
    rw [hnoarp] at hndmState
    refine ⟨?_, e.not_proxy, .inl ?_, hfamily⟩ <;> rw [hndmState] <;> decide
  cacheinfo := hci

section Program

open ArpPipe (Setting Config program init)

variable {env : NeighEnv} {m : Machine} {capacity : Nat} {rth : RtnlHandle}
  {getByName : List Char → Option InetAddress} {malformed : List UInt8 → List Char}

/-- The program on bytes is the program on the messages that they decode to. -/
theorem ofBytes_eq_setting (hmax : 3 ≤ m.ndaMax) (hwhole : m.HasWholeAddresses) :
    Setting.ofBytes capacity env m rth getByName malformed =
      (Config.mk capacity env m.decode rth getByName malformed).setting := by
  rw [Setting.ofBytes, call, nativeIPNeigh_eq hmax hwhole]
  rfl

/-- What the kernel sends for a table can be sent, and is decoded to the table. -/
theorem delivers_of_answers {entries : List (NeighEntry env)}
    (hanswers : m.Answers (entries.map NeighEntry.msg)) (hfits : ∀ e ∈ entries, Fits e.msg)
    (hci : ∀ e ∈ entries, ∀ ci ∈ Android.parseRtattr e.msg.attributes ndaCacheinfo,
      16 ≤ ci.length) :
    m.HasWholeAddresses ∧ m.decode.Delivers (entries.map NeighEntry.msg) := by
  have hsend : ∀ n ∈ entries.map NeighEntry.msg, Sendable n := by
    intro n hn
    obtain ⟨e, he, rfl⟩ := List.mem_map.mp hn
    exact ⟨hfits e he, e.nlmsgType_eq, wholeAddresses_msg e (hci e he)⟩
  exact ⟨hasWholeAddresses_of_kernelReply hanswers.reply hsend, delivers_decode hanswers hsend⟩

/-- With room for the table, a program that can go no further has returned its hosts. -/
theorem returned_of_answers {entries : List (NeighEntry env)} (hmax : 3 ≤ m.ndaMax)
    (hanswers : m.Answers (entries.map NeighEntry.msg)) (hfits : ∀ e ∈ entries, Fits e.msg)
    (hci : ∀ e ∈ entries, ∀ ci ∈ Android.parseRtattr e.msg.attributes ndaCacheinfo,
      16 ≤ ci.length)
    (hnum : ∀ e ∈ entries, e.IsNumeric getByName) {ls : List Unit} {s : ArpPipe.State}
    (hrun : (program (.ofBytes capacity env m rth getByName malformed)).run
      (init (.ofBytes capacity env m rth getByName malformed)) ls = some s)
    (hterm : (program (.ofBytes capacity env m rth getByName malformed)).Terminal s)
    (hroom : (Android.doShowOrFlush env (entries.map NeighEntry.msg)).utf8Bytes.length ≤
      capacity) :
    s = { pc := .returned (entries.filterMap NeighEntry.host), pipe := [],
          descriptors := { pipe := false, sockets := 0 } } := by
  obtain ⟨hwhole, hdelivers⟩ := delivers_of_answers hanswers hfits hci
  -- on these bytes the code does what it does on the decoded table
  rw [ofBytes_eq_setting hmax hwhole] at hrun hterm
  rw [ArpPipe.returned_of_delivers hdelivers hrun hterm hroom,
    ← NeighEntry.parse_table entries hnum]

/-- **From the kernel to the hosts.** Whatever table the kernel sends, in whatever datagrams, in
    bytes behind a netlink header: every run of the program that reads the ARP table leads on to
    one that can go no further.  If there is room in the pipe for the lines of the table, it has
    then returned the hosts of the listed entries, in order, with everything closed and nothing
    left in the pipe.  Without that room it hangs in a write of the native call. -/
theorem hosts_of_answers (entries : List (NeighEntry env)) (hmax : 3 ≤ m.ndaMax)
    (hanswers : m.Answers (entries.map NeighEntry.msg)) (hfits : ∀ e ∈ entries, Fits e.msg)
    (hci : ∀ e ∈ entries, ∀ ci ∈ Android.parseRtattr e.msg.attributes ndaCacheinfo,
      16 ≤ ci.length)
    (hnum : ∀ e ∈ entries, e.IsNumeric getByName) {ls : List Unit} {s : ArpPipe.State}
    (hrun : (program (.ofBytes capacity env m rth getByName malformed)).run
      (init (.ofBytes capacity env m rth getByName malformed)) ls = some s) :
    (∃ ks t, (program (.ofBytes capacity env m rth getByName malformed)).run s ks = some t ∧
      (program (.ofBytes capacity env m rth getByName malformed)).Terminal t) ∧
    ((program (.ofBytes capacity env m rth getByName malformed)).Terminal s →
      ((Android.doShowOrFlush env (entries.map NeighEntry.msg)).utf8Bytes.length ≤ capacity →
        s = { pc := .returned (entries.filterMap NeighEntry.host), pipe := [],
              descriptors := { pipe := false, sockets := 0 } }) ∧
      (capacity < (Android.doShowOrFlush env (entries.map NeighEntry.msg)).utf8Bytes.length →
        ∃ b bytes calls, s.pc = .native (.write (b :: bytes) :: calls))) := by
  refine ⟨ArpPipe.exists_terminal _ s, fun hterm =>
    ⟨returned_of_answers hmax hanswers hfits hci hnum hrun hterm, fun hfull => ?_⟩⟩
  -- the writer waits for room that nobody makes
  obtain ⟨hwhole, hdelivers⟩ := delivers_of_answers hanswers hfits hci
  rw [ofBytes_eq_setting hmax hwhole] at hrun hterm
  exact ArpPipe.exists_write_of_delivers hdelivers hrun hterm hfull

end Program

/-- A kernel that sends the table of a wireless network in two datagrams. -/
def wlanMachine : Machine where
  kernel := ArpPipe.tableKernel []
  recvmsg :=
    let table := wlanTable.map fun e => e.msg
    [.received 0 (encodePart 1 0 (fun _ => 1) (table.take 4)) false, .interrupted,
      .received 0 (encodePart 1 0 (fun _ => 1) (table.drop 4) ++
        nlmsg.pad 0 (encodeDone 1 0 2 0)) false]
  stack := [0xAA, 0xBB]
  ndaMax := 14

/-- The two datagrams hold the table. -/
theorem answers_wlanMachine :
    wlanMachine.Answers ((wlanTable.map Neighbour.toNeighEntry).map NeighEntry.msg) where
  fdopen := rfl
  opens := (ArpPipe.delivers_tableKernel []).opens
  sendmsg := (ArpPipe.delivers_tableKernel []).sendmsg
  reply := .part 0 (fun _ => 1) (by decide) (.interrupted (.last 0 (fun _ => 1) 2 0 (by decide)))

/-- Numeric text is read back by the entry that it was printed for. -/
def wlanNames (text : List Char) : Option InetAddress :=
  (wlanTable.map fun e => e.address).find? (·.hostAddress.toList = text)

/-- The names of the table are numeric. -/
theorem isNumeric_wlanTable :
    ∀ e ∈ wlanTable.map Neighbour.toNeighEntry, e.IsNumeric wlanNames :=
  Neighbour.isNumeric_of_mem (show ∀ e ∈ wlanTable, e.IsNumeric wlanNames by decide)

/-- The table of the wireless network is read through a pipe of the default capacity. -/
theorem hosts_of_answers_wlan : ∃ ls s,
    (ArpPipe.program (.ofBytes 65536 wlanEnv wlanMachine ⟨-1, 0, 0⟩ wlanNames fun _ => [])).run
      (ArpPipe.init (.ofBytes 65536 wlanEnv wlanMachine ⟨-1, 0, 0⟩ wlanNames fun _ => [])) ls =
        some s ∧
    s = { pc := .returned ((wlanTable.map Neighbour.toNeighEntry).filterMap NeighEntry.host),
          pipe := [], descriptors := { pipe := false, sockets := 0 } } := by
  obtain ⟨ls, s, hrun, hterm⟩ := ArpPipe.exists_terminal
    (.ofBytes 65536 wlanEnv wlanMachine ⟨-1, 0, 0⟩ wlanNames fun _ => []) _
  have hends := hosts_of_answers (wlanTable.map Neighbour.toNeighEntry) (by decide)
    answers_wlanMachine (by decide) (by decide) isNumeric_wlanTable hrun
  exact ⟨ls, s, hrun, (hends.2 hterm).1 (by decide +kernel)⟩

end LanScan.Android.Netlink
