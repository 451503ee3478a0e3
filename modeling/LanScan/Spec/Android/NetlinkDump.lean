import LanScan.Spec.Android.NetlinkDecode
import LanScan.Spec.Android.NativeIPNeighCorrect

/-!
# The dump loop on bytes

The dump loop works on the bytes that `recvmsg` puts into a buffer.  It does with them what
the loop on messages does with the messages they decode to.

Key results:
- `filterMessages_eq`: the loop over one buffer
- `call_eq_decode`: a whole call of `nativeIPNeigh`
-/

namespace LanScan.Android.Netlink

open NativeIPNeigh

variable {env : NeighEnv} {ndaMax : Nat} {nlPid : UInt32} {h : Ptr} {msglen : Int}

/-! ## The messages of a buffer -/

/-- The end of the loop on messages, with the length that is left of the buffer. -/
def endWith (msglen : Int) : FilterEnd → MessagesEnd
  | .returned err => .returned err
  | .foundDone => .foundDone
  | .exhausted => .exhausted msglen

/-- The length field of `DONE`, which is read first, is looked at only if it is there. -/
theorem rtnlDumpDone_eq (h : Ptr) : rtnlDumpDone h = NativeIPNeigh.rtnlDumpDone
    (if nlmsgLen h < nlmsgLength 4 then none else some (u32 (nlmsgData h) 0).toInt32) := by
  unfold rtnlDumpDone
  split <;> rfl

/-- A message in front of memory whose record decodes to `DONE`. -/
theorem decodeBody_done (hlen : nlmsgHdrlen ≤ nlmsgLen h) (htype : nlmsgType h = nlmsgDone) :
    decodeBody (nlmsg.recordAt h) = .done
      (if nlmsgLen h < nlmsgLength 4 then none else some (u32 (nlmsgData h) 0).toInt32) := by
  rw [decodeBody, nlmsgType_recordAt hlen, if_pos htype, nlmsgLen_recordAt hlen]
  split
  · rfl
  · next hfield =>
    have hfield' : nlmsgHdrlen + 0 + 4 ≤ nlmsgLen h := Nat.le_of_not_lt hfield
    rw [u32, read_nlmsgData_recordAt hfield', u32]

/-- An error is decoded as one. -/
theorem decodeBody_error (hlen : nlmsgHdrlen ≤ nlmsgLen h) (htype : nlmsgType h = nlmsgError) :
    decodeBody (nlmsg.recordAt h) = .error := by
  rw [decodeBody, nlmsgType_recordAt hlen, htype]
  rfl

/-- Any other message is printed alike from memory and from its record. -/
theorem printNeigh_decodeBody (hmax : 3 ≤ ndaMax) (hlen : nlmsgHdrlen ≤ nlmsgLen h)
    (hmem : nlmsgLen h ≤ h.length) (hdone : nlmsgType h ≠ nlmsgDone)
    (herror : nlmsgType h ≠ nlmsgError)
    (hwhole : RecordHasWholeAddresses (nlmsg.recordAt h)) :
    (decodeBody (nlmsg.recordAt h) = .short ∧ printNeigh env ndaMax showFilter h = none) ∨
      ∃ m, decodeBody (nlmsg.recordAt h) = .neigh m ∧
        printNeigh env ndaMax showFilter h = some (Android.printNeigh env showFilter m) := by
  rw [RecordHasWholeAddresses, nlmsgType_recordAt hlen] at hwhole
  rw [decodeBody, nlmsgType_recordAt hlen, if_neg hdone, if_neg herror, nlmsgLen_recordAt hlen]
  by_cases htype : isNeigh (nlmsgType h)
  -- a neighbour is too short for its `ndmsg`, or printed
  · by_cases hshort : nlmsgLen h < nlmsgLength sizeofNdmsg
    · rw [if_pos ⟨htype, hshort⟩]
      exact .inl ⟨rfl, printNeigh_of_short htype hshort⟩
    · have hndmsg := Nat.le_of_not_lt hshort
      rw [if_neg fun hboth => hshort hboth.2, decodeNeigh_recordAt hndmsg] at *
      exact .inr ⟨_, rfl, printNeigh_of_isNeigh hmax htype hmem hndmsg (hwhole htype)⟩
  · rw [if_neg fun hboth => htype hboth.1]
    refine .inr ⟨_, rfl, ?_⟩
    -- any other message prints nothing
    have htype' : ¬ isNeigh (nlmsgType (nlmsg.recordAt h)) := by rwa [nlmsgType_recordAt hlen]
    rw [printNeigh_of_not_isNeigh htype, printNeigh_decodeNeigh_of_not_isNeigh htype']

/-- A round of the loop on a message that lies inside of the datagram. -/
theorem filterMessages_of_ok (hok : nlmsg.Ok h msglen) (fuel : Nat) :
    filterMessages env ndaMax nlPid (fuel + 1) h msglen = (get >>= fun p =>
      if nlPid ≠ 0 ∨ nlmsgSeq h ≠ p.rth.dump then
        filterMessages env ndaMax nlPid fuel (nlmsg.next h) (nlmsg.left h msglen)
      else if nlmsgType h = nlmsgDone then
        if rtnlDumpDone h < 0 then return .returned (-1) else return .foundDone
      else if nlmsgType h = nlmsgError then return .returned (-1)
      else
        match printNeigh env ndaMax showFilter h with
        | none => return .returned (-1)
        | some text => do
          fflush text
          filterMessages env ndaMax nlPid fuel (nlmsg.next h) (nlmsg.left h msglen)) :=
  if_pos hok

/-- The loop ends where no message is. -/
theorem filterMessages_of_not_ok (hok : ¬ nlmsg.Ok h msglen) (fuel : Nat) :
    filterMessages env ndaMax nlPid (fuel + 1) h msglen = pure (.exhausted msglen) :=
  if_neg hok

/-- A round of the loop on a decoded message. -/
theorem filterMessages_decoded (m : NativeIPNeigh.NlMsg) (ms : List NativeIPNeigh.NlMsg) :
    NativeIPNeigh.filterMessages env nlPid (m :: ms) = (get >>= fun p =>
      if nlPid ≠ 0 ∨ m.nlmsgSeq ≠ p.rth.dump then NativeIPNeigh.filterMessages env nlPid ms
      else
        match m.body with
        | .done len =>
          if NativeIPNeigh.rtnlDumpDone len < 0 then return .returned (-1) else return .foundDone
        | .error => return .returned (-1)
        | body => do
          let err ← NativeIPNeigh.printNeigh env body
          if err < 0 then return .returned err else NativeIPNeigh.filterMessages env nlPid ms) :=
  rfl

/-- A round of the loop, on bytes and on the message that they decode to. -/
theorem filterMessages_cons (hmax : 3 ≤ ndaMax) (hok : nlmsg.Ok h msglen)
    (hmem : nlmsgLen h ≤ h.length) (hwhole : RecordHasWholeAddresses (nlmsg.recordAt h))
    {fuel : Nat} {left : Int} {ms : List NativeIPNeigh.NlMsg}
    (hrest : filterMessages env ndaMax nlPid fuel (nlmsg.next h) (nlmsg.left h msglen) =
      endWith left <$> NativeIPNeigh.filterMessages env nlPid ms) :
    filterMessages env ndaMax nlPid (fuel + 1) h msglen =
      endWith left <$>
        NativeIPNeigh.filterMessages env nlPid (decodeMsg (nlmsg.recordAt h) :: ms) := by
  have hlen : nlmsgHdrlen ≤ nlmsgLen h := hok.2.1
  have hseq : (decodeMsg (nlmsg.recordAt h)).nlmsgSeq = nlmsgSeq h := nlmsgSeq_recordAt hlen
  rw [filterMessages_of_ok hok, filterMessages_decoded, map_bind]
  refine bind_congr fun p => ?_
  rw [hseq]
  -- both loops take the same branch: skip, `DONE`, error, or print
  by_cases hskip : nlPid ≠ 0 ∨ nlmsgSeq h ≠ p.rth.dump
  · rw [if_pos hskip, if_pos hskip]
    exact hrest
  rw [if_neg hskip, if_neg hskip]
  by_cases hdone : nlmsgType h = nlmsgDone
  · rw [if_pos hdone, rtnlDumpDone_eq, show (decodeMsg (nlmsg.recordAt h)).body = _ from
      decodeBody_done hlen hdone]
    generalize (if nlmsgLen h < nlmsgLength 4 then none
      else some (u32 (nlmsgData h) 0).toInt32) = length
    by_cases hfails : NativeIPNeigh.rtnlDumpDone length < 0
    · simp only [if_pos hfails]
      rfl
    · simp only [if_neg hfails]
      rfl
  rw [if_neg hdone]
  by_cases herror : nlmsgType h = nlmsgError
  · rw [if_pos herror, show (decodeMsg (nlmsg.recordAt h)).body = _ from
      decodeBody_error hlen herror]
    rfl
  rw [if_neg herror]
  -- both fail at a short neighbour, and print the others alike
  rcases printNeigh_decodeBody hmax hlen hmem hdone herror hwhole with
    ⟨hbody, hprint⟩ | ⟨m, hbody, hprint⟩
  · rw [hprint, show (decodeMsg (nlmsg.recordAt h)).body = _ from hbody]
    rfl
  · rw [hprint, show (decodeMsg (nlmsg.recordAt h)).body = _ from hbody]
    have hprinted : NativeIPNeigh.printNeigh env (.neigh m) =
        fflush (Android.printNeigh env showFilter m) >>= fun _ => pure 0 := rfl
    have hzero : ¬ (0 : Int32) < 0 := by decide
    simp only [hrest, hprinted, bind_assoc, pure_bind, if_neg hzero, map_bind]

/-- The loop on bytes is the loop on the messages that they decode to. -/
theorem filterMessages_eq (hmax : 3 ≤ ndaMax) {fuel : Nat} (hfuel : msglen.toNat ≤ fuel)
    (hmem : msglen ≤ h.length)
    (hwhole : ∀ m ∈ nlmsg.records h msglen, RecordHasWholeAddresses m) :
    filterMessages env ndaMax nlPid fuel h msglen =
      endWith (nlmsg.remnant h msglen) <$>
        NativeIPNeigh.filterMessages env nlPid ((nlmsg.records h msglen).map decodeMsg) := by
  induction fuel generalizing h msglen with
  | zero =>
    have hstop : ¬ nlmsg.Ok h msglen := nlmsg.not_ok_of_nonpos (by omega)
    rw [nlmsg.records_of_not_ok hstop, nlmsg.remnant_of_not_ok hstop]
    rfl
  | succ fuel ih =>
    by_cases hok : nlmsg.Ok h msglen
    · have hmem' : nlmsgLen h ≤ h.length := by
        have hle : (nlmsgLen h : Int) ≤ msglen := hok.2.2
        omega
      rw [nlmsg.records_of_ok hok] at hwhole
      -- by induction behind the first message
      have hrest := ih (nlmsg.toNat_left_le hok hfuel) (nlmsg.left_le_length_next hmem)
        fun m hm => hwhole m (List.mem_cons_of_mem _ hm)
      rw [nlmsg.records_of_ok hok, nlmsg.remnant_of_ok hok, List.map_cons]
      exact filterMessages_cons hmax hok hmem' (hwhole _ List.mem_cons_self) hrest
    · rw [nlmsg.records_of_not_ok hok, nlmsg.remnant_of_not_ok hok, filterMessages_of_not_ok hok]
      rfl

/-! ## The whole dump -/

/-- The dump on bytes is the dump on the messages that they decode to, whatever the buffer
    holds at first. -/
theorem rtnlDumpFilterL_eq (hmax : 3 ≤ ndaMax) (buf : Ptr) {received : List RecvMsg}
    (hwhole : ∀ r ∈ received, HasWholeAddresses r) :
    rtnlDumpFilterL env ndaMax buf received =
      NativeIPNeigh.rtnlDumpFilterL env (received.map decode) := by
  induction received generalizing buf with
  | nil => rfl
  | cons r rest ih =>
    have hrest (buf : Ptr) := ih buf fun r' hr' => hwhole r' (List.mem_cons_of_mem r hr')
    cases r with
    | interrupted => exact hrest buf
    | failed => rfl
    | received nlPid bytes truncated =>
      rw [rtnlDumpFilterL, List.map_cons, decode]
      by_cases hempty : bytes.length = 0
      · rw [if_pos hempty, if_pos hempty]
        rfl
      rw [if_neg hempty, if_neg hempty, NativeIPNeigh.rtnlDumpFilterL]
      -- what stands behind the bytes is of no importance
      obtain ⟨hrecords, hremnant⟩ := nlmsg.records_append bytes (buf.drop bytes.length)
      have hmessages : ∀ m ∈ nlmsg.records bytes bytes.length, RecordHasWholeAddresses m :=
        hwhole _ List.mem_cons_self
      rw [← hrecords] at hmessages
      have hlength : (bytes.length : Int) ≤ (bytes ++ buf.drop bytes.length).length := by
        rw [List.length_append]
        omega
      have hloop : filterMessages env ndaMax nlPid bytes.length (bytes ++ buf.drop bytes.length)
          bytes.length = _ :=
        filterMessages_eq hmax (Nat.le_of_eq (Int.toNat_natCast _)) hlength hmessages
      rw [hrecords, hremnant] at hloop
      simp only [hloop, bind_map_left]
      refine bind_congr fun e => ?_
      cases e with
      | returned err => rfl
      | foundDone => rfl
      | exhausted =>
        simp only [endWith, hrest]
        cases truncated with
        | true => rfl
        | false => simp

/-- Every address that `recvmsg` brings is whole. -/
def Machine.HasWholeAddresses (m : Machine) : Prop :=
  ∀ r ∈ m.recvmsg, Netlink.HasWholeAddresses r

instance (m : Machine) : Decidable m.HasWholeAddresses :=
  inferInstanceAs (Decidable (∀ r ∈ m.recvmsg, _))

/-- The kernel with what it sends decoded. -/
def Machine.decode (m : Machine) : Kernel :=
  { m.kernel with recvmsg := m.recvmsg.map Netlink.decode }

/-- A call on bytes runs the code on messages. -/
theorem nativeIPNeigh_eq {m : Machine} (hmax : 3 ≤ m.ndaMax) (hwhole : m.HasWholeAddresses) :
    nativeIPNeigh env m = NativeIPNeigh.nativeIPNeigh env m.decode := by
  have hdump : rtnlDumpFilterL env m.ndaMax m.stack m.recvmsg = _ :=
    rtnlDumpFilterL_eq hmax m.stack hwhole
  rw [nativeIPNeigh, hdump]
  rfl

/-- **The call on bytes.** For all bytes that come from the netlink socket, in messages well or
    badly formed, a call of `nativeIPNeigh` makes the system calls that it makes on the decoded
    messages, and returns, exits or waits as it does on them.  What the stack holds does not
    matter. -/
theorem call_eq_decode (env : NeighEnv) {m : Machine} (hmax : 3 ≤ m.ndaMax)
    (hwhole : m.HasWholeAddresses) (rth : RtnlHandle) :
    call env m rth = NativeIPNeigh.call env m.decode rth := by
  rw [call, nativeIPNeigh_eq hmax hwhole]
  rfl

/-- A kernel that sends a neighbour and three bytes too many. -/
def remnantMachine : Machine where
  kernel := { exhaustedKernel with socket := 3 }
  recvmsg := [.received 0 [36, 0, 0, 0, 28, 0, 2, 0, 1, 0, 0, 0, 0, 0, 0, 0, 2, 0, 0, 0, 3, 0, 0, 0,
    2, 0, 0, 1, 8, 0, 1, 0, 192, 168, 1, 1, 16, 0, 0] false]
  stack := [0xAA, 0xBB]
  ndaMax := 14

/-- A device without interfaces. -/
def plainEnv : NeighEnv where
  inetNtop _ _ := []
  ifIndextoname _ := none
  idxHead _ := []

/-- With the remnant both exit. -/
theorem call_eq_decode_remnant : call plainEnv remnantMachine ⟨-1, 0, 0⟩ =
    NativeIPNeigh.call plainEnv remnantMachine.decode ⟨-1, 0, 0⟩ :=
  call_eq_decode plainEnv (by decide) (by decide) ⟨-1, 0, 0⟩

end LanScan.Android.Netlink
