import LanScan.Spec.Android.NetlinkTable

/-!
# What the dump accepts

The bytes with which a call of `nativeIPNeigh` returns: datagrams of whole messages, one
behind the other with their padding, up to a `DONE` that reports no error.  When nothing is
wrong but the `DONE` does not come, the call waits for it; with any other bytes it ends the
process.

Key results:
- `run_filterMessages`: how the loop over one buffer ends
- `run_rtnlDumpFilterL_cons`, `run_rtnlDumpFilterL`: one turn of the dump loop, and all of them
- `returns_iff`: when the ARP table is read
-/

namespace LanScan.Android.Netlink

open NativeIPNeigh

variable {env : NeighEnv} {ndaMax : Nat} {seq nlPid : UInt32} {h : Ptr} {msglen : Int}
  {p : Process}

/-! ## Messages -/

/-- The dump goes on behind the message: it does not answer the request, or it neither ends
    the dump nor is a neighbour without its `ndmsg`. -/
def Passes (seq nlPid : UInt32) (m : List UInt8) : Prop :=
  nlPid ≠ 0 ∨ nlmsgSeq m ≠ seq ∨
    (nlmsgType m ≠ nlmsgDone ∧ nlmsgType m ≠ nlmsgError ∧
      (isNeigh (nlmsgType m) → nlmsgLength sizeofNdmsg ≤ nlmsgLen m))

/-- The dump is complete with the message: a `DONE` that reports no error. -/
def Concludes (seq nlPid : UInt32) (m : List UInt8) : Prop :=
  nlPid = 0 ∧ nlmsgSeq m = seq ∧ nlmsgType m = nlmsgDone ∧ nlmsgLength 4 ≤ nlmsgLen m ∧
    0 ≤ (u32 (nlmsgData m) 0).toInt32

instance (m : List UInt8) : Decidable (Passes seq nlPid m) :=
  inferInstanceAs (Decidable (_ ∨ _ ∨ _))

instance (m : List UInt8) : Decidable (Concludes seq nlPid m) :=
  inferInstanceAs (Decidable (_ ∧ _))

/-- The dump does not go on behind its `DONE`. -/
theorem Concludes.not_passes {m : List UInt8} (h : Concludes seq nlPid m) :
    ¬ Passes seq nlPid m := by
  obtain ⟨hpid, hseq, htype, -⟩ := h
  rintro (hpid' | hseq' | ⟨htype', -⟩)
  · exact hpid' hpid
  · exact hseq' hseq
  · exact htype' htype

/-- How the dump loop ends at some messages. -/
def endAt (seq nlPid : UInt32) : List (List UInt8) → FilterEnd
  | [] => .exhausted
  | m :: ms =>
    if Passes seq nlPid m then endAt seq nlPid ms
    else if Concludes seq nlPid m then .foundDone
    else .returned (-1)

/-- The loop comes to the end of the buffer if the dump goes on behind all messages. -/
theorem endAt_eq_exhausted_iff (ms : List (List UInt8)) :
    endAt seq nlPid ms = .exhausted ↔ ∀ m ∈ ms, Passes seq nlPid m := by
  induction ms with
  | nil => simp [endAt]
  | cons m ms ih =>
    rw [endAt, List.forall_mem_cons]
    by_cases hm : Passes seq nlPid m
    · rw [if_pos hm, ih, and_iff_right hm]
    -- The first message that does not pass ends the loop.
    · rw [if_neg hm]
      refine iff_of_false ?_ (fun hms => hm hms.1)
      split <;> simp

/-- Messages behind which it goes on do not end it. -/
theorem endAt_append_of_passes {front : List (List UInt8)}
    (h : ∀ m ∈ front, Passes seq nlPid m) (ms : List (List UInt8)) :
    endAt seq nlPid (front ++ ms) = endAt seq nlPid ms := by
  induction front with
  | nil => rfl
  | cons m front ih =>
    obtain ⟨hm, hfront⟩ := List.forall_mem_cons.mp h
    rw [List.cons_append, endAt, if_pos hm, ih hfront]

/-- The loop finds a `DONE` if it goes on behind all messages up to it. -/
theorem endAt_eq_foundDone_iff (ms : List (List UInt8)) :
    endAt seq nlPid ms = .foundDone ↔ ∃ front m back, ms = front ++ m :: back ∧
      (∀ m' ∈ front, Passes seq nlPid m') ∧ Concludes seq nlPid m := by
  constructor
  · intro h
    induction ms with
    | nil => cases h
    | cons m ms ih =>
      rw [endAt] at h
      by_cases hm : Passes seq nlPid m
      · rw [if_pos hm] at h
        obtain ⟨front, m', back, rfl, hfront, hm'⟩ := ih h
        exact ⟨m :: front, m', back, rfl, List.forall_mem_cons.mpr ⟨hm, hfront⟩, hm'⟩
      · rw [if_neg hm] at h
        -- the first message that ends it is the `DONE`, or the loop fails
        by_cases hconcludes : Concludes seq nlPid m
        · exact ⟨[], m, ms, rfl, by simp, hconcludes⟩
        · rw [if_neg hconcludes] at h
          cases h
  · rintro ⟨front, m, back, rfl, hfront, hm⟩
    rw [endAt_append_of_passes hfront, endAt, if_neg hm.not_passes, if_pos hm]

/-- The loop fails with -1 only. -/
theorem eq_of_endAt_eq_returned {ms : List (List UInt8)} {err : Int32}
    (h : endAt seq nlPid ms = .returned err) : err = -1 := by
  induction ms with
  | nil => cases h
  | cons m ms ih =>
    rw [endAt] at h
    split at h
    · exact ih h
    · split at h
      · cases h
      · exact (FilterEnd.returned.inj h).symm

/-! ## The loop over one buffer -/

/-- `print_neigh` fails at a neighbour without its `ndmsg` only. -/
theorem printNeigh_eq_none_iff {filter : NeighFilter} {n : Ptr} :
    printNeigh env ndaMax filter n = none ↔
      isNeigh (nlmsgType n) ∧ nlmsgLen n < nlmsgLength sizeofNdmsg := by
  by_cases htype : isNeigh (nlmsgType n)
  · by_cases hshort : nlmsgLen n < nlmsgLength sizeofNdmsg
    · exact iff_of_true (printNeigh_of_short htype hshort) ⟨htype, hshort⟩
    · refine iff_of_false ?_ fun hboth => hshort hboth.2
      have hlong : ¬ (nlmsgLen n : Int) - nlmsgLength sizeofNdmsg < 0 := by omega
      -- A neighbour message of full length is printed or dropped, never an error.
      unfold printNeigh
      rw [if_neg fun htypes => (not_isNeigh_iff _).mpr htypes htype, if_neg hlong]
      repeat' split
      all_goals simp
  · rw [printNeigh_of_not_isNeigh htype]
    exact iff_of_false (by simp) fun hboth => htype hboth.1

/-- A `DONE` is refused if it has no length field or a negative one. -/
theorem rtnlDumpDone_lt_zero_iff {h : Ptr} : rtnlDumpDone h < 0 ↔
    ¬ (nlmsgLength 4 ≤ nlmsgLen h ∧ 0 ≤ (u32 (nlmsgData h) 0).toInt32) := by
  rw [rtnlDumpDone_eq, NativeIPNeigh.rtnlDumpDone_lt_zero_iff]
  by_cases hlen : nlmsgLen h < nlmsgLength 4
  · rw [if_pos hlen]
    refine iff_of_true (by simp) fun hboth => ?_
    have hle := hboth.1
    omega
  · rw [if_neg hlen]
    simp [Nat.le_of_not_lt hlen]

/-- A message of memory passes when its record does. -/
theorem passes_recordAt (hlen : nlmsgHdrlen ≤ nlmsgLen h) :
    Passes seq nlPid (nlmsg.recordAt h) ↔ Passes seq nlPid h := by
  rw [Passes, nlmsgSeq_recordAt hlen, nlmsgType_recordAt hlen, nlmsgLen_recordAt hlen, Passes]

/-- What stands behind a message does not change whether it concludes the dump. -/
theorem concludes_recordAt (hlen : nlmsgHdrlen ≤ nlmsgLen h) :
    Concludes seq nlPid (nlmsg.recordAt h) ↔ Concludes seq nlPid h := by
  rw [Concludes, nlmsgSeq_recordAt hlen, nlmsgType_recordAt hlen, nlmsgLen_recordAt hlen, Concludes]
  refine and_congr_right fun _ => and_congr_right fun _ => and_congr_right fun _ =>
    and_congr_right fun hfield => ?_
  have hfield' : nlmsgHdrlen + 0 + 4 ≤ nlmsgLen h := hfield
  rw [u32, read_nlmsgData_recordAt hfield', u32]

/-- A round of the loop, by what the message does to the dump. -/
theorem run_filterMessages_of_ok (hok : nlmsg.Ok h msglen) (fuel : Nat) :
    ∃ texts, (filterMessages env ndaMax nlPid (fuel + 1) h msglen).run.run p =
      if Passes p.rth.dump nlPid h then
        (filterMessages env ndaMax nlPid fuel (nlmsg.next h) (nlmsg.left h msglen)).run.run
          (p.flush texts)
      else if Concludes p.rth.dump nlPid h then (.ok .foundDone, p)
      else (.ok (.returned (-1)), p) := by
  have hget : (get : C Process).run.run p = (.ok p, p) := rfl
  rw [filterMessages_of_ok hok, run_bind_of_ok hget]
  -- a message that does not answer the request is skipped
  by_cases hskip : nlPid ≠ 0 ∨ nlmsgSeq h ≠ p.rth.dump
  · have hpasses : Passes p.rth.dump nlPid h := by
      rcases hskip with hpid | hseq
      · exact .inl hpid
      · exact .inr (.inl hseq)
    exact ⟨[], by rw [if_pos hskip, if_pos hpasses, Process.flush_nil]⟩
  rw [if_neg hskip]
  obtain ⟨hpid, hseq⟩ := not_or.mp hskip
  rw [Classical.not_not] at hpid hseq
  have hpasses_iff : Passes p.rth.dump nlPid h ↔ nlmsgType h ≠ nlmsgDone ∧
      nlmsgType h ≠ nlmsgError ∧
        (isNeigh (nlmsgType h) → nlmsgLength sizeofNdmsg ≤ nlmsgLen h) := by
    simp [Passes, hpid, hseq]
  -- a `DONE` ends the loop, with -1 if it reports an error
  by_cases hdone : nlmsgType h = nlmsgDone
  · have hpasses : ¬ Passes p.rth.dump nlPid h := fun hpasses =>
      (hpasses_iff.mp hpasses).1 hdone
    refine ⟨[], ?_⟩
    rw [if_pos hdone, if_neg hpasses]
    by_cases hfails : rtnlDumpDone h < 0
    · have hconcludes : ¬ Concludes p.rth.dump nlPid h := fun hconcludes =>
        rtnlDumpDone_lt_zero_iff.mp hfails hconcludes.2.2.2
      rw [if_pos hfails, if_neg hconcludes]
      rfl
    · rw [rtnlDumpDone_lt_zero_iff, Classical.not_not] at hfails
      have hconcludes : Concludes p.rth.dump nlPid h := ⟨hpid, hseq, hdone, hfails⟩
      rw [if_neg (by rw [rtnlDumpDone_lt_zero_iff]; exact fun hnot => hnot hfails),
        if_pos hconcludes]
      rfl
  have hconcludes : ¬ Concludes p.rth.dump nlPid h := fun hconcludes =>
    hdone hconcludes.2.2.1
  rw [if_neg hdone, if_neg hconcludes]
  -- an error ends it with -1
  by_cases herror : nlmsgType h = nlmsgError
  · have hpasses : ¬ Passes p.rth.dump nlPid h := fun hpasses =>
      (hpasses_iff.mp hpasses).2.1 herror
    exact ⟨[], by rw [if_pos herror, if_neg hpasses]; rfl⟩
  rw [if_neg herror]
  -- anything else is printed, unless it is a neighbour without its `ndmsg`
  cases hprint : printNeigh env ndaMax showFilter h with
  | none =>
    obtain ⟨htype, hshort⟩ := printNeigh_eq_none_iff.mp hprint
    have hpasses : ¬ Passes p.rth.dump nlPid h := fun hpasses =>
      Nat.not_le_of_lt hshort ((hpasses_iff.mp hpasses).2.2 htype)
    exact ⟨[], by rw [if_neg hpasses]; rfl⟩
  | some text =>
    have hpasses : Passes p.rth.dump nlPid h := by
      refine hpasses_iff.mpr ⟨hdone, herror, fun htype => Nat.le_of_not_lt fun hshort => ?_⟩
      rw [printNeigh_eq_none_iff.mpr ⟨htype, hshort⟩] at hprint
      cases hprint
    exact ⟨[text], by rw [if_pos hpasses]; exact run_bind_of_ok (run_fflush text p)⟩

/-- The loop over one buffer comes to the end that its messages have. -/
theorem run_filterMessages {fuel : Nat} (hfuel : msglen.toNat ≤ fuel) :
    ∃ texts, (filterMessages env ndaMax nlPid fuel h msglen).run.run p =
      (.ok (endWith (nlmsg.remnant h msglen)
        (endAt p.rth.dump nlPid (nlmsg.records h msglen))), p.flush texts) := by
  induction fuel generalizing h msglen p with
  | zero =>
    have hstop : ¬ nlmsg.Ok h msglen := nlmsg.not_ok_of_nonpos (by omega)
    rw [nlmsg.records_of_not_ok hstop, nlmsg.remnant_of_not_ok hstop]
    exact ⟨[], by rw [Process.flush_nil]; rfl⟩
  | succ fuel ih =>
    by_cases hok : nlmsg.Ok h msglen
    -- one turn, and the others by induction
    · obtain ⟨texts, hround⟩ := @run_filterMessages_of_ok env ndaMax nlPid h msglen p hok fuel
      rw [hround, nlmsg.records_of_ok hok, nlmsg.remnant_of_ok hok, endAt]
      simp only [passes_recordAt hok.2.1, concludes_recordAt hok.2.1]
      by_cases hpasses : Passes p.rth.dump nlPid h
      · rw [if_pos hpasses, if_pos hpasses]
        obtain ⟨texts', hrest⟩ := ih (h := nlmsg.next h) (p := p.flush texts)
          (nlmsg.toNat_left_le hok hfuel)
        exact ⟨texts ++ texts', by rw [hrest, Process.flush_append]; rfl⟩
      · rw [if_neg hpasses, if_neg hpasses]
        refine ⟨[], ?_⟩
        rw [Process.flush_nil]
        split <;> rfl
    · rw [nlmsg.records_of_not_ok hok, nlmsg.remnant_of_not_ok hok, filterMessages_of_not_ok hok]
      exact ⟨[], by rw [Process.flush_nil]; rfl⟩

/-! ## Datagrams -/

/-- The dump goes on behind what has been received. -/
inductive GoesOn (seq : UInt32) : RecvMsg → Prop
  | interrupted : GoesOn seq .interrupted
  /-- a datagram without a `DONE` consists of whole messages -/
  | whole {nlPid messages bytes} (hne : bytes ≠ []) (hlayout : nlmsg.Layout messages bytes)
      (hpass : ∀ m ∈ messages, Passes seq nlPid m) : GoesOn seq (.received nlPid bytes false)
  /-- or it has been cut off -/
  | truncated {nlPid bytes} (hne : bytes ≠ [])
      (hpass : ∀ m, nlmsg.Inside m bytes → Passes seq nlPid m) :
      GoesOn seq (.received nlPid bytes true)

/-- The dump is complete with what has been received: messages up to a `DONE` that reports no
    error.  Behind the `DONE` anything may stand. -/
inductive Completes (seq : UInt32) : RecvMsg → Prop
  | done {nlPid messages laid done back truncated} (hlayout : nlmsg.Layout messages laid)
      (hpass : ∀ m ∈ messages, Passes seq nlPid m) (hwell : nlmsg.WellFormed done)
      (hdone : Concludes seq nlPid done) :
      Completes seq (.received nlPid (laid ++ (done ++ back)) truncated)

/-- When a datagram lets the dump go on, by the end of the loop over it. -/
theorem goesOn_received_iff {bytes : List UInt8} {truncated : Bool} :
    GoesOn seq (.received nlPid bytes truncated) ↔ bytes ≠ [] ∧
      endAt seq nlPid (nlmsg.records bytes bytes.length) = .exhausted ∧
        (truncated = true ∨ nlmsg.remnant bytes bytes.length = 0) := by
  rw [endAt_eq_exhausted_iff]
  constructor
  · intro h
    cases h with
    | whole hne hlayout hpass =>
      -- whole messages leave no remnant
      obtain ⟨hrecords, hremnant⟩ := nlmsg.records_of_layout hlayout
      exact ⟨hne, hrecords ▸ hpass, .inr hremnant⟩
    | truncated hne hpass =>
      exact ⟨hne, fun m hm => hpass m (nlmsg.mem_records_iff.mp hm), .inl rfl⟩
  · rintro ⟨hne, hpass, hend⟩
    cases truncated with
    -- without a remnant the records are a layout of the bytes
    | true => exact .truncated hne fun m hm => hpass m (nlmsg.mem_records_iff.mpr hm)
    | false => exact .whole hne (nlmsg.layout_records (hend.resolve_left (by simp))) hpass

/-- When a datagram completes the dump, by the end of the loop over it. -/
theorem completes_received_iff {bytes : List UInt8} {truncated : Bool} :
    Completes seq (.received nlPid bytes truncated) ↔
      endAt seq nlPid (nlmsg.records bytes bytes.length) = .foundDone := by
  rw [endAt_eq_foundDone_iff]
  constructor
  · intro h
    cases h with
    | @done _ messages laid done back _ hlayout hpass hwell hdone =>
      -- Records and layouts of the datagram determine each other.
      obtain ⟨messages', hrecords⟩ := nlmsg.exists_records_of_layout hwell hlayout back
      exact ⟨messages, done, messages', hrecords, hpass, hdone⟩
  · rintro ⟨front, done, back, hsplit, hpass, hdone⟩
    obtain ⟨hwell, laid, rest, hlayout, rfl⟩ := nlmsg.exists_layout_of_records hsplit
    exact .done hlayout hpass hwell hdone

/-- A datagram that completes the dump does not let it go on. -/
theorem Completes.not_goesOn {r : RecvMsg} (h : Completes seq r) : ¬ GoesOn seq r := by
  cases r with
  | interrupted | failed => cases h
  | received nlPid bytes truncated =>
    rw [completes_received_iff] at h
    rw [goesOn_received_iff, h]
    simp

/-! ## The whole dump -/

/-- What is received answers the dump request `seq`: it lets the dump go on until it completes
    it. -/
inductive Answer (seq : UInt32) : List RecvMsg → Prop
  | goesOn {r rest} (hr : GoesOn seq r) (h : Answer seq rest) : Answer seq (r :: rest)
  | completes {r rest} (hr : Completes seq r) : Answer seq (r :: rest)

/-- What is received lets the dump go on, and does not complete it. -/
def Waits (seq : UInt32) (received : List RecvMsg) : Prop := ∀ r ∈ received, GoesOn seq r

/-- A dump that is complete does not wait. -/
theorem Answer.not_waits {received : List RecvMsg} (h : Answer seq received) :
    ¬ Waits seq received := by
  induction h with
  | goesOn hr h ih => exact fun hwaits => ih fun r hr => hwaits r (List.mem_cons_of_mem _ hr)
  | completes hr => exact fun hwaits => hr.not_goesOn (hwaits _ List.mem_cons_self)

/-- The loop over the bytes that have just been received, whatever stands behind them. -/
theorem run_filterMessages_received (bytes back : List UInt8) :
    ∃ texts, (filterMessages env ndaMax nlPid bytes.length (bytes ++ back)
        bytes.length).run.run p =
      (.ok (endWith (nlmsg.remnant bytes bytes.length)
        (endAt p.rth.dump nlPid (nlmsg.records bytes bytes.length))), p.flush texts) := by
  obtain ⟨hrecords, hremnant⟩ := nlmsg.records_append bytes back
  obtain ⟨texts, hrun⟩ := @run_filterMessages env ndaMax nlPid (bytes ++ back) bytes.length p _
    (Nat.le_of_eq (Int.toNat_natCast _))
  rw [hrecords, hremnant] at hrun
  exact ⟨texts, hrun⟩

/-- The dump loop fails, or exits by itself. -/
def Fails (result : Except Stop Int32) : Prop := result = .ok (-1) ∨ result = .error (.exit 1)

/-- One turn of the dump loop: it goes on, is complete or fails. -/
theorem run_rtnlDumpFilterL_cons (buf : Ptr) (r : RecvMsg) (rest : List RecvMsg) :
    ∃ texts buf', GoesOn p.rth.dump r ∧ (rtnlDumpFilterL env ndaMax buf (r :: rest)).run.run p =
        (rtnlDumpFilterL env ndaMax buf' rest).run.run (p.flush texts) ∨
      Completes p.rth.dump r ∧
        (rtnlDumpFilterL env ndaMax buf (r :: rest)).run.run p = (.ok 0, p.flush texts) ∨
      (¬ GoesOn p.rth.dump r ∧ ¬ Completes p.rth.dump r) ∧ ∃ result, Fails result ∧
        (rtnlDumpFilterL env ndaMax buf (r :: rest)).run.run p = (result, p.flush texts) := by
  cases r with
  | interrupted => exact ⟨[], buf, .inl ⟨.interrupted, by rw [Process.flush_nil]; rfl⟩⟩
  | failed =>
    exact ⟨[], buf, .inr (.inr ⟨⟨by rintro ⟨⟩, by rintro ⟨⟩⟩, _, .inl rfl, by
      rw [Process.flush_nil]; rfl⟩)⟩
  | received nlPid bytes truncated =>
    rw [goesOn_received_iff, completes_received_iff]
    -- an empty datagram is the end of the file
    by_cases hne : bytes = []
    · subst hne
      have hend : endAt p.rth.dump nlPid (nlmsg.records [] ([] : List UInt8).length) =
          .exhausted := by
        rw [nlmsg.records_of_not_ok (nlmsg.not_ok_of_nonpos (by simp))]
        rfl
      refine ⟨[], buf, .inr (.inr ⟨⟨fun h => h.1 rfl, ?_⟩, _, .inl rfl, ?_⟩)⟩
      · rw [hend]
        simp
      rw [Process.flush_nil]
      rfl
    -- otherwise the loop over it decides
    obtain ⟨texts, hrun⟩ := @run_filterMessages_received env ndaMax nlPid p bytes
      (buf.drop bytes.length)
    refine ⟨texts, bytes ++ buf.drop bytes.length, ?_⟩
    have hlength : ¬ bytes.length = 0 := fun hzero => hne (List.length_eq_zero_iff.mp hzero)
    rw [rtnlDumpFilterL, if_neg hlength, show (_ >>= _ : C Int32).run.run p = _ from
      run_bind_of_ok hrun]
    cases hend : endAt p.rth.dump nlPid (nlmsg.records bytes bytes.length) with
    | returned err =>
      rw [eq_of_endAt_eq_returned hend]
      exact .inr (.inr ⟨⟨by simp, by simp⟩, _, .inl rfl, rfl⟩)
    | foundDone => exact .inr (.inl ⟨rfl, rfl⟩)
    | exhausted =>
      simp only [endWith]
      -- at the end of the buffer the dump goes on if it was truncated or has no remnant
      by_cases htruncated : truncated = true
      · rw [if_pos htruncated]
        exact .inl ⟨⟨hne, trivial, .inl htruncated⟩, rfl⟩
      · rw [if_neg htruncated]
        by_cases hremnant : nlmsg.remnant bytes bytes.length = 0
        · rw [if_neg (not_not_intro hremnant)]
          exact .inl ⟨⟨hne, trivial, .inr hremnant⟩, rfl⟩
        · rw [if_pos hremnant]
          refine .inr (.inr ⟨⟨fun h => ?_, by simp⟩, _, .inr rfl, rfl⟩)
          exact h.2.2.elim htruncated hremnant

/-- The dump loop returns 0 at an answer, waits for one that does not come, or fails. -/
theorem run_rtnlDumpFilterL (buf : Ptr) (received : List RecvMsg) :
    ∃ texts, Answer p.rth.dump received ∧
        (rtnlDumpFilterL env ndaMax buf received).run.run p = (.ok 0, p.flush texts) ∨
      Waits p.rth.dump received ∧
        (rtnlDumpFilterL env ndaMax buf received).run.run p = (.error .blocked, p.flush texts) ∨
      (¬ Answer p.rth.dump received ∧ ¬ Waits p.rth.dump received) ∧ ∃ result, Fails result ∧
        (rtnlDumpFilterL env ndaMax buf received).run.run p = (result, p.flush texts) := by
  induction received generalizing buf p with
  | nil => exact ⟨[], .inr (.inl ⟨by simp [Waits], by rw [Process.flush_nil]; rfl⟩)⟩
  | cons r rest ih =>
    obtain ⟨texts, buf',
      ⟨hr, hcons⟩ | ⟨hr, hcons⟩ | ⟨⟨hgoes, hcompletes⟩, result, hfails, hcons⟩⟩ :=
      @run_rtnlDumpFilterL_cons env ndaMax p buf r rest
    · -- the rest of what is received decides
      obtain ⟨texts', hrest⟩ := @ih (p.flush texts) buf'
      refine ⟨texts ++ texts', ?_⟩
      rw [hcons, Process.flush_append]
      refine hrest.imp (And.imp_left (.goesOn hr)) (Or.imp (And.imp_left fun hwaits => ?_)
        (And.imp_left fun hnot => ⟨fun hanswer => ?_, fun hwaits => ?_⟩))
      · exact List.forall_mem_cons.mpr ⟨hr, hwaits⟩
      · cases hanswer with
        | goesOn _ h => exact hnot.1 h
        | completes hcompletes => exact hcompletes.not_goesOn hr
      · exact hnot.2 (List.forall_mem_cons.mp hwaits).2
    · exact ⟨texts, .inl ⟨.completes hr, hcons⟩⟩
    · refine ⟨texts, .inr (.inr ⟨⟨fun hanswer => ?_, fun hwaits => ?_⟩, result, hfails, hcons⟩)⟩
      · cases hanswer with
        | goesOn hr _ => exact hgoes hr
        | completes hr => exact hcompletes hr
      · exact hgoes (hwaits r List.mem_cons_self)

/-! ## The whole call -/

/-- The steps of `nativeIPNeigh` all succeed, and what is received answers the dump request. -/
structure Machine.Answered (m : Machine) : Prop where
  requests : m.kernel.Requests
  answer : Answer (m.kernel.time + 1) m.recvmsg

/-- The steps up to the dump succeed, and it waits for ever. -/
structure Machine.Waits (m : Machine) : Prop where
  requests : m.kernel.Requests
  waits : Netlink.Waits (m.kernel.time + 1) m.recvmsg

/-- What a call comes to. -/
theorem call_cases (env : NeighEnv) (m : Machine) (rth : RtnlHandle) :
    m.Answered ∧ (∃ p, call env m rth = (.ok 0, p) ∧ p.descriptors = ArpPipe.closed) ∨
      m.Waits ∧ (call env m rth).1 = .error .blocked ∨
      (¬ m.Answered ∧ ¬ m.Waits) ∧ (call env m rth).1 = .error (.exit 1) := by
  by_cases hrequests : m.kernel.Requests
  · obtain ⟨texts, ⟨hanswer, hdump⟩ | ⟨hwaits, hdump⟩ | ⟨hnot, result, hfails, hdump⟩⟩ :=
      @run_rtnlDumpFilterL env m.ndaMax (requested m.kernel) m.stack m.recvmsg
    -- the dump is complete, waits, or fails with -1 or `exit`
    · refine .inl ⟨⟨hrequests, hanswer⟩, _, call_of_dump_ok hrequests hdump, ?_⟩
      exact descriptors_of_dump_ok _ _
    · exact .inr (.inl ⟨⟨hrequests, hwaits⟩,
        congrArg Prod.fst (call_of_dump_stopped hrequests hdump)⟩)
    · refine .inr (.inr ⟨⟨fun h => hnot.1 h.answer, fun h => hnot.2 h.waits⟩, ?_⟩)
      rcases hfails with rfl | rfl
      · exact congrArg Prod.fst (call_of_dump_failed hrequests hdump (by decide))
      · exact congrArg Prod.fst (call_of_dump_stopped hrequests hdump)
  -- a step before it fails, which exits
  · obtain ⟨p, hexit⟩ := call_of_not_requests hrequests
      (rtnlDumpFilterL env m.ndaMax m.stack m.recvmsg) rth
    exact .inr (.inr ⟨⟨fun h => hrequests h.requests, fun h => hrequests h.requests⟩,
      congrArg Prod.fst hexit⟩)

/-- An answered request does not wait. -/
theorem Machine.Answered.not_waits {m : Machine} (h : m.Answered) : ¬ m.Waits := fun hwaits =>
  h.answer.not_waits hwaits.waits

/-- When a call returns. -/
theorem call_eq_ok_iff (env : NeighEnv) (m : Machine) (rth : RtnlHandle) {code : Int32} :
    (call env m rth).1 = .ok code ↔ code = 0 ∧ m.Answered := by
  rcases call_cases env m rth with ⟨h, p, hcall, -⟩ | ⟨hwaits, hcall⟩ | ⟨hnot, hcall⟩
  · simp [hcall, h, eq_comm]
  · have hanswered : ¬ m.Answered := fun h => h.not_waits hwaits
    simp [hcall, hanswered]
  · simp [hcall, hnot.1]

/-- When it exits the process. -/
theorem call_eq_exit_iff (env : NeighEnv) (m : Machine) (rth : RtnlHandle) {status : Int32} :
    (call env m rth).1 = .error (.exit status) ↔ status = 1 ∧ ¬ m.Answered ∧ ¬ m.Waits := by
  rcases call_cases env m rth with ⟨h, p, hcall, -⟩ | ⟨hwaits, hcall⟩ | ⟨hnot, hcall⟩
  · simp [hcall, h]
  · simp [hcall, hwaits]
  · simp [hcall, hnot, eq_comm]

/-- When it waits in `recvmsg`. -/
theorem call_eq_blocked_iff (env : NeighEnv) (m : Machine) (rth : RtnlHandle) :
    (call env m rth).1 = .error .blocked ↔ m.Waits := by
  rcases call_cases env m rth with ⟨h, p, hcall, -⟩ | ⟨hwaits, hcall⟩ | ⟨hnot, hcall⟩
  · simp [hcall, h.not_waits]
  · simp [hcall, hwaits]
  · simp [hcall, hnot.2]

/-! ## Reading the table -/

open ArpPipe (Setting program init)

/-- A call that returns has closed everything. -/
theorem closes_ofBytes {capacity : Nat} {m : Machine} {rth : RtnlHandle}
    {getByName : List Char → Option InetAddress} {malformed : List UInt8 → List Char} :
    (Setting.ofBytes capacity env m rth getByName malformed).Closes := by
  intro code hok
  obtain ⟨rfl, hanswered⟩ := (call_eq_ok_iff env m rth).mp hok
  refine ⟨rfl, ?_⟩
  rcases call_cases env m rth with ⟨-, p, hcall, hclosed⟩ | ⟨hwaits, -⟩ | ⟨hnot, -⟩
  · rw [show (Setting.ofBytes capacity env m rth getByName malformed).call = _ from hcall]
    exact hclosed
  · exact absurd hwaits hanswered.not_waits
  · exact absurd hanswered hnot.1

/-- **What is accepted.** Whatever bytes come from the netlink socket: every run of the program
    that reads the ARP table leads on to one that can go no further.  It has then returned if and
    only if the steps of `nativeIPNeigh` up to the dump succeed, the bytes are whole messages, one
    behind the other, up to a `DONE` without an error, and there is room in the pipe for all that
    is written.  In that case the socket and the pipe are closed and nothing is left in the pipe.
    With that room the process has exited, with status 1, if and only if something else happens
    than this or a dump in which nothing is wrong but the `DONE` does not come.  Otherwise the
    program hangs, in `recvmsg` for that `DONE` or in a write for room in the pipe. -/
theorem returns_iff (capacity : Nat) (env : NeighEnv) (m : Machine) (rth : RtnlHandle)
    (getByName : List Char → Option InetAddress) (malformed : List UInt8 → List Char)
    {ls : List Unit} {s : ArpPipe.State}
    (hrun : (program (.ofBytes capacity env m rth getByName malformed)).run
      (init (.ofBytes capacity env m rth getByName malformed)) ls = some s) :
    (∃ ks t, (program (.ofBytes capacity env m rth getByName malformed)).run s ks = some t ∧
      (program (.ofBytes capacity env m rth getByName malformed)).Terminal t) ∧
    ((program (.ofBytes capacity env m rth getByName malformed)).Terminal s →
      ((∃ hosts, s.pc = .returned hosts) ↔
        m.Answered ∧ (ArpPipe.written (call env m rth).2.calls).length ≤ capacity) ∧
      ((∃ hosts, s.pc = .returned hosts) →
        s.pipe = [] ∧ s.descriptors = { pipe := false, sockets := 0 }) ∧
      ((∃ status, s.pc = .exited status) ↔ ¬ m.Answered ∧ ¬ m.Waits ∧
        (ArpPipe.written (call env m rth).2.calls).length ≤ capacity) ∧
      (∀ status, s.pc = .exited status → status = 1) ∧
      (s.isFinal = false → (m.Waits ∧ s.pc = .native []) ∨
        (capacity < (ArpPipe.written (call env m rth).2.calls).length ∧
          ∃ b bytes calls, s.pc = .native (.write (b :: bytes) :: calls)))) := by
  refine ⟨ArpPipe.exists_terminal _ s, fun hterm => ?_⟩
  cases ArpPipe.end_of_terminal closes_ofBytes (ArpPipe.flow_of_run closes_ofBytes hrun) hterm with
  | returned hfits hcall hs =>
    have hanswered := ((call_eq_ok_iff env m rth).mp hcall).2
    subst hs
    exact ⟨iff_of_true ⟨_, rfl⟩ ⟨hanswered, hfits⟩, fun _ => ⟨rfl, rfl⟩,
      iff_of_false (by simp) fun h => h.1 hanswered, by simp, by simp [ArpPipe.State.isFinal]⟩
  | exited hfits hcall hpc =>
    obtain ⟨rfl, hanswered, hwaits⟩ := (call_eq_exit_iff env m rth).mp hcall
    rw [ArpPipe.State.isFinal, hpc]
    exact ⟨iff_of_false (by simp) fun h => hanswered h.1, by simp,
      iff_of_true ⟨1, rfl⟩ ⟨hanswered, hwaits, hfits⟩,
      fun status h => (ArpPipe.Pc.exited.inj h).symm, by simp⟩
  | waits hfits hcall hpc =>
    have hwaits := (call_eq_blocked_iff env m rth).mp hcall
    rw [hpc]
    exact ⟨iff_of_false (by simp) fun h => h.1.not_waits hwaits, by simp,
      iff_of_false (by simp) fun h => h.2.1 hwaits, by simp, fun _ => .inl ⟨hwaits, rfl⟩⟩
  | full hfull hpc =>
    -- a full pipe blocks the program, whatever the call would come to
    have hroom : ¬ (ArpPipe.written (call env m rth).2.calls).length ≤ capacity :=
      Nat.not_le_of_lt hfull
    rw [hpc]
    exact ⟨iff_of_false (by simp) fun h => hroom h.2, by simp,
      iff_of_false (by simp) fun h => hroom h.2.2, by simp,
      fun _ => .inr ⟨hfull, _, _, _, rfl⟩⟩

/-- The bytes of a neighbour, with three bytes too many behind it, exit the process. -/
theorem returns_iff_remnant : ∃ ls s,
    (program (.ofBytes 65536 plainEnv remnantMachine ⟨-1, 0, 0⟩ (fun _ => none) fun _ => [])).run
      (init (.ofBytes 65536 plainEnv remnantMachine ⟨-1, 0, 0⟩ (fun _ => none) fun _ => [])) ls =
        some s ∧ s.pc = .exited 1 := by
  obtain ⟨ls, s, hrun, hterm⟩ := ArpPipe.exists_terminal
    (.ofBytes 65536 plainEnv remnantMachine ⟨-1, 0, 0⟩ (fun _ => none) fun _ => []) _
  obtain ⟨-, -, hexits, hstatus, -⟩ := (returns_iff _ _ _ _ _ _ hrun).2 hterm
  have hcall : (call plainEnv remnantMachine ⟨-1, 0, 0⟩).1 = .error (.exit 1) := by decide
  obtain ⟨-, hanswered, hwaits⟩ := (call_eq_exit_iff _ _ _).mp hcall
  obtain ⟨status, hpc⟩ := hexits.mpr ⟨hanswered, hwaits, by decide⟩
  rw [hstatus status hpc] at hpc
  exact ⟨ls, s, hrun, hpc⟩

end LanScan.Android.Netlink
