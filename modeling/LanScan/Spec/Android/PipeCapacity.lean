import LanScan.Native.Android.ArpPipe
import LanScan.Spec.Android.ArpRoundTrip
import LanScan.Spec.Android.NativeIPNeighCorrect

/-!
# The capacity of the pipe (Android)

The native side writes the whole neighbour table before the Kotlin side starts to
read, so the table has to fit into the pipe.  `Flow` follows the bytes from the
printer through the pipe to the reader.

## Key results

- `flow_of_run`: no byte is lost or reordered on the way
- `end_of_terminal`: how the program ends, and where it hangs
- `never_blocked_iff`: the program never hangs exactly when the table fits
-/

namespace LanScan.Android.ArpPipe

open NativeIPNeigh

variable {x : Setting} {cfg : Config} {s s' : State}

/-! ## Transitions -/

/-- The transitions of the program. -/
inductive Transition (x : Setting) (s : State) : State → Prop
  | byte {b bytes calls} (hpc : s.pc = .native (.write (b :: bytes) :: calls))
      (hroom : s.pipe.length < x.capacity) :
      Transition x s
        { s with pc := .native (.write bytes :: calls), pipe := s.pipe ++ [b] }
  | call {c calls} (hpc : s.pc = .native (c :: calls)) (hc : ∀ b bytes, c ≠ .write (b :: bytes)) :
      Transition x s { s with pc := .native calls, descriptors := s.descriptors.after c }
  | returns {returnCode} (hpc : s.pc = .native []) (hok : x.call.1 = .ok returnCode) :
      Transition x s { s with pc := .checking returnCode }
  | exits {status} (hpc : s.pc = .native []) (hexit : x.call.1 = .error (.exit status)) :
      Transition x s { s with pc := .exited status }
  | check {returnCode} (hpc : s.pc = .checking returnCode) :
      Transition x s { s with pc := if returnCode ≠ 0 then .returned [] else .reading [] }
  | read {b pipe bytes} (hpc : s.pc = .reading bytes) (hpipe : s.pipe = b :: pipe) :
      Transition x s { s with pc := .reading (bytes ++ [b]), pipe := pipe }
  | parse {bytes} (hpc : s.pc = .reading bytes) (hpipe : s.pipe = [])
      (hclosed : s.descriptors.pipe = false) :
      Transition x s
        { s with pc := .returned (parseAndExtractValidArpFromInputStream x.getByName 0
            (bytes.utf8Text?.getD (x.malformed bytes))) }

/-- The transitions are the steps of the program. -/
theorem transition_of_step (l : Unit) (h : step x s l = some s') : Transition x s s' := by
  unfold step at h
  split at h
  -- Inside the call: it has ended, or the next byte waits for room.
  · rename_i hpc
    split at h
    · rename_i hok; cases h; exact .returns hpc hok
    · rename_i hexit; cases h; exact .exits hpc hexit
    · cases h
  · rename_i hpc
    split at h
    · rename_i hroom; cases h; exact .byte hpc hroom
    · cases h
  · rename_i hc hpc
    cases h
    exact .call hpc fun b bytes hw => hc b bytes hw
  · rename_i hpc; cases h; exact .check hpc
  · rename_i hpc
    split at h
    · rename_i hpipe; cases h; exact .read hpc hpipe
    · rename_i hpipe
      split at h
      · cases h
      · rename_i hopen; cases h; exact .parse hpc hpipe (by simpa using hopen)
  · cases h
  · cases h

/-! ## The flow of the bytes -/

/-- The bytes that system calls write to the pipe. -/
def written (calls : List Syscall) : List UInt8 :=
  calls.flatMap fun
    | .write bytes => bytes
    | .openSocket | .closeSocket | .closePipe => []

/-- All bytes that go through the pipe. -/
def Setting.written (x : Setting) : List UInt8 := ArpPipe.written x.call.2.calls

/-- The hosts that the reader extracts from all these bytes. -/
def Setting.hosts (x : Setting) : List Host :=
  parseAndExtractValidArpFromInputStream x.getByName 0
    (x.written.utf8Text?.getD (x.malformed x.written))

/-- No descriptor of the call is open. -/
abbrev closed : Descriptors := { pipe := false, sockets := 0 }

/-- When the call returns it returns 0, with everything closed. -/
def Setting.Closes (x : Setting) : Prop :=
  ∀ code, x.call.1 = .ok code → code = 0 ∧ x.call.2.descriptors = closed

/-- A call that returns has closed everything. -/
theorem closes_setting (cfg : Config) : cfg.setting.Closes := fun _ hok => closed_of_ok hok

/-- Where the bytes are, phase by phase. -/
def Flow (x : Setting) (s : State) : Prop :=
  s.pipe.length ≤ x.capacity ∧
    match s.pc with
    | .native calls =>
      s.pipe ++ written calls = x.written ∧
        calls.foldl Descriptors.after s.descriptors = x.call.2.descriptors
    | .checking returnCode =>
      s.pipe = x.written ∧ s.descriptors = x.call.2.descriptors ∧ x.call.1 = .ok returnCode
    | .reading bytes =>
      bytes ++ s.pipe = x.written ∧ x.written.length ≤ x.capacity ∧
        s.descriptors = x.call.2.descriptors ∧ x.call.1 = .ok 0
    | .returned hosts =>
      hosts = x.hosts ∧ s.pipe = [] ∧ x.written.length ≤ x.capacity ∧
        s.descriptors = x.call.2.descriptors ∧ x.call.1 = .ok 0
    | .exited status => x.written.length ≤ x.capacity ∧ x.call.1 = .error (.exit status)

/-- Nothing has been written at first. -/
theorem flow_init (x : Setting) : Flow x (init x) := ⟨Nat.zero_le _, rfl, rfl⟩

/-- Every byte that is written is in the pipe or has been read. -/
theorem flow_step (hx : x.Closes) (hf : Flow x s) (h : Transition x s s') : Flow x s' := by
  obtain ⟨hroom, hphase⟩ := hf
  cases h with
  | @byte b bytes calls hpc hfree =>
    rw [hpc] at hphase
    refine ⟨by simp only [List.length_append, List.length_singleton]; omega, ?_, hphase.2⟩
    rw [← hphase.1]
    simp [written]
  | @call c calls hpc hc =>
    rw [hpc] at hphase
    refine ⟨hroom, ?_, hphase.2⟩
    -- what is not a write, or has nothing left to write, moves no byte
    have hnone : written (c :: calls) = written calls := by
      cases c with
      | write bytes =>
        cases bytes with
        | nil => simp [written]
        | cons b bytes => exact absurd rfl (hc b bytes)
      | _ => simp [written]
    rw [← hphase.1, hnone]
  | returns hpc hok =>
    rw [hpc] at hphase
    obtain ⟨hbytes, hdescriptors⟩ := hphase
    refine ⟨hroom, ?_, hdescriptors, hok⟩
    simpa [written] using hbytes
  | exits hpc hexit =>
    rw [hpc] at hphase
    refine ⟨hroom, ?_, hexit⟩
    rw [← hphase.1]
    simpa [written] using hroom
  | @check returnCode hpc =>
    rw [hpc] at hphase
    obtain ⟨hbytes, hdescriptors, hok⟩ := hphase
    -- a call that returns returns 0
    obtain rfl : returnCode = 0 := (hx _ hok).1
    refine ⟨hroom, hbytes, ?_, hdescriptors, hok⟩
    rw [← hbytes]
    exact hroom
  | @read b pipe bytes hpc hpipe =>
    rw [hpc, hpipe] at hphase
    rw [hpipe, List.length_cons] at hroom
    refine ⟨by simp only; omega, ?_, hphase.2⟩
    rw [← hphase.1]
    simp
  | @parse bytes hpc hpipe hclosed =>
    rw [hpc, hpipe] at hphase
    obtain ⟨hbytes, hfits⟩ := hphase
    rw [List.append_nil] at hbytes
    exact ⟨hroom, by rw [hbytes]; rfl, hpipe, hfits⟩

/-- In every reachable state the bytes are accounted for. -/
theorem flow_of_run (hx : x.Closes) {ls : List Unit}
    (h : (program x).run (init x) ls = some s) : Flow x s :=
  (program x).run_invariant (Flow x)
    (fun _ l _ hf hs => flow_step hx hf (transition_of_step l hs)) (flow_init x) h

/-! ## Blocking -/

/-- The steps that the program has still to take. -/
def remaining (s : State) : Nat :=
  match s.pc with
  | .native calls => 2 * (written calls).length + calls.length + s.pipe.length + 3
  | .checking _ => s.pipe.length + 2
  | .reading _ => s.pipe.length + 1
  | .returned _ | .exited _ => 0

/-- Each step leaves less to be done. -/
theorem remaining_step (h : Transition x s s') : remaining s' < remaining s := by
  cases h with
  -- A byte written, a call made: each leaves less to write.
  | byte hpc => simp [remaining, hpc, written]; omega
  | @call c calls hpc => simp [remaining, hpc, written]; omega
  | returns hpc => simp only [remaining, hpc]; omega
  | exits hpc => simp [remaining, hpc]
  -- The checked return code decides whether the pipe is read at all.
  | @check returnCode hpc =>
    by_cases hcode : returnCode = 0
    · simp [remaining, hpc, hcode]
    · simp [remaining, hpc, hcode]
  | read hpc hpipe => simp [remaining, hpc, hpipe]
  | parse hpc => simp [remaining, hpc]

/-- Every run leads on to one that has come to an end, or hangs. -/
theorem exists_terminal (x : Setting) (s : State) :
    ∃ ls t, (program x).run s ls = some t ∧ (program x).Terminal t :=
  (program x).exists_run_terminal
    (fun _ l _ hs => remaining_step (transition_of_step l hs)) s

/-- How the program ends. -/
inductive End (x : Setting) (s : State) : Prop
  | returned {code} (hfits : x.written.length ≤ x.capacity) (hcall : x.call.1 = .ok code)
      (hs : s = { pc := .returned x.hosts, pipe := [], descriptors := closed })
  | exited {status} (hfits : x.written.length ≤ x.capacity)
      (hcall : x.call.1 = .error (.exit status)) (hpc : s.pc = .exited status)
  /-- it waits for the kernel -/
  | waits (hfits : x.written.length ≤ x.capacity) (hcall : x.call.1 = .error .blocked)
      (hpc : s.pc = .native [])
  /-- a byte waits in front of the full pipe -/
  | full {b bytes calls} (hfull : x.capacity < x.written.length)
      (hpc : s.pc = .native (.write (b :: bytes) :: calls))

/-- **The end.** When no step is possible any more, the program has come to an end or hangs. -/
theorem end_of_terminal (hx : x.Closes) (hf : Flow x s) (hterm : (program x).Terminal s) :
    End x s := by
  have hstep : step x s () = none := hterm ()
  obtain ⟨pc, pipe, descriptors⟩ := s
  obtain ⟨hroom, hphase⟩ := hf
  cases pc with
  | native calls =>
    obtain ⟨hbytes, -⟩ := hphase
    cases calls with
    | nil =>
      have hpipe : pipe = x.written := by simpa [written] using hbytes
      simp only [step] at hstep
      split at hstep
      · cases hstep
      · cases hstep
      · next hblocked => exact .waits (hpipe ▸ hroom) hblocked rfl
    | cons c calls =>
      cases c with
      | write bytes =>
        cases bytes with
        | nil => cases hstep
        | cons b bytes =>
          simp only [step] at hstep
          split at hstep
          · cases hstep
          · next hfull =>
            -- the full pipe and the byte that waits make more than fits
            have hlength := congrArg List.length hbytes
            simp only [written, List.flatMap_cons, List.length_append, List.length_cons] at hlength
            exact .full (by omega) rfl
      | _ => cases hstep
  | checking returnCode => cases hstep
  | reading bytes =>
    obtain ⟨-, -, hdescriptors, hok⟩ := hphase
    -- the write side was closed before `nativeIPNeigh` returned
    have hpipe : descriptors.pipe = false := by
      rw [show descriptors = _ from hdescriptors, (hx _ hok).2]
    cases pipe with
    | nil => simp [step, hpipe] at hstep
    | cons b pipe => cases hstep
  | returned hosts =>
    obtain ⟨hhosts, hpipe, hfits, hdescriptors, hok⟩ := hphase
    refine .returned hfits hok ?_
    simp only at hpipe hdescriptors
    rw [hhosts, hpipe, hdescriptors, (hx _ hok).2]
  | exited status =>
    obtain ⟨hfits, hexit⟩ := hphase
    exact .exited hfits hexit rfl

/-- The program never hangs exactly when all that is written fits into the pipe. -/
theorem never_blocked_iff_written (hx : x.Closes) (hcall : x.call.1 ≠ .error .blocked) :
    (∀ (ls : List Unit) (s : State), (program x).run (init x) ls = some s →
      s.isFinal = true ∨ ¬ (program x).Terminal s) ↔
    x.written.length ≤ x.capacity := by
  constructor
  · intro h
    -- the run to the end is final only if the writer was never full
    obtain ⟨ls, s, hrun, hterm⟩ := exists_terminal x (init x)
    have hfinal := (h ls s hrun).resolve_right (not_not_intro hterm)
    cases end_of_terminal hx (flow_of_run hx hrun) hterm with
    | returned hfits | exited hfits | waits hfits => exact hfits
    | full hfull hpc =>
      rw [State.isFinal, hpc] at hfinal
      cases hfinal
  · intro hfits ls s hrun
    refine Classical.or_iff_not_imp_right.mpr fun hterm => ?_
    rw [Classical.not_not] at hterm
    -- with room the writer is never full, and the call does not wait
    cases end_of_terminal hx (flow_of_run hx hrun) hterm with
    | returned hfits hok hs => rw [hs]; rfl
    | exited hfits hexit hpc => rw [State.isFinal, hpc]
    | waits hfits hblocked => exact absurd hblocked hcall
    | full hfull => omega

/-! ## Neighbour tables -/

/-- What two groups of calls write is what each writes. -/
theorem written_append (calls calls' : List Syscall) :
    written (calls ++ calls') = written calls ++ written calls' :=
  List.flatMap_append

/-- What is flushed is what has been printed. -/
theorem written_flushCalls (texts : List (List Char)) :
    written (texts.flatMap flushCalls) = texts.flatten.utf8Bytes := by
  induction texts with
  | nil => rfl
  | cons text texts ih =>
    have htext : written (flushCalls text) = text.utf8Bytes := by
      -- An empty text makes no write at all.
      unfold flushCalls
      split
      · next hempty => rw [hempty]; rfl
      · exact List.append_nil _
    rw [List.flatMap_cons, written_append, ih, htext]
    exact List.flatMap_append.symm

/-- What is written for a table is the text of its entries. -/
theorem written_of_delivers {table : List NeighMsg} (h : cfg.kernel.Delivers table) :
    cfg.setting.written = (doShowOrFlush cfg.env table).utf8Bytes := by
  have hcall : cfg.setting.call = _ := call_of_delivers cfg.env cfg.rth h
  have hflushed := written_flushCalls (table.map (printNeigh cfg.env showFilter))
  have hclose : written [.closeSocket, .closePipe] = [] := rfl
  rw [← List.flatMap_def, ← doShowOrFlush] at hflushed
  rw [Setting.written, hcall, written_append, hclose, List.append_nil]
  exact hflushed

/-- A call that delivers a table does not wait for the kernel. -/
theorem ne_blocked_of_delivers {table : List NeighMsg} (h : cfg.kernel.Delivers table) :
    cfg.setting.call.1 ≠ .error .blocked := by
  have hcall : cfg.setting.call = _ := call_of_delivers cfg.env cfg.rth h
  rw [hcall]
  simp

/-- **Progress.** When the native steps succeed, no reachable state of the program is
    stuck if and only if the text of the neighbour table fits into the pipe. -/
theorem never_blocked_iff (cfg : Config) (table : List NeighMsg) (h : cfg.kernel.Delivers table) :
    (∀ (ls : List Unit) (s : State), (program cfg).run (init cfg) ls = some s →
      s.isFinal = true ∨ ¬ (program cfg).Terminal s) ↔
    (doShowOrFlush cfg.env table).utf8Bytes.length ≤ cfg.capacity := by
  rw [never_blocked_iff_written (closes_setting cfg) (ne_blocked_of_delivers h),
    written_of_delivers h]
  rfl

/-- What the reader extracts is what it makes of the printed table. -/
theorem hosts_of_delivers {table : List NeighMsg} (h : cfg.kernel.Delivers table) :
    cfg.setting.hosts = parseAndExtractValidArpFromInputStream cfg.getByName 0
      (doShowOrFlush cfg.env table) := by
  rw [Setting.hosts, written_of_delivers h, List.utf8Text?_utf8Bytes]
  rfl

/-- A program that has come to an end has read the whole table. -/
theorem returned_of_delivers {table : List NeighMsg} (h : cfg.kernel.Delivers table)
    {ls : List Unit} (hrun : (program cfg).run (init cfg) ls = some s)
    (hterm : (program cfg).Terminal s)
    (hfits : (doShowOrFlush cfg.env table).utf8Bytes.length ≤ cfg.capacity) :
    s = { pc := .returned (parseAndExtractValidArpFromInputStream cfg.getByName 0
            (doShowOrFlush cfg.env table))
          pipe := [], descriptors := closed } := by
  have hx := closes_setting cfg
  have hcall : cfg.setting.call = _ := call_of_delivers cfg.env cfg.rth h
  -- Of the four ends only the return is left: the table fits into the pipe.
  cases end_of_terminal hx (flow_of_run hx hrun) hterm with
  | returned _ _ hs => rw [hs, hosts_of_delivers h]
  | exited _ hexit => rw [hcall] at hexit; cases hexit
  | waits _ hblocked => exact absurd hblocked (ne_blocked_of_delivers h)
  | full hfull =>
    rw [written_of_delivers h] at hfull
    exact absurd hfits (Nat.not_le_of_lt hfull)

/-- One that can go no further without room for the table hangs in a write. -/
theorem exists_write_of_delivers {table : List NeighMsg} (h : cfg.kernel.Delivers table)
    {ls : List Unit} (hrun : (program cfg).run (init cfg) ls = some s)
    (hterm : (program cfg).Terminal s)
    (hfull : cfg.capacity < (doShowOrFlush cfg.env table).utf8Bytes.length) :
    ∃ b bytes calls, s.pc = .native (.write (b :: bytes) :: calls) := by
  have hx := closes_setting cfg
  rw [← written_of_delivers h] at hfull
  cases end_of_terminal hx (flow_of_run hx hrun) hterm with
  | returned hfits | exited hfits | waits hfits => exact absurd hfits (Nat.not_le_of_lt hfull)
  | full _ hpc => exact ⟨_, _, _, hpc⟩

/-- A datagram with one message. -/
def sent (body : NlBody) : Datagram where
  nlPid := 0
  messages := [{ nlmsgSeq := 1, body }]
  remnant := false
  truncated := false

/-- A kernel that sends a table entry by entry. -/
def tableKernel (table : List NeighMsg) : Kernel where
  fdopen := true
  socket := 3
  setSndbuf := 0
  setRcvbuf := 0
  getsockname := 0
  addrLen := sizeofSockaddrNl
  nlFamily := afNetlink
  time := 0
  sendmsg := 28
  recvmsg := table.map (fun n => .datagram (sent (.neigh n))) ++ [.datagram (sent (.done (some 0)))]

/-- This kernel delivers the table. -/
theorem delivers_tableKernel (table : List NeighMsg) : (tableKernel table).Delivers table where
  fdopen := rfl
  opens := ⟨show (0 : Int32) ≤ 3 by decide, Int32.le_refl 0, Int32.le_refl 0, Int32.le_refl 0,
    rfl, rfl⟩
  sendmsg := show (0 : Int32) ≤ 28 by decide
  reply := by
    show Reply 1 (table.map (fun n => .datagram (sent (.neigh n))) ++
      [.datagram (sent (.done (some 0)))]) table
    -- One datagram for each neighbour, and the done message in one of its own.
    induction table with
    | nil =>
      have hd : accepted 1 0 (sent (.done (some 0))).messages =
        [].map .neigh ++ .done (some 0) :: [] := rfl
      exact .last hd (by decide)
    | cons n table ih =>
      have hd : accepted 1 0 (sent (.neigh n)).messages = [n].map .neigh := rfl
      exact .part (d := sent (.neigh n)) hd (.inr rfl) ih

/-- A pipe of the default capacity in a small network. -/
def wlanConfig : Config where
  capacity := 65536
  env := wlanEnv
  kernel := tableKernel (wlanTable.map fun e => e.msg)
  rth := ⟨-1, 0, 0⟩
  getByName _ := none
  malformed _ := []

/-- The table of the wireless network fits. -/
theorem never_blocked_wlan :
    (∀ (ls : List Unit) (s : State), (program wlanConfig).run (init wlanConfig) ls = some s →
      s.isFinal = true ∨ ¬ (program wlanConfig).Terminal s) ↔
    (doShowOrFlush wlanEnv (wlanTable.map fun e => e.msg)).utf8Bytes.length ≤ 65536 :=
  never_blocked_iff wlanConfig _ (delivers_tableKernel _)

/-! ## A table that is too long -/

/-- Six bytes are printed as seventeen characters. -/
theorem length_macText {lladdr : List UInt8} (h : lladdr.length = 6) :
    (macText lladdr).length = 17 := by
  cases lladdr with
  | nil => cases h
  | cons b addr =>
    rw [List.length_cons] at h
    rw [macText_cons]
    simp [hexByte, List.length_flatMap]
    omega

/-- An entry with a link-layer address takes a line of at least 38 characters. -/
theorem length_printNeigh_ge {env : NeighEnv} (e : Neighbour env) (hlladdr : e.lladdr ≠ none)
    (hnoarp : e.nud ≠ .noarp) : 38 ≤ (printNeigh env showFilter e.msg).length := by
  obtain ⟨lladdr, hlladdr⟩ := Option.ne_none_iff_exists'.mp hlladdr
  have hmac := length_macText (e.length_lladdr lladdr hlladdr)
  have hifname := List.length_pos_iff.mpr e.isWord_ifname.ne_nil
  have hstate : 5 ≤ e.nud.name.length := by cases e.nud <;> decide
  rw [e.printNeigh_eq, if_neg hnoarp, NeighEntry.line]
  simp only [NeighEntry.fields, e.mac_eq, hlladdr, Option.map_some]
  have hname : e.ifname.length = (env.llIndexToName e.msg.ndmIfindex.toUInt32).length := rfl
  cases e.isRouter <;> simp [hmac] <;> omega

/-- The text of a table is at least as long as its lines. -/
theorem mul_length_le_doShowOrFlush {env : NeighEnv} {entries : List (Neighbour env)} {n : Nat}
    (h : ∀ e ∈ entries, n ≤ (printNeigh env showFilter e.msg).length) :
    n * entries.length ≤ (doShowOrFlush env (entries.map fun e => e.msg)).length := by
  induction entries with
  | nil => simp
  | cons e entries ih =>
    have ih' := ih fun x hx => h x (List.mem_cons_of_mem e hx)
    have he := h e List.mem_cons_self
    simp only [doShowOrFlush] at ih' ⊢
    simp only [List.map_cons, List.flatMap_cons, List.length_append, List.length_cons, Nat.mul_add]
    omega

/-- The IPv4 and the IPv6 entry of one of many hosts. -/
def crowdedEntries (i : Nat) : List (Neighbour wlanEnv) :=
  let hi := UInt8.ofNat (i / 256)
  let lo := UInt8.ofNat i
  [wlanEntry afInet [10, 0, hi, lo] (some [2, 0, 0, 0, hi, lo]) .stale 0
      (.inl ⟨rfl, rfl⟩) (by simp) zero_and_ntfProxy,
    wlanEntry afInet6 [0x20, 1, 0xD, 0xB8, 0, 0, 0, 0, 0, 0, 0, 0, 0, 0, hi, lo]
      (some [2, 0, 0, 0, hi, lo]) .stale 0 (.inr ⟨rfl, rfl⟩) (by simp) zero_and_ntfProxy]

/-- As many entries as the kernel keeps by default: 1024 for each protocol. -/
def crowdedTable : List (Neighbour wlanEnv) := (List.range 1024).flatMap crowdedEntries

/-- The table has 2048 entries. -/
theorem length_crowdedTable : crowdedTable.length = 2048 := by
  have hlength (n : Nat) : ((List.range n).flatMap crowdedEntries).length = 2 * n := by
    induction n with
    | zero => rfl
    | succ n ih =>
      rw [List.range_succ, List.flatMap_append, List.length_append, ih]
      simp [crowdedEntries]
      omega
  exact hlength 1024

/-- A crowded network and a pipe of the default capacity. -/
def crowdedConfig : Config where
  capacity := 65536
  env := wlanEnv
  kernel := tableKernel (crowdedTable.map fun e => e.msg)
  rth := ⟨-1, 0, 0⟩
  getByName _ := none
  malformed _ := []

/-- The native side hangs on a table of 2048 entries. -/
theorem blocked_by_crowd : ¬ ∀ (cfg : Config) (table : List NeighMsg), cfg.capacity = 65536 →
    cfg.kernel.Delivers table →
    ∀ (ls : List Unit) (s : State), (program cfg).run (init cfg) ls = some s →
      s.isFinal = true ∨ ¬ (program cfg).Terminal s := by
  intro h
  have hdelivers : crowdedConfig.kernel.Delivers (crowdedTable.map fun e => e.msg) :=
    delivers_tableKernel _
  -- without a hang the text of the table would fit into the pipe
  have hfits := (never_blocked_iff_written (closes_setting crowdedConfig)
    (ne_blocked_of_delivers hdelivers)).mp (h crowdedConfig _ rfl hdelivers)
  rw [written_of_delivers hdelivers] at hfits
  -- but each entry prints 38 characters at least
  have hlines : ∀ e ∈ crowdedTable, 38 ≤ (printNeigh wlanEnv showFilter e.msg).length := by
    intro e he
    obtain ⟨i, -, hi⟩ := List.mem_flatMap.mp he
    simp only [crowdedEntries, List.mem_cons, List.not_mem_nil, or_false] at hi
    have hstale : NudState.stale ≠ .noarp := by decide
    rcases hi with rfl | rfl
    · exact length_printNeigh_ge _ (Option.some_ne_none _) hstale
    · exact length_printNeigh_ge _ (Option.some_ne_none _) hstale
  have htext := mul_length_le_doShowOrFlush hlines
  rw [length_crowdedTable] at htext
  have hbytes := List.length_le_length_utf8Bytes
    (doShowOrFlush wlanEnv (crowdedTable.map fun e => e.msg))
  have hcapacity : crowdedConfig.setting.capacity = 65536 := rfl
  have henv : crowdedConfig.env = wlanEnv := rfl
  rw [hcapacity, henv] at hfits
  omega

end LanScan.Android.ArpPipe
