import LanScan.ForStd.Interleaving
import LanScan.Spec.Android.HostNames
import LanScan.Spec.Android.MDNSDecode

/-!
# The sockets of the resolvers

`resolveHostName` closes its resolver by hand, on every path but one: an exception of
`resolve` that is no `IOException`.  NetBIOS never raises one, and mDNS does for datagrams
that it decodes and that have no name.

## Key results

- `closesOnce_iff`: when a resolver is closed
- `isUncaught_mdns_iff`: which datagrams keep it from being closed
- `closes_all_iff`: when a scan leaves no socket open
-/

namespace LanScan.Android.ProcessHost

/-! ## One resolver -/

/-- `resolveHostName` calls `close` once, returning or not. -/
def ClosesOnce (network : Network) (host : Host) (resolver : Resolver) : Prop :=
  (finalState (resolveHostName network resolver) { host := host }).calls.count (.close resolver) = 1

/-- A resolver is closed if and only if its `resolve` raises nothing but an
    `IOException`. -/
theorem closesOnce_iff {network : Network} {host : Host} {resolver : Resolver} :
    ClosesOnce network host resolver ↔ ∀ add, network.getByName host.ip.toList = some add →
      ¬ IsUncaught (network.resolve resolver add) := by
  unfold ClosesOnce
  cases hadd : network.getByName host.ip.toList with
  -- without an address there is no request
  | none =>
    rw [finalState, resolveHostName_of_getByName_eq_none hadd]
    simp [HostState.called]
  | some add =>
    -- with one it depends on what the request comes to
    have hrun : finalState (resolveHostName network resolver) { host := host } =
        finalState (settle resolver (network.resolve resolver add))
          (HostState.called { host := host } [.resolve resolver]) := by
      rw [finalState, resolveHostName_eq hadd]
      rfl
    rw [hrun, calls_settle]
    by_cases huncaught : IsUncaught (network.resolve resolver add)
    · simp [huncaught, HostState.called]
    · simp [huncaught, HostState.called]

/-! ## The sockets of a host -/

/-- The resolver that is called. -/
def Call.resolver : Call → Resolver
  | .created resolver | .resolve resolver | .close resolver => resolver

/-- The socket is there, and not closed. -/
def isOpen (resolver : Resolver) (calls : List Call) : Bool :=
  calls.foldl (fun wasOpen c =>
    if c = .created resolver then true
    else if c = .close resolver then false
    else wasOpen) false

/-- The calls of another resolver do not count. -/
theorem isOpen_filter (resolver : Resolver) (calls : List Call) :
    isOpen resolver (calls.filter fun c => c.resolver = resolver) = isOpen resolver calls := by
  rw [isOpen, List.foldl_filter, isOpen]
  congr 1
  funext wasOpen c
  -- Calls of other resolvers leave this one's socket as it is.
  by_cases h : c.resolver = resolver
  · simp [h]
  · have hcreated : c ≠ .created resolver := by
      rintro rfl
      exact h rfl
    have hclose : c ≠ .close resolver := by
      rintro rfl
      exact h rfl
    simp [h, hcreated, hclose]

/-- The socket of a lookup is never closed: an exception is raised behind its creation. -/
def LeavesOpen (network : Network) (resolver : Resolver) (add : InetAddress) : Prop :=
  (∃ e, network.construct resolver = .initRaises e) ∨
    network.construct resolver = .constructed ∧ IsUncaught (network.resolve resolver add)

section ProcessHost

variable {network : Network} {host : Host} {add : InetAddress}

/-- A lookup leaves its resolver open if the resolver can stay open. -/
theorem isOpen_lookupCalls {resolver : Resolver} :
    isOpen resolver (lookupCalls network resolver add) = true ↔
      LeavesOpen network resolver add := by
  unfold lookupCalls LeavesOpen
  cases network.construct resolver with
  | socketRaises e => simp [isOpen]
  | initRaises e => simp [isOpen]
  | constructed =>
    by_cases huncaught : IsUncaught (network.resolve resolver add)
    · simp [isOpen, huncaught]
    · simp [isOpen, huncaught]

/-- A lookup calls its own resolver only. -/
theorem resolver_of_mem_lookupCalls {resolver : Resolver} {c : Call}
    (h : c ∈ lookupCalls network resolver add) : c.resolver = resolver := by
  unfold lookupCalls at h
  split at h
  · cases h
  · rw [List.mem_singleton.mp h]
    rfl
  · split at h <;> simp only [List.mem_cons, List.not_mem_nil, or_false] at h <;>
      rcases h with rfl | rfl | rfl <;> rfl

/-- All calls of a lookup are on its resolver. -/
theorem filter_lookupCalls_self (resolver : Resolver) :
    (lookupCalls network resolver add).filter (fun c => c.resolver = resolver) =
      lookupCalls network resolver add :=
  List.filter_eq_self.mpr fun _ hc => decide_eq_true (resolver_of_mem_lookupCalls hc)

/-- No call of a lookup is on another resolver. -/
theorem filter_lookupCalls_of_ne {resolver resolver' : Resolver} (hne : resolver' ≠ resolver) :
    (lookupCalls network resolver' add).filter (fun c => c.resolver = resolver) = [] := by
  rw [List.filter_eq_nil_iff]
  intro c hc
  rw [resolver_of_mem_lookupCalls hc, decide_eq_true_eq]
  exact hne

/-- What `processHost` leaves open. -/
theorem isOpen_processHost_eq_false_iff (hadd : network.getByName host.ip.toList = some add)
    (hname : network.canonicalHostName add ≠ "") :
    (∀ resolver, isOpen resolver (processHost network host).calls = false) ↔
      ¬ LeavesOpen network .mdns add ∧
        (GivesNoName network .mdns add → ¬ LeavesOpen network .netBIOS add) := by
  have hresolvers {p : Resolver → Prop} : (∀ resolver, p resolver) ↔ p .mdns ∧ p .netBIOS :=
    ⟨fun h => ⟨h _, h _⟩, fun h resolver => by cases resolver; exacts [h.1, h.2]⟩
  -- the mDNS resolver is the matter of the first lookup
  have hmdns : isOpen .mdns (processHost network host).calls =
      isOpen .mdns (lookupCalls network .mdns add) := by
    rw [← isOpen_filter, calls_processHost hadd hname, List.filter_append, filter_lookupCalls_self]
    split
    · rw [filter_lookupCalls_of_ne (by decide), List.append_nil]
    · rw [List.filter_nil, List.append_nil]
  rw [hresolvers, hmdns, ← Bool.not_eq_true, isOpen_lookupCalls, and_congr_right_iff]
  intro _
  rw [← isOpen_filter, calls_processHost hadd hname, List.filter_append,
    filter_lookupCalls_of_ne (by decide), List.nil_append, ← isOpen_lookupCalls, Bool.not_eq_true]
  -- the NetBIOS resolver is used if the first lookup gives no name
  by_cases h : GivesNoName network .mdns add
  · rw [if_pos h, filter_lookupCalls_self]
    exact ⟨fun hopen _ => hopen, fun hopen => hopen h⟩
  · rw [if_neg h]
    exact ⟨fun _ h' => absurd h' h, fun _ => rfl⟩

end ProcessHost

/-! ## Datagrams -/

section Receiving

variable {platform : Platform} {malformed : List UInt8 → List Char}
  {receive : Resolver → InetAddress → Option (List UInt8)} {add : InetAddress}

/-- NetBIOS raises nothing but an `IOException`. -/
theorem not_isUncaught_netBIOS :
    ¬ IsUncaught ((platform.receiving malformed receive).resolve .netBIOS add) := by
  simp only [Platform.receiving, NetBIOSResolver.resolve]
  cases receive .netBIOS add with
  | none => exact fun h => h rfl
  | some datagram =>
    simp only [NetBIOSResolver.readResponse_eq malformed (NetBIOSResolver.received_received _)]
    exact id

/-- The mDNS answer is raised past `resolveHostName` when the datagram is decoded, and
    has no name. -/
theorem isUncaught_mdns_iff :
    IsUncaught ((platform.receiving malformed receive).resolve .mdns add) ↔
      ∃ datagram, receive .mdns add = some datagram ∧ ¬ (MDNSResolver.HasName add datagram ∨
        ¬ MDNSResolver.AgreesAt add datagram 0 ∧ ¬ MDNSResolver.AgreesAt add datagram 1) := by
  simp only [Platform.receiving]
  cases hreceive : receive .mdns add with
  | none => exact ⟨fun h => absurd rfl h, nofun⟩
  | some datagram =>
    simp only [Option.some.injEq, exists_eq_left', not_or, not_and_or, not_not]
    by_cases hid : MDNSResolver.AgreesAt add datagram 0 ∨ MDNSResolver.AgreesAt add datagram 1
    · by_cases hname : MDNSResolver.HasName add datagram
      -- a name, an index error, or the `IOException` of a foreign response
      · obtain ⟨labels, hne, hlabels, hshort⟩ := hname
        rw [MDNSResolver.resolve_of_labelsAt hid hne hlabels hshort]
        exact ⟨False.elim, fun h => absurd ⟨labels, hne, hlabels, hshort⟩ h.1⟩
      · obtain ⟨e, he, hresolve⟩ := MDNSResolver.resolve_of_not_hasName malformed hid hname
        rw [hresolve]
        exact ⟨fun _ => ⟨hname, hid⟩, fun _ => he⟩
    · rw [MDNSResolver.resolve_of_not_agreesAt malformed (not_or.mp hid)]
      exact ⟨False.elim, fun h => absurd h.2 hid⟩

end Receiving

/-! ## A scan -/

/-- A host, and what `processHost` finds for it. -/
structure Job where
  host : Host
  platform : Platform
  receive : Resolver → InetAddress → Option (List UInt8)

namespace Job

/-- The network of a job, with the resolvers reading what is received. -/
def network (malformed : List UInt8 → List Char) (job : Job) : Network :=
  job.platform.receiving malformed job.receive

/-- The calls of `processHost`. -/
def calls (malformed : List UInt8 → List Char) (job : Job) : List Call :=
  (processHost (job.network malformed) job.host).calls

/-- Every datagram that comes for the mDNS request has a name, or both bytes of its id
    differ. -/
def Answerable (job : Job) : Prop :=
  ∀ add, job.platform.getByName job.host.ip.toList = some add →
    ∀ datagram, job.receive .mdns add = some datagram → MDNSResolver.HasName add datagram ∨
      ¬ MDNSResolver.AgreesAt add datagram 0 ∧ ¬ MDNSResolver.AgreesAt add datagram 1

/-- No constructor that is called raises behind the creation of its socket. -/
def Constructs (malformed : List UInt8 → List Char) (job : Job) : Prop :=
  ∀ add, job.platform.getByName job.host.ip.toList = some add →
    job.platform.canonicalHostName add ≠ "" →
      (∀ e, job.platform.construct .mdns ≠ .initRaises e) ∧
        (GivesNoName (job.network malformed) .mdns add →
          ∀ e, job.platform.construct .netBIOS ≠ .initRaises e)

/-- Both resolvers are closed if and only if the mDNS answer is no surprise. -/
theorem closesOnce_iff_answerable (malformed : List UInt8 → List Char) (job : Job) :
    (∀ resolver, ClosesOnce (job.network malformed) job.host resolver) ↔ job.Answerable := by
  simp only [closesOnce_iff]
  constructor
  · intro h add hadd datagram hdatagram
    by_contra hnot
    exact h .mdns add hadd (isUncaught_mdns_iff.mpr ⟨datagram, hdatagram, hnot⟩)
  · intro h resolver add hadd
    cases resolver with
    -- NetBIOS raises nothing but its time out, which is caught, so it always closes.
    | netBIOS => exact not_isUncaught_netBIOS
    | mdns =>
      intro huncaught
      obtain ⟨datagram, hdatagram, hnot⟩ := isUncaught_mdns_iff.mp huncaught
      exact hnot (h add hadd datagram hdatagram)

/-- Then no socket stays open, unless a constructor leaves it. -/
theorem isOpen_calls_iff {malformed : List UInt8 → List Char} {job : Job} (h : job.Answerable) :
    (∀ resolver, isOpen resolver (job.calls malformed) = false) ↔ job.Constructs malformed := by
  unfold calls Constructs
  cases hadd : job.platform.getByName job.host.ip.toList with
  | none =>
    -- without an address, or a canonical name, nothing is opened
    have hprocess : processHost (job.network malformed) job.host = { host := job.host } :=
      processHost_of_getByName_eq_none hadd
    simp [hprocess, isOpen]
  | some add =>
    by_cases hname : job.platform.canonicalHostName add = ""
    · have hprocess : processHost (job.network malformed) job.host = { host := job.host } :=
        processHost_of_canonicalHostName_eq_empty hadd hname
      simp [hprocess, isOpen, hname]
    -- otherwise only a constructor that raises leaves something open
    · have hcaught (resolver : Resolver) :=
        closesOnce_iff.mp ((closesOnce_iff_answerable malformed job).mpr h resolver) add hadd
      have hleaves (resolver : Resolver) : ¬ LeavesOpen (job.network malformed) resolver add ↔
          ∀ e, job.platform.construct resolver ≠ .initRaises e := by
        simp only [LeavesOpen, hcaught resolver, and_false, or_false, not_exists]
        rfl
      rw [isOpen_processHost_eq_false_iff hadd hname, hleaves, hleaves]
      simp [hname]

end Job

/-- Every resolver is closed once, and the scan leaves no socket open, if and only if
    every mDNS datagram has a name or another id in both bytes, and no constructor raises
    behind the creation of its socket. -/
theorem closes_all_iff (malformed : List UInt8 → List Char) (jobs : List Job) :
    ((∀ job ∈ jobs, ∀ resolver, ClosesOnce (job.network malformed) job.host resolver) ∧
      ∀ log, List.Interleaves (jobs.map (Job.calls malformed)) log →
        ∀ k resolver, isOpen resolver (List.partOf k log) = false) ↔
    ∀ job ∈ jobs, job.Answerable ∧ job.Constructs malformed := by
  have hlogs := List.forall_partOf_iff (jobs.map (Job.calls malformed))
    (p := fun calls => ∀ resolver, isOpen resolver calls = false) fun _ => rfl
  rw [hlogs, List.forall_mem_map, ← forall₂_and]
  refine forall₂_congr fun job _ => ?_
  rw [job.closesOnce_iff_answerable]
  exact and_congr_right Job.isOpen_calls_iff

/-- The empty datagram is decoded, and the socket of the mDNS resolver stays open. -/
theorem resolver_not_closed : ¬ ∀ malformed (jobs : List Job),
    (∀ job ∈ jobs, ∀ resolver, ClosesOnce (job.network malformed) job.host resolver) ∧
      ∀ log, List.Interleaves (jobs.map (Job.calls malformed)) log →
        ∀ k resolver, isOpen resolver (List.partOf k log) = false := by
  intro h
  let job : Job := ⟨{ ip := "10.0.0.5" }, boxPlatform, fun _ _ => some []⟩
  have hcloses := (h (fun _ => []) [job]).1 job List.mem_cons_self .mdns
  exact absurd hcloses (by unfold ClosesOnce; decide)

end LanScan.Android.ProcessHost
