import LanScan.Spec.Android.EncodableSubnet
import LanScan.Spec.Android.ScannerCoverage
import LanScan.Spec.Ipv4

/-!
# Correctness of a scan (Android)

What a scan that is left alone delivers, and what can go wrong with it: an
address that `getByAddress` rejects, or, from API 33 on, a probe that raises.
Either exception escapes from its worker and ends the whole scan.

## Key results

- `scan_complete`: a scan in which no worker raises visits the subnet once and
  delivers its reachable hosts and a null
- `handled_octets_iff`: for which answers of `Wireless` no address is rejected
- `probes_all_iff`: when an exception of one probe cannot harm the others
-/

namespace LanScan.Android.Scanner

/-! ## The undisturbed scan -/

/-- The hosts that are found among the addresses, as dotted quads. -/
theorem reachableHosts_eq_text (cfg : Config) (xs : List Int32) :
    reachableHosts cfg xs = (xs.filter fun x => cfg.isReachable (inetAddress x)).map
      fun x => (Ipv4.ofInt x.toInt).text := by
  rw [reachableHosts, List.filter_map, List.map_map]
  rfl

/-- **Correctness of the scan.** From API 33 on, for a prefix of 4 to 32 bits, every run leads
    on to a completed one.  A completed run in which no worker raised has handled every address
    strictly between network and broadcast exactly once, and has delivered one host for each of
    them that is reachable, named by its dotted quad, then the null. -/
theorem scan_complete (cfg : Config) (hsdk : tiramisu ≤ cfg.sdkInt)
    (hlo : 4 ≤ cfg.cidrPrefixLength.toInt) (hhi : cfg.cidrPrefixLength.toInt ≤ 32)
    (ls : List Label) (s : State) (h : (undisturbed cfg).run init ls = some s) :
    (∃ ks t, (undisturbed cfg).run s ks = some t ∧ (undisturbed cfg).Terminal t) ∧
    ((undisturbed cfg).Terminal s → (∀ w ∈ s.workers, w.pc ≠ .raised) →
      s.handled.Nodup ∧
      (∀ x, x ∈ s.handled ↔ networkAddress cfg.ipv4 cfg.cidrPrefixLength < x.toInt ∧
        x.toInt < broadcastAddress cfg.ipv4 cfg.cidrPrefixLength) ∧
      (31 ≤ cfg.cidrPrefixLength.toInt → s.handled = []) ∧
      s.looper.queue = [] ∧
      ∃ hosts : List Host, s.looper.delivered = hosts.map .host ++ [.null] ∧
        (hosts.map Host.ip).Perm ((s.handled.filter fun x => cfg.isReachable (inetAddress x)).map
          fun x => (Ipv4.ofInt x.toInt).text)) := by
  refine ⟨exists_completed_run cfg s, fun hterm hwell => ?_⟩
  -- a scan that can go no further has covered the subnet, unless a worker has raised
  rcases covered_or_dead (by omega) (by omega) h hterm with hcovered | ⟨_, ⟨w, hw, hraised⟩ | hp⟩
  · have hnodup := nodup_scanAddresses cfg.ipv4 cfg.cidrPrefixLength
    have hhosts := hcovered.hosts hsdk
    rw [reachableHosts_eq_text] at hhosts
    refine ⟨hcovered.handled.nodup_iff.mpr hnodup, fun x => ?_, fun hp => ?_,
      (completed_of_terminal hterm).2, hostsOf s.looper.delivered, hcovered.delivered, hhosts⟩
    · rw [hcovered.handled.mem_iff, mem_scanAddresses (by omega) hhi]
    · have hperm := hcovered.handled
      rw [scanAddresses_eq_nil cfg.ipv4 hp] at hperm
      exact hperm.eq_nil
  · exact absurd hraised (hwell w hw)
  · omega

/-- Android 13 in 192.168.0.0/30, where 192.168.0.2 answers. -/
def pairConfig : Config where
  sdkInt := 33
  ipv4 := -1062731775
  cidrPrefixLength := 30
  probe address := if address = .inet4 192 168 0 2 then .success else .failure
  arpTable := []

/-- The workers of a /30 take turns; the second one finds its host. -/
def pairScan : List Label :=
  [.launch] ++ (List.range 8).map .worker ++
    [.worker 1, .worker 0, .worker 1, .worker 0, .processHost 1 (some "printer"), .worker 0,
      .worker 1, .worker 1, .worker 1, .job, .job, .job, .deliver, .deliver]

/-- The final state of that scan. -/
def pairState : State := ((undisturbed pairConfig).run init pairScan).get (by decide)

/-- The run leads there. -/
theorem run_pairScan : (undisturbed pairConfig).run init pairScan = some pairState :=
  (Option.some_get _).symm

/-- There nothing is left to do. -/
theorem terminal_pairState : (undisturbed pairConfig).Terminal pairState :=
  (terminal_iff (wellFormed_of_run (run_of_undisturbed run_pairScan))).mpr (by decide)

/-- The one other address of the subnet is reachable and is posted. -/
theorem scan_complete_pair :
    pairState.handled.Nodup ∧
    (∀ x, x ∈ pairState.handled ↔ networkAddress (-1062731775) 30 < x.toInt ∧
      x.toInt < broadcastAddress (-1062731775) 30) ∧
    (31 ≤ (30 : Int32).toInt → pairState.handled = []) ∧
    pairState.looper.queue = [] ∧
    ∃ hosts : List Host, pairState.looper.delivered = hosts.map .host ++ [.null] ∧
      (hosts.map Host.ip).Perm ["192.168.0.2"] := by
  obtain ⟨hnodup, hhandled, hnone, hqueue, hosts, hdelivered, hperm⟩ :=
    (scan_complete pairConfig (by decide) (by decide) (by decide) pairScan pairState
      run_pairScan).2 terminal_pairState (by decide)
  refine ⟨hnodup, hhandled, hnone, hqueue, hosts, hdelivered, hperm.trans ?_⟩
  decide

/-! ## Addresses that getByAddress rejects -/

/-- A worker raised only because of an address of the scan. -/
theorem blame_of_raised {cfg : Config} {ls : List Label} {s : State}
    (hlo : -32768 ≤ cfg.cidrPrefixLength.toInt) (hhi : cfg.cidrPrefixLength.toInt ≤ 32767)
    (h : (scanner cfg).run init ls = some s) (hraised : ∃ w ∈ s.workers, w.pc = .raised) :
    (∃ x ∈ s.handled, ¬ HasFourBytes x) ∨ (tiramisu ≤ cfg.sdkInt ∧
      ∃ x ∈ scanAddresses cfg.ipv4 cfg.cidrPrefixLength,
        cfg.probe (inetAddress x) = .ioException) := by
  have ht := traced_of_run hlo hhi h
  obtain ⟨w, hw, hpc⟩ := hraised
  rcases ht.raised w hw hpc with hfour | ⟨hsdk, x, hx, hio⟩
  · exact .inl hfour
  · exact .inr ⟨hsdk, x, ht.handled x hx, hio⟩

/-- A scan in which nobody answers and no probe raises. -/
def silentConfig (ipv4 cidrPrefixLength : Int32) : Config where
  sdkInt := tiramisu
  ipv4 := ipv4
  cidrPrefixLength := cidrPrefixLength
  probe _ := .failure
  arpTable := []

/-- A silent scan that ran to its end has met every address, or an address that
    `getByAddress` rejected. -/
theorem encodableSubnet_of_silent {ipv4 p : Int32} (hlo : -32768 ≤ p.toInt)
    (hhi : p.toInt ≤ 32767)
    (h : ∀ (ls : List Label) (s : State), (scanner (silentConfig ipv4 p)).run init ls = some s →
      ∀ x ∈ s.handled, HasFourBytes x) : EncodableSubnet ipv4 p := by
  obtain ⟨ls, s, hrun, hterm⟩ := exists_completed_run (silentConfig ipv4 p) init
  have hrun' := run_of_undisturbed hrun
  have hfour := h ls s hrun'
  have hlo' : -32768 ≤ (silentConfig ipv4 p).cidrPrefixLength.toInt := hlo
  have hhi' : (silentConfig ipv4 p).cidrPrefixLength.toInt ≤ 32767 := hhi
  -- The complete scan has handled every address, unless it died of one.
  rcases covered_or_dead hlo' hhi' hrun hterm with hcovered | ⟨_, hraised | hp⟩
  · exact (encodableSubnet_iff ipv4 hlo).mpr fun x hx => hfour x (hcovered.handled.mem_iff.mpr hx)
  -- Nobody answers and no probe fails, so only an unencodable address can kill it.
  · rcases blame_of_raised hlo' hhi' hrun' hraised with ⟨x, hx, hno⟩ | ⟨_, x, _, hio⟩
    · exact absurd (hfour x hx) hno
    · have hfailure : ProbeOutcome.failure = .ioException := hio
      exact nomatch hfailure
  · have hp' : 32 < p.toInt := hp
    exact .inl (by omega)

/-- **Encoding of the addresses.** For every answer of the WiFi services, no run of
    the scan they lead to gives `getByAddress` anything but the four octets of
    `numericIp` if and only if the subnet is encodable. -/
theorem handled_octets_iff (w : Wireless) :
    (∀ cfg : Config, cfg.ipv4 = w.getInternalWifiIpAddress →
      cfg.cidrPrefixLength = w.getInternalWifiCidrPrefixLength →
      ∀ (ls : List Label) (s : State), (scanner cfg).run init ls = some s →
      ∀ x ∈ s.handled, toByteArray x.toInt = octets x ∧
        InetAddress.getByAddress (toByteArray x.toInt) ≠ none) ↔
    EncodableSubnet w.getInternalWifiIpAddress w.getInternalWifiCidrPrefixLength := by
  obtain ⟨hlo, hhi⟩ := toInt_getInternalWifiCidrPrefixLength w
  constructor
  · intro h
    apply encodableSubnet_of_silent hlo hhi
    intro ls s hrun x hx
    -- an encoding without four bytes is no address for `getByAddress`
    apply Classical.not_not.mp
    intro hfour
    exact (h _ rfl rfl ls s hrun x hx).2 (getByAddress_toByteArray_eq_none hfour)
  · intro henc cfg hipv4 hprefix ls s hrun x hx
    rw [← hprefix] at hlo hhi
    rw [← hipv4, ← hprefix] at henc
    -- an address that is handled belongs to the subnet
    have hmem := (traced_of_run hlo hhi hrun).handled x hx
    have hfour := (encodableSubnet_iff cfg.ipv4 hlo).mp henc x hmem
    refine ⟨toByteArray_eq_octets hfour, ?_⟩
    rw [getByAddress_toByteArray hfour]
    nofun

/-- WiFi that is still connecting: no address yet, and a netmask of 24 bits. -/
def connectingWireless : Wireless where
  ipAddress := 0
  nativeOrder := .littleEndian
  dhcpInfo := some 0x00FFFFFF
  getByName _ := .ok none
  getByInetAddress _ := .ok none

/-- The scan of 0.0.0.0/24 starts with the one-byte encoding of 1. -/
theorem octets_rejected : ¬ ∀ (w : Wireless) (cfg : Config),
    cfg.ipv4 = w.getInternalWifiIpAddress →
    cfg.cidrPrefixLength = w.getInternalWifiCidrPrefixLength →
    ∀ (ls : List Label) (s : State), (scanner cfg).run init ls = some s →
    ∀ x ∈ s.handled, toByteArray x.toInt = octets x ∧
      InetAddress.getByAddress (toByteArray x.toInt) ≠ none := by
  intro h
  have hrun : ((scanner (silentConfig 0 24)).run init
      [.launch, .worker 0, .worker 0]).map (·.handled) = some [1] := by decide
  obtain ⟨s, hs, hhandled⟩ := Option.map_eq_some_iff.mp hrun
  have hone : (1 : Int32) ∈ s.handled := by rw [hhandled]; exact List.mem_singleton_self 1
  have hoctets := (h connectingWireless (silentConfig 0 24) (by decide) (by decide) _ s hs 1 hone).1
  exact absurd hoctets (by decide)

/-! ## Probes that raise -/

/-- **Containment of exceptions.** Every completed run probes all addresses of the
    scan and delivers a null last if and only if no address can make a worker
    raise: all of them are encodable, and from API 33 on no probe of one raises. -/
theorem probes_all_iff (cfg : Config) (hlo : -32768 ≤ cfg.cidrPrefixLength.toInt)
    (hhi : cfg.cidrPrefixLength.toInt ≤ 32767) :
    (∀ (ls : List Label) (s : State), (undisturbed cfg).run init ls = some s →
      (undisturbed cfg).Terminal s →
      (∀ x ∈ scanAddresses cfg.ipv4 cfg.cidrPrefixLength, inetAddress x ∈ s.probed) ∧
        ∃ hosts : List Host, s.looper.delivered = hosts.map .host ++ [.null]) ↔
    cfg.cidrPrefixLength.toInt ≤ 32 ∧ EncodableSubnet cfg.ipv4 cfg.cidrPrefixLength ∧
      (tiramisu ≤ cfg.sdkInt → ∀ x ∈ scanAddresses cfg.ipv4 cfg.cidrPrefixLength,
        cfg.probe (inetAddress x) ≠ .ioException) := by
  constructor
  · intro h
    obtain ⟨ls, s, hrun, hterm⟩ := exists_completed_run cfg init
    obtain ⟨_, hosts, hdelivered⟩ := h ls s hrun hterm
    have hnull : .null ∈ s.looper.delivered := by
      rw [hdelivered]
      exact List.mem_append_right _ (List.mem_singleton_self _)
    rcases covered_or_dead hlo hhi hrun hterm with hcovered | ⟨hdead, _⟩
    · have hmem : ∀ x ∈ scanAddresses cfg.ipv4 cfg.cidrPrefixLength, x ∈ s.handled :=
        fun x hx => hcovered.handled.mem_iff.mpr hx
      have hfour := fun x hx => hcovered.fourBytes x (hmem x hx)
      exact ⟨hcovered.launched, (encodableSubnet_iff _ hlo).mpr hfour,
        fun hsdk x hx => hcovered.outcomes hsdk x (hmem x hx)⟩
    · exact absurd hnull hdead
  · rintro ⟨hp, henc, hprobe⟩ ls s hrun hterm
    have hfour := (encodableSubnet_iff cfg.ipv4 hlo).mp henc
    rcases covered_or_dead hlo hhi hrun hterm with hcovered | ⟨_, hraised | hp'⟩
    · refine ⟨fun x hx => ?_, hostsOf s.looper.delivered, hcovered.delivered⟩
      rw [hcovered.probed]
      exact List.mem_map_of_mem (hcovered.handled.mem_iff.mpr hx)
    -- a worker that raised would have met one of the addresses excluded
    · have hrun' := run_of_undisturbed hrun
      rcases blame_of_raised hlo hhi hrun' hraised with ⟨x, hx, hno⟩ | ⟨hsdk, x, hx, hio⟩
      · exact absurd (hfour x ((traced_of_run hlo hhi hrun').handled x hx)) hno
      · exact absurd hio (hprobe hsdk x hx)
    · omega

/-- A pair of addresses on Android 13 whose probes do not raise. -/
theorem probes_all_pair :
    (∀ (ls : List Label) (s : State), (undisturbed pairConfig).run init ls = some s →
      (undisturbed pairConfig).Terminal s →
      (∀ x ∈ scanAddresses (-1062731775) 30, inetAddress x ∈ s.probed) ∧
        ∃ hosts : List Host, s.looper.delivered = hosts.map .host ++ [.null]) ↔
    (30 : Int32).toInt ≤ 32 ∧ EncodableSubnet (-1062731775) 30 ∧
      (tiramisu ≤ 33 → ∀ x ∈ scanAddresses (-1062731775) 30,
        pairConfig.probe (inetAddress x) ≠ .ioException) :=
  probes_all_iff pairConfig (by decide) (by decide)

/-- The same pair, where the probe of 192.168.0.1 raises. -/
def faultyConfig : Config :=
  { pairConfig with
    probe := fun address => if address = .inet4 192 168 0 1 then .ioException else .failure }

/-- The exception comes while the other worker has yet to start. -/
def faultyScan : List Label :=
  [.launch, .worker 0, .worker 0, .worker 0] ++ (List.range 8).tail.map .worker ++ [.job]

/-- An `IOException` at 192.168.0.1 keeps 192.168.0.2 from being probed, and the
    scan ends without a null. -/
theorem exception_escapes : ¬ ∀ cfg : Config,
    0 ≤ cfg.cidrPrefixLength.toInt → cfg.cidrPrefixLength.toInt ≤ 32 →
    ∀ (ls : List Label) (s : State), (undisturbed cfg).run init ls = some s →
      (undisturbed cfg).Terminal s →
      (∀ x ∈ scanAddresses cfg.ipv4 cfg.cidrPrefixLength, inetAddress x ∈ s.probed) ∧
        ∃ hosts : List Host, s.looper.delivered = hosts.map .host ++ [.null] := by
  intro h
  have hrun : ((undisturbed faultyConfig).run init faultyScan).map
      (fun s => (s.pc, s.looper, s.probed)) =
      some (.dead, .empty, [.inet4 192 168 0 1]) := by decide
  obtain ⟨s, hs, hfinal⟩ := Option.map_eq_some_iff.mp hrun
  obtain ⟨hpc, hlooper, hprobed⟩ : s.pc = .dead ∧ s.looper = .empty ∧
      s.probed = [.inet4 192 168 0 1] := by
    simpa only [Prod.mk.injEq] using hfinal
  -- the scan is dead, and nothing is left to do
  have hterm : (undisturbed faultyConfig).Terminal s := by
    refine (terminal_iff (wellFormed_of_run (run_of_undisturbed hs))).mpr ⟨.inr hpc, ?_⟩
    rw [hlooper]
    rfl
  -- but its second address has not been probed
  have hmissed := (h faultyConfig (by decide) (by decide) faultyScan s hs hterm).1
    (-1062731774) (by decide)
  rw [hprobed] at hmissed
  exact absurd hmissed (by decide)

end LanScan.Android.Scanner
