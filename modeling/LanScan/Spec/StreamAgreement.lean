import LanScan.Spec.Dart.HostEvents
import LanScan.Spec.Ios.EndSignal
import LanScan.Spec.Ios.ScanCorrect
import LanScan.Spec.ScanAgreement

/-!
# Both platforms show Dart the same devices

A complete scan from API 33 on and one on iOS, in the same subnet and with the same devices
answering: the two streams of Dart bring the same addresses, each once, and end with a null.

## Key results

- `addresses_eq`: the scans go through the same addresses in text form
- `delivered_android`, `delivered_ios`: what a complete scan has delivered
- `streams_agree`: what Dart makes of it
-/

namespace LanScan

variable {a : Android.Scanner.Config} {i : Ios.Scanner.Config} {plan : Ios.ScanPlan}

/-! ## Addresses -/

/-- Both scans go through the same addresses in text form. -/
theorem addresses_eq (hlo : 2 ≤ a.cidrPrefixLength.toInt) (hhi : a.cidrPrefixLength.toInt ≤ 32)
    (hcidr : i.cidrPrefixLength.toInt = a.cidrPrefixLength.toInt)
    (hipv4 : i.ipv4.toInt = a.ipv4.toInt % 2 ^ 32)
    (hplan : Ios.scanPlan i.ipv4 i.cidrPrefixLength = some plan)
    (henc : Android.EncodableSubnet a.ipv4 a.cidrPrefixLength) :
    (Android.scanAddresses a.ipv4 a.cidrPrefixLength).map
      (fun x => (Android.inetAddress x).hostAddress) = plan.addresses := by
  have hfour := (Android.encodableSubnet_iff a.ipv4 (by omega)).mp henc
  obtain ⟨hhosts, -⟩ := loops_eq hlo hhi hcidr hipv4 hplan
  rw [Android.scanAddresses, List.map_map, Ios.ScanPlan.addresses, ← hhosts]
  refine List.map_congr_left fun index hindex => ?_
  have hiosIndex : index ∈ List.stride 0 plan.numberOfHosts.toInt 1 := hhosts ▸ hindex
  have hbytes := hfour _ (List.mem_map_of_mem hindex)
  -- Both loops run over the same index and probe the same address for it.
  have hprobe := probe_eq hlo hhi hcidr hipv4 hplan hindex hiosIndex hbytes
  rw [Android.getByAddress_toByteArray hbytes, Ios.ipAddress_of_mem (by omega) (by omega) hplan
    hiosIndex] at hprobe
  exact Option.some.inj hprobe

/-- The hosts found among the addresses, when the same devices answer. -/
theorem reachableHosts_eq
    (hreach : ∀ x ∈ Android.scanAddresses a.ipv4 a.cidrPrefixLength,
      a.isReachable (Android.inetAddress x) = i.ping (Android.inetAddress x).hostAddress) :
    Android.Scanner.reachableHosts a (Android.scanAddresses a.ipv4 a.cidrPrefixLength) =
      ((Android.scanAddresses a.ipv4 a.cidrPrefixLength).map
        fun x => (Android.inetAddress x).hostAddress).filter i.ping := by
  rw [Android.Scanner.reachableHosts, List.filter_map, List.filter_map, List.map_map]
  exact congrArg _ (List.filter_congr hreach)

/-! ## Complete scans -/

/-- A complete scan on Android in which nothing raises. -/
theorem delivered_android (hsdk : Android.Scanner.tiramisu ≤ a.sdkInt)
    (hlo : 2 ≤ a.cidrPrefixLength.toInt) (hhi : a.cidrPrefixLength.toInt ≤ 32)
    (henc : Android.EncodableSubnet a.ipv4 a.cidrPrefixLength)
    (hprobe : ∀ x ∈ Android.scanAddresses a.ipv4 a.cidrPrefixLength,
      a.probe (Android.inetAddress x) ≠ .ioException)
    {ls : List Android.Scanner.Label} {s : Android.Scanner.State}
    (hs : (Android.Scanner.undisturbed a).run Android.Scanner.init ls = some s)
    (hterm : (Android.Scanner.undisturbed a).Terminal s) :
    ∃ hosts : List Host, s.looper.delivered = hosts.map .host ++ [.null] ∧
      (hosts.map Host.ip).Perm (Android.Scanner.reachableHosts a
        (Android.scanAddresses a.ipv4 a.cidrPrefixLength)) := by
  have hfour := (Android.encodableSubnet_iff a.ipv4 (by omega)).mp henc
  have hrun := Android.Scanner.run_of_undisturbed hs
  have hlo' : -32768 ≤ a.cidrPrefixLength.toInt := by omega
  have hhi' : a.cidrPrefixLength.toInt ≤ 32767 := by omega
  rcases Android.Scanner.covered_or_dead hlo' hhi' hs hterm with hcovered | ⟨-, hraised | hp⟩
  · refine ⟨_, hcovered.delivered, (hcovered.hosts hsdk).trans ?_⟩
    exact ((hcovered.handled.map _).filter _).map _
  -- a worker raises at an address that is refused or at a probe that fails, and there is neither
  · rcases Android.Scanner.blame_of_raised hlo' hhi' hrun hraised with
      ⟨x, hx, hno⟩ | ⟨-, x, hx, hio⟩
    · exact absurd (hfour x ((Android.Scanner.traced_of_run hlo' hhi' hrun).handled x hx)) hno
    · exact absurd hio (hprobe x hx)
  · omega

namespace Ios.Scanner

variable {s s' : State} {l : Label}

/-- Nobody else than `stopScanning` moves it on. -/
theorem stop_of_transition (h : Transition i s l s') (hl : l ≠ .stop) : s'.stop = s.stop := by
  cases h with
  | stopCheck | stopCheckNil | stopCancel | stopClear | stopDispatch => exact absurd rfl hl
  | _ => rfl

/-- A scan that is left alone, and whose final check comes in time. -/
structure Quiet (s : State) : Prop where
  token : Token s
  ordered : Ordered s
  stop : s.stop = .idle

/-- In a scan whose final check comes in time nobody else signals the end. -/
theorem quiet_of_run {ls : List Label}
    (h : ((undisturbed i).restrict TimelySignal).run init ls = some s) : Quiet s := by
  refine (undisturbed i).run_restrict_invariant TimelySignal Quiet ?_
    ⟨token_init, ordered_init, rfl⟩ h
  intro t l t' ht htimely hstep
  obtain ⟨hu, hstep⟩ := step_of_undisturbed hstep
  -- Nobody stops an undisturbed scan.
  have hl : l ≠ .stop := by
    rintro rfl
    exact hu
  have htrans := (transition_of_step hstep).2
  exact ⟨token_step ht.token (fun h => absurd h hl) htimely htrans,
    ordered_step ht.ordered (fun h => absurd h hl) htrans,
    (stop_of_transition htrans hl).trans ht.stop⟩

/-- When the body has finished there is one nil, behind all hosts. -/
theorem Quiet.main_all (h : Quiet s) (hbody : s.body = .finished) :
    ∃ hosts : List Host, s.main.all = hosts.map .host ++ [.null] := by
  have hassigned : s.assigned = true :=
    Bool.of_not_eq_false fun hassigned => (h.token.early hassigned).2.1 hbody
  have htask := h.token.spent (.inr (.inl hbody))
  have hone := h.token.one
  simp only [State.signals, State.unclaimed, State.bodyClaims, State.stopClaims, hbody, h.stop,
    hassigned, htask] at hone
  obtain ⟨hosts, hall⟩ := h.ordered.order.exists_hosts
  -- The one signal has been posted, since the body is over.
  have hcount : nullCount s.main.all = 1 := by simpa using hone
  rw [hcount] at hall
  exact ⟨hosts, hall⟩

end Ios.Scanner

/-- A complete scan on iOS whose final check comes in time. -/
theorem delivered_ios (hipv4 : 0 ≤ i.ipv4.toInt ∧ i.ipv4.toInt < 2 ^ 32)
    (hcidr : 0 ≤ i.cidrPrefixLength.toInt ∧ i.cidrPrefixLength.toInt ≤ 32)
    (hplan : Ios.scanPlan i.ipv4 i.cidrPrefixLength = some plan)
    {ls : List Ios.Scanner.Label} {s : Ios.Scanner.State}
    (hs : ((Ios.Scanner.undisturbed i).restrict Ios.Scanner.TimelySignal).run Ios.Scanner.init ls =
      some s) (hterm : (Ios.Scanner.undisturbed i).Terminal s) :
    ∃ hosts : List Host, s.main.delivered = hosts.map .host ++ [.null] ∧
      (hosts.map Host.ip).Perm (plan.addresses.filter i.ping) := by
  have hrun := (Ios.Scanner.undisturbed i).run_of_run_restrict Ios.Scanner.TimelySignal hs
  have ha := Ios.Scanner.accounted_of_run hipv4 hcidr hplan hrun
  obtain ⟨-, hbody, hqueue⟩ :=
    Ios.Scanner.completed_of_terminal ha.wellFormed ha.crashed hterm
  obtain ⟨hpings, hhosts⟩ := Ios.Scanner.covered_of_terminal ha hterm
  -- the nil of the final check comes last
  obtain ⟨hosts, hall⟩ := (Ios.Scanner.quiet_of_run hs).main_all hbody
  rw [← Fifo.delivered_eq_all hqueue] at hall
  refine ⟨hosts, hall, ?_⟩
  rw [hall, hostsOf_append, hostsOf_map_host] at hhosts
  have hnone : hostsOf [.null] = [] := rfl
  rw [hnone, List.append_nil] at hhosts
  exact hhosts.trans (hpings.filter _)

/-! ## The streams -/

/-- **Agreement of the streams.** Let the same devices answer in the same subnet, with a prefix of
    2 to 32 bits and addresses that `getByAddress` accepts, let no probe raise, and let the
    platforms write their hosts in any way that denotes them.  After a complete scan on Android
    from API 33 on and one on iOS whose final check came in time, each stream of Dart has brought
    hosts and then a null and no error, and the two bring the same addresses, each once. -/
theorem streams_agree (a : Android.Scanner.Config) (i : Ios.Scanner.Config)
    (hsdk : Android.Scanner.tiramisu ≤ a.sdkInt)
    (hlo : 2 ≤ a.cidrPrefixLength.toInt) (hhi : a.cidrPrefixLength.toInt ≤ 32)
    (hcidr : i.cidrPrefixLength.toInt = a.cidrPrefixLength.toInt)
    (hipv4 : i.ipv4.toInt = a.ipv4.toInt % 2 ^ 32)
    (henc : Android.EncodableSubnet a.ipv4 a.cidrPrefixLength)
    (hprobe : ∀ x ∈ Android.scanAddresses a.ipv4 a.cidrPrefixLength,
      a.probe (Android.inetAddress x) ≠ .ioException)
    (hreach : ∀ x ∈ Android.scanAddresses a.ipv4 a.cidrPrefixLength,
      a.isReachable (Android.inetAddress x) = i.ping (Android.inetAddress x).hostAddress)
    (gson encoder : Host → String) (hgson : Dart.WritesHosts gson)
    (hencoder : Dart.WritesHosts encoder)
    (ls : List Android.Scanner.Label) (s : Android.Scanner.State)
    (hs : (Android.Scanner.undisturbed a).run Android.Scanner.init ls = some s)
    (hsterm : (Android.Scanner.undisturbed a).Terminal s)
    (ks : List Ios.Scanner.Label) (t : Ios.Scanner.State)
    (ht : ((Ios.Scanner.undisturbed i).restrict Ios.Scanner.TimelySignal).run Ios.Scanner.init ks =
      some t) (htterm : (Ios.Scanner.undisturbed i).Terminal t) :
    ∃ hosts hosts' : List Host,
      Dart.startDeviceScanStream (s.looper.delivered.map (Event.encode gson)) =
        Dart.completeStream hosts ∧
      Dart.startDeviceScanStream (t.main.delivered.map (Event.encode encoder)) =
        Dart.completeStream hosts' ∧
      (hosts.map Host.ip).Perm (hosts'.map Host.ip) ∧ (hosts.map Host.ip).Nodup := by
  have hipv4' : 0 ≤ i.ipv4.toInt ∧ i.ipv4.toInt < 2 ^ 32 := by omega
  have hcidr' : 0 ≤ i.cidrPrefixLength.toInt ∧ i.cidrPrefixLength.toInt ≤ 32 := by omega
  obtain ⟨plan, hplan, -⟩ := Ios.scanPlan_eq hipv4' hcidr'
  obtain ⟨hosts, hdelivered, hperm⟩ := delivered_android hsdk hlo hhi henc hprobe hs hsterm
  obtain ⟨hosts', hdelivered', hperm'⟩ := delivered_ios hipv4' hcidr' hplan ht htterm
  -- both have the addresses of one plan that answer
  rw [reachableHosts_eq hreach, addresses_eq hlo hhi hcidr hipv4 hplan henc] at hperm
  refine ⟨hosts, hosts', Dart.startDeviceScanStream_delivered hgson hdelivered,
    Dart.startDeviceScanStream_delivered hencoder hdelivered', hperm.trans hperm'.symm, ?_⟩
  exact hperm.nodup_iff.mpr ((Ios.nodup_addresses hipv4' hcidr' hplan).filter _)

/-! ## A pair of scans -/

/-- On iOS too 192.168.0.2 is the one that answers. -/
def printerConfig : Ios.Scanner.Config :=
  { Ios.Scanner.pairConfig with ping := (· == "192.168.0.2") }

/-- The scan of iOS, in which the printer answers. -/
def printerRun : List Ios.Scanner.Label :=
  [.assign, .body] ++ List.replicate 4 (.worker 0) ++
    Ios.Scanner.workerRun 1 "printer.local" ++ [0, 2, 3, 4, 5, 6, 7].map .worker ++
    [.body, .body, .body, .body, .deliver, .deliver]

/-- The state after it. -/
def printerState : Ios.Scanner.State :=
  (((Ios.Scanner.undisturbed printerConfig).restrict Ios.Scanner.TimelySignal).run
    Ios.Scanner.init printerRun).get (by decide)

/-- The run leads there. -/
theorem run_printerRun : ((Ios.Scanner.undisturbed printerConfig).restrict
    Ios.Scanner.TimelySignal).run Ios.Scanner.init printerRun = some printerState :=
  (Option.some_get _).symm

/-- There nothing is left to do. -/
theorem terminal_printerState : (Ios.Scanner.undisturbed printerConfig).Terminal printerState := by
  have hrun := (Ios.Scanner.undisturbed printerConfig).run_of_run_restrict
    Ios.Scanner.TimelySignal run_printerRun
  exact (Ios.Scanner.terminal_iff (Ios.Scanner.wellFormed_of_run
    (Ios.Scanner.run_of_undisturbed hrun)) (by decide)).mpr (by decide)

/-- The two addresses of the subnet. -/
theorem scanAddresses_pair :
    Android.scanAddresses (-1062731775) 30 = [-1062731775, -1062731774] := by
  decide

/-- Only the printer answers, on both platforms. -/
theorem reach_printer (x : Int32) (hx : x ∈ Android.scanAddresses (-1062731775) 30) :
    Android.Scanner.pairConfig.probe (Android.inetAddress x) ≠ .ioException ∧
      Android.Scanner.pairConfig.isReachable (Android.inetAddress x) =
        printerConfig.ping (Android.inetAddress x).hostAddress := by
  rw [scanAddresses_pair, List.mem_pair] at hx
  rcases hx with rfl | rfl <;> decide

/-- Both streams bring the printer. -/
theorem streams_agree_printer : ∃ hosts hosts' : List Host,
    Dart.startDeviceScanStream (Android.Scanner.pairState.looper.delivered.map
      (Event.encode Dart.gsonToJson)) = Dart.completeStream hosts ∧
    Dart.startDeviceScanStream (printerState.main.delivered.map
      (Event.encode Dart.encoderToJson)) = Dart.completeStream hosts' ∧
    (hosts.map Host.ip).Perm (hosts'.map Host.ip) ∧ (hosts.map Host.ip).Nodup :=
  streams_agree Android.Scanner.pairConfig printerConfig (by decide) (by decide) (by decide)
    (by decide) (by decide) (by decide) (fun x hx => (reach_printer x hx).1)
    (fun x hx => (reach_printer x hx).2) _ _ Dart.writesHosts_gson Dart.writesHosts_encoder
    Android.Scanner.pairScan _ Android.Scanner.run_pairScan
    Android.Scanner.terminal_pairState printerRun _ run_printerRun terminal_printerState

end LanScan
