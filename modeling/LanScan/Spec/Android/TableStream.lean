import LanScan.Spec.Android.EncodableSubnet
import LanScan.Spec.Android.NetlinkTable
import LanScan.Spec.Android.TableHosts
import LanScan.Spec.Dart.HostEvents

/-!
# From the kernel's neighbour table to Dart

Below API 33 all layers together: the bytes that the kernel sends, the lines that the C code
writes to the pipe, the hosts that Kotlin reads from it, the events of the scan, and the
elements of the stream on the Dart side.

## Key results

- `completed_run_of_encodable`: what a scan that nobody stops has delivered
- `stream_of_answers`: what Dart receives from the kernel's table
-/

namespace LanScan.Android

open NativeIPNeigh (RtnlHandle)
open Netlink (Machine Fits)
open Scanner (tiramisu Unstopped foundNames withNames)

/-- A scan below API 33 that nobody stops, in a subnet with addresses that `getByAddress`
    accepts. -/
theorem completed_run_of_encodable {cfg : Scanner.Config} (hsdk : cfg.sdkInt < tiramisu)
    (hlo : -32768 ≤ cfg.cidrPrefixLength.toInt) (hhi : cfg.cidrPrefixLength.toInt ≤ 32)
    (henc : EncodableSubnet cfg.ipv4 cfg.cidrPrefixLength) {ls : List Scanner.Label}
    {s : Scanner.State}
    (h : ((Scanner.scanner cfg).restrict Unstopped).run Scanner.init ls = some s)
    (hdone : s.Completed) :
    ∃ hosts : List Host, s.looper.delivered = hosts.map .host ++ [.null] ∧
      hosts.Perm (withNames (foundNames ls) cfg.arpTable) :=
  Scanner.delivered_of_run hsdk hlo hhi ((encodableSubnet_iff cfg.ipv4 hlo).mp henc) h hdone

/-- What a call of `nativeIPNeigh` through the pipe has returned, when it has. -/
theorem hosts_of_returned {env : NeighEnv} {m : Machine} {entries : List (NeighEntry env)}
    (hmax : 3 ≤ m.ndaMax) (hanswers : m.Answers (entries.map NeighEntry.msg))
    (hfits : ∀ e ∈ entries, Fits e.msg)
    (hci : ∀ e ∈ entries, ∀ ci ∈ parseRtattr e.msg.attributes ndaCacheinfo, 16 ≤ ci.length)
    {getByName : List Char → Option InetAddress} (hnum : ∀ e ∈ entries, e.IsNumeric getByName)
    {capacity : Nat} {rth : RtnlHandle} {malformed : List UInt8 → List Char} {ks : List Unit}
    {p : ArpPipe.State} {hosts : List Host}
    (hp : (ArpPipe.program (.ofBytes capacity env m rth getByName malformed)).run
      (ArpPipe.init (.ofBytes capacity env m rth getByName malformed)) ks = some p)
    (hreturned : p.pc = .returned hosts) : hosts = entries.filterMap NeighEntry.host := by
  obtain ⟨hwhole, hdelivers⟩ := Netlink.delivers_of_answers hanswers hfits hci
  rw [Netlink.ofBytes_eq_setting hmax hwhole] at hp
  obtain ⟨-, hphase⟩ := ArpPipe.flow_of_run (ArpPipe.closes_setting _) hp
  rw [hreturned] at hphase
  rw [hphase.1, ArpPipe.hosts_of_delivers hdelivers]
  exact NeighEntry.parse_table entries hnum

/-- **From the kernel to Dart.** Whatever neighbour table the kernel sends, in whatever
    datagrams, when `nativeIPNeigh` returns and the scan takes its hosts from the pipe, the scan
    ends with a stream of the listed hosts, each once and with the name that `processHost` found
    for it, and then null: whatever the probes do, however the coroutines interleave, and whether
    or not the five minutes are over first, as long as nobody stops it and `getByAddress` accepts
    the addresses of the subnet. -/
theorem stream_of_answers {env : NeighEnv} {m : Machine} (entries : List (NeighEntry env))
    (hmax : 3 ≤ m.ndaMax) (hanswers : m.Answers (entries.map NeighEntry.msg))
    (hfits : ∀ e ∈ entries, Fits e.msg)
    (hci : ∀ e ∈ entries, ∀ ci ∈ parseRtattr e.msg.attributes ndaCacheinfo, 16 ≤ ci.length)
    {getByName : List Char → Option InetAddress} (hnum : ∀ e ∈ entries, e.IsNumeric getByName)
    {capacity : Nat} {rth : RtnlHandle} {malformed : List UInt8 → List Char} {ks : List Unit}
    {p : ArpPipe.State}
    (hp : (ArpPipe.program (.ofBytes capacity env m rth getByName malformed)).run
      (ArpPipe.init (.ofBytes capacity env m rth getByName malformed)) ks = some p)
    (cfg : Scanner.Config) (htable : p.pc = .returned cfg.arpTable)
    (hsdk : cfg.sdkInt < tiramisu)
    (hlo : -32768 ≤ cfg.cidrPrefixLength.toInt) (hhi : cfg.cidrPrefixLength.toInt ≤ 32)
    (henc : EncodableSubnet cfg.ipv4 cfg.cidrPrefixLength)
    (toJson : Host → String) (hjson : Dart.WritesHosts toJson)
    (ls : List Scanner.Label) (s : Scanner.State)
    (hs : ((Scanner.scanner cfg).restrict Unstopped).run Scanner.init ls = some s)
    (hdone : s.Completed) :
    ∃ hosts : List Host,
      Dart.startDeviceScanStream (s.looper.delivered.map (Event.encode toJson)) =
        Dart.completeStream hosts ∧
      hosts.Perm (withNames (foundNames ls) (entries.filterMap NeighEntry.host)) := by
  obtain ⟨hosts, hdelivered, hperm⟩ := completed_run_of_encodable hsdk hlo hhi henc hs hdone
  -- the hosts of the scan are those that the native call has returned
  rw [hosts_of_returned hmax hanswers hfits hci hnum hp htable] at hperm
  exact ⟨hosts, Dart.startDeviceScanStream_delivered hjson hdelivered, hperm⟩

/-! ## The table of the wireless network -/

/-- The scan of the wireless network, whose table lists the router and the printer. -/
def wlanConfig : Scanner.Config :=
  Scanner.tableConfig [Scanner.routerHost, Scanner.printerHost]

/-- The five minutes are over before the last worker, and the printer is posted before the
    router. -/
def wlanRun : List Scanner.Label :=
  [.launch] ++ (List.range 8).map .worker ++
    [.worker 0, .worker 0, .worker 0, .timeout, .worker 1, .worker 1, .worker 1, .job] ++
    [.arp 0, .arp 1, .arpProcessHost 1 none, .arp 1, .arpProcessHost 0 (some "router.lan"),
      .arp 0, .job, .job, .job, .deliver, .deliver, .deliver]

/-- The state after it. -/
def wlanState : Scanner.State :=
  (((Scanner.scanner wlanConfig).restrict Unstopped).run Scanner.init wlanRun).get (by decide)

/-- What the wireless network's call of `nativeIPNeigh` runs on. -/
def wlanSetting : ArpPipe.Setting :=
  .ofBytes 65536 wlanEnv Netlink.wlanMachine ⟨-1, 0, 0⟩ Netlink.wlanNames fun _ => []

/-- The two hosts are read from the pipe. -/
theorem exists_run_wlanSetting : ∃ ks p,
    (ArpPipe.program wlanSetting).run (ArpPipe.init wlanSetting) ks = some p ∧
      p.pc = .returned wlanConfig.arpTable := by
  obtain ⟨ks, p, hp, hterm⟩ := ArpPipe.exists_terminal wlanSetting (ArpPipe.init wlanSetting)
  have hreturned := Netlink.returned_of_answers (by decide) Netlink.answers_wlanMachine (by decide)
    (by decide) Netlink.isNumeric_wlanTable hp hterm (by decide +kernel)
  refine ⟨ks, p, hp, ?_⟩
  rw [hreturned]
  decide

/-- The stream brings the router with its name, and the printer without one. -/
theorem stream_of_answers_wlan : ∃ hosts : List Host,
    Dart.startDeviceScanStream (wlanState.looper.delivered.map
      (Event.encode Dart.gsonToJson)) = Dart.completeStream hosts ∧
    hosts.Perm [{ Scanner.routerHost with hostname := some "router.lan" },
      Scanner.printerHost] := by
  obtain ⟨ks, p, hp, htable⟩ := exists_run_wlanSetting
  have hstream := stream_of_answers (wlanTable.map Neighbour.toNeighEntry) (by decide)
    Netlink.answers_wlanMachine (by decide) (by decide) Netlink.isNumeric_wlanTable hp wlanConfig
    htable (by decide) (by decide) (by decide) (by decide) Dart.gsonToJson Dart.writesHosts_gson
    wlanRun wlanState (Option.some_get _).symm (by decide)
  exact hstream

end LanScan.Android
