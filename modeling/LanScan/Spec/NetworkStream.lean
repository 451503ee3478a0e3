import LanScan.Spec.Network
import LanScan.Spec.StreamAgreement

/-!
# From the network to Dart

What `Wireless` finds out about the WiFi network, the scan of its addresses, and the stream of
Dart: on both platforms it brings the hosts of the network that answer, each once, and no other.

## Key results

- `mem_addresses_iff`: a scan goes through the hosts of the network
- `Ios.stream_of_interfaces`: the stream on iOS, from the list of interfaces on
- `Android.stream_of_wifiInfo`: the stream on Android, from the answers of the services on
-/

namespace LanScan

open Ipv4 (IsHostOf network)

variable {a mask : Ipv4} {plan : Ios.ScanPlan}

/-! ## The addresses of a scan -/

/-- The number of an address, as iOS has it. -/
theorem toInt_address (a : Ipv4) : (Int64.ofNat a.toNat).toInt = a.toNat :=
  Int64.toInt_ofNat_of_lt (by have := a.toNat_lt; omega)

/-- The prefix length of a netmask, as iOS has it. -/
theorem toInt_prefixLength (mask : Ipv4) :
    (Int64.ofNat (Nat.ones 32 mask.toNat)).toInt = Nat.ones 32 mask.toNat :=
  Int64.toInt_ofNat_of_lt (by have := Nat.ones_le 32 mask.toNat; omega)

/-- The network that the scan computes is that of the address. -/
theorem networkAddress_eq (a mask : Ipv4) :
    Ios.networkAddress (Int64.ofNat a.toNat) (Int64.ofNat (Nat.ones 32 mask.toNat)) =
      network mask a := by
  have hmod := Nat.mod_le a.toNat (2 ^ mask.hostBits)
  have hbits : (32 - (Nat.ones 32 mask.toNat : Int)).toNat = mask.hostBits := by
    unfold Ipv4.hostBits
    omega
  rw [Ios.networkAddress, toInt_address, toInt_prefixLength, hbits, network, Int.natCast_sub hmod,
    Int.natCast_emod, Int.natCast_pow, Int.cast_ofNat_Int]

/-- The broadcast address that the scan computes is the last one of the network. -/
theorem broadcastAddress_eq (a mask : Ipv4) :
    Ios.broadcastAddress (Int64.ofNat a.toNat) (Int64.ofNat (Nat.ones 32 mask.toNat)) =
      network mask a + 2 ^ mask.hostBits - 1 := by
  have hbits : (32 - (Nat.ones 32 mask.toNat : Int)).toNat = mask.hostBits := by
    unfold Ipv4.hostBits
    omega
  rw [Ios.broadcastAddress, networkAddress_eq, toInt_prefixLength, hbits]

/-- A scan goes through the hosts of the network. -/
theorem mem_addresses_iff (hcontig : ContiguousFromTop mask)
    (hplan : Ios.scanPlan (Int64.ofNat a.toNat) (Int64.ofNat (Nat.ones 32 mask.toNat)) =
      some plan) (ip : String) :
    ip ∈ plan.addresses ↔ ∃ b, IsHostOf mask a b ∧ ip = b.text := by
  have hlt := a.toNat_lt
  have hle := Nat.ones_le 32 mask.toNat
  have haddress := toInt_address a
  have hprefix := toInt_prefixLength mask
  rw [Ios.mem_addresses (by omega) (by omega) hplan, networkAddress_eq, broadcastAddress_eq,
    Ipv4.exists_isHostOf_iff hcontig]

/-! ## iOS -/

namespace Ios

/-- The WiFi interface has an address and a netmask. -/
def Wireless.IsOn (w : Wireless) (a mask : Ipv4) : Prop :=
  ∃ info, w.getWiFiNetInfo = some info ∧ info.ip = a.text ∧ info.netmask = mask.text

/-- `getInternalWifiIpAddress` gives the address of the network. -/
theorem Wireless.IsOn.getInternalWifiIpAddress_eq {w : Wireless} (h : w.IsOn a mask) :
    w.getInternalWifiIpAddress = some (some (Int64.ofNat a.toNat)) := by
  obtain ⟨info, hinfo, hip, -⟩ := h
  rw [Wireless.getInternalWifiIpAddress, Wireless.getInternalWifiIpString, hinfo, Option.map_some,
    hip]
  exact Wireless.number_text a

/-- `getInternalWifiCidrPrefixLength` gives the number of one bits of the mask. -/
theorem Wireless.IsOn.getInternalWifiCidrPrefixLength_eq {w : Wireless} (h : w.IsOn a mask) :
    w.getInternalWifiCidrPrefixLength = some (Int64.ofNat (Nat.ones 32 mask.toNat)) := by
  obtain ⟨info, hinfo, -, hmask⟩ := h
  apply Wireless.getInternalWifiCidrPrefixLength_eq
  rw [Wireless.getInternalWifiSubnetString, hinfo, Option.map_some, hmask]

/-- A complete scan of the network whose final check came in time. -/
theorem delivered_of_network {cfg : Scanner.Config} (hipv4 : cfg.ipv4 = Int64.ofNat a.toNat)
    (hcidr : cfg.cidrPrefixLength = Int64.ofNat (Nat.ones 32 mask.toNat))
    (hcontig : ContiguousFromTop mask) {ks : List Scanner.Label} {t : Scanner.State}
    (hrun : ((Scanner.undisturbed cfg).restrict Scanner.TimelySignal).run Scanner.init ks = some t)
    (hterm : (Scanner.undisturbed cfg).Terminal t) :
    ∃ hosts : List Host, t.main.delivered = hosts.map .host ++ [.null] ∧
      (hosts.map Host.ip).Nodup ∧
      ∀ ip, ip ∈ hosts.map Host.ip ↔
        ∃ b, IsHostOf mask a b ∧ ip = b.text ∧ cfg.ping ip = true := by
  have hlt := a.toNat_lt
  have hle := Nat.ones_le 32 mask.toNat
  -- address and prefix length are in the range of the scan
  have haddress : cfg.ipv4.toInt = a.toNat := by rw [hipv4, toInt_address]
  have hprefix : cfg.cidrPrefixLength.toInt = Nat.ones 32 mask.toNat := by
    rw [hcidr, toInt_prefixLength]
  have hipv4' : 0 ≤ cfg.ipv4.toInt ∧ cfg.ipv4.toInt < 2 ^ 32 := by omega
  have hcidr' : 0 ≤ cfg.cidrPrefixLength.toInt ∧ cfg.cidrPrefixLength.toInt ≤ 32 := by omega
  obtain ⟨plan, hplan, -⟩ := scanPlan_eq hipv4' hcidr'
  -- the hosts are the addresses of the plan that answer, and these are the hosts of the network
  obtain ⟨hosts, hdelivered, hperm⟩ := delivered_ios hipv4' hcidr' hplan hrun hterm
  refine ⟨hosts, hdelivered, ?_, fun ip => ?_⟩
  · exact hperm.nodup_iff.mpr ((nodup_addresses hipv4' hcidr' hplan).filter _)
  · rw [hipv4, hcidr] at hplan
    rw [hperm.mem_iff, List.mem_filter, mem_addresses_iff hcontig hplan]
    constructor
    · rintro ⟨⟨b, hb, hip⟩, hping⟩
      exact ⟨b, hb, hip, hping⟩
    · rintro ⟨b, hb, hip, hping⟩
      exact ⟨⟨b, hb, hip⟩, hping⟩

/-- **From the interfaces to Dart (iOS).** In a WiFi network whose netmask has its one bits on
    top, `onListen` finds an address and a prefix length to scan with, and whatever the schedule
    of the workers: after a complete scan whose final check came in time, the stream of Dart has
    brought the hosts of the network that answer, each once and no other, and then a null. -/
theorem stream_of_interfaces (w : Wireless) (a mask : Ipv4) (hw : w.IsOn a mask)
    (hcontig : ContiguousFromTop mask) (toJson : Host → String) (hjson : Dart.WritesHosts toJson) :
    ∃ ipv4 cidrPrefixLength, w.getInternalWifiIpAddress = some (some ipv4) ∧
      w.getInternalWifiCidrPrefixLength = some cidrPrefixLength ∧
      ∀ (cfg : Scanner.Config), cfg.ipv4 = ipv4 → cfg.cidrPrefixLength = cidrPrefixLength →
      ∀ (ks : List Scanner.Label) (t : Scanner.State),
        ((Scanner.undisturbed cfg).restrict Scanner.TimelySignal).run Scanner.init ks = some t →
        (Scanner.undisturbed cfg).Terminal t →
        ∃ hosts : List Host,
          Dart.startDeviceScanStream (t.main.delivered.map (Event.encode toJson)) =
            Dart.completeStream hosts ∧
          (hosts.map Host.ip).Nodup ∧
          ∀ ip, ip ∈ hosts.map Host.ip ↔
            ∃ b, IsHostOf mask a b ∧ ip = b.text ∧ cfg.ping ip = true := by
  refine ⟨_, _, hw.getInternalWifiIpAddress_eq, hw.getInternalWifiCidrPrefixLength_eq, ?_⟩
  intro cfg hipv4 hcidr ks t hrun hterm
  obtain ⟨hosts, hdelivered, hhosts⟩ := delivered_of_network hipv4 hcidr hcontig hrun hterm
  exact ⟨hosts, Dart.startDeviceScanStream_delivered hjson hdelivered, hhosts⟩

/-- The WiFi interface behind the loopback. -/
def homeWireless : Wireless where
  interfaces := some [
    { flags := 0x49, family := some Wireless.afInet, name := "lo0", address := some "127.0.0.1",
      netmask := some "255.0.0.0" },
    { flags := 0x8863, family := some 18, name := "en0", address := some "", netmask := none },
    { flags := 0x8863, family := some Wireless.afInet, name := "en0",
      address := some "192.168.0.1", netmask := some "255.255.255.252" }]

/-- The interface is in that network. -/
theorem isOn_homeWireless : homeWireless.IsOn ⟨192, 168, 0, 1⟩ ⟨255, 255, 255, 252⟩ :=
  ⟨⟨"192.168.0.1", "255.255.255.252", 30⟩, by decide, by decide, by decide⟩

/-- The printer is the one host that answers. -/
theorem stream_of_interfaces_home : ∃ hosts : List Host,
    Dart.startDeviceScanStream (printerState.main.delivered.map
      (Event.encode Dart.encoderToJson)) = Dart.completeStream hosts ∧
    (hosts.map Host.ip).Nodup ∧
    ∀ ip, ip ∈ hosts.map Host.ip ↔
      ∃ b, IsHostOf ⟨255, 255, 255, 252⟩ ⟨192, 168, 0, 1⟩ b ∧ ip = b.text ∧
        printerConfig.ping ip = true := by
  obtain ⟨ipv4, p, hipv4, hp, h⟩ := stream_of_interfaces homeWireless _ _ isOn_homeWireless
    (by decide) Dart.encoderToJson Dart.writesHosts_encoder
  have hipv4' : homeWireless.getInternalWifiIpAddress = some (some printerConfig.ipv4) := by decide
  have hp' : homeWireless.getInternalWifiCidrPrefixLength =
    some printerConfig.cidrPrefixLength := by decide
  rw [hipv4', Option.some.injEq, Option.some.injEq] at hipv4
  rw [hp', Option.some.injEq] at hp
  exact h printerConfig hipv4 hp printerRun printerState run_printerRun terminal_printerState

end Ios

/-! ## Android -/

namespace Android

/-- An address with its four bytes. -/
def inetAddressOf (b : Ipv4) : InetAddress := .inet4 b.b₀ b.b₁ b.b₂ b.b₃

/-- The device has an address and a netmask in its WiFi network.  The system services give the
    first byte of the address the lowest place in memory. -/
structure Wireless.IsOn (w : Wireless) (a mask : Ipv4) : Prop where
  ipAddress : Ipv4.ofInt w.ipAddress.toInt =
    match w.nativeOrder with
    | .littleEndian => a.reverse
    | .bigEndian => a
  dhcpInfo : ∃ n, w.dhcpInfo = some n ∧
    (Ipv4.ofInt n.toInt = mask ∨ Ipv4.ofInt n.toInt = mask.reverse)

/-- An `Int` is the number of its address. -/
theorem toNat_toBitVec (x : Int32) : x.toBitVec.toNat = (Ipv4.ofInt x.toInt).toNat := by
  have hofInt := Ipv4.toNat_ofInt x.toInt
  have hcond := BitVec.toInt_eq_toNat_cond x.toBitVec
  have hint : x.toBitVec.toInt = x.toInt := rfl
  have hlt := x.toBitVec.isLt
  rw [hint] at hcond
  split at hcond <;> omega

/-- `getInternalWifiIpAddress` gives the address of the phone. -/
theorem Wireless.IsOn.ofInt_getInternalWifiIpAddress {w : Wireless} (h : w.IsOn a mask) :
    Ipv4.ofInt w.getInternalWifiIpAddress.toInt = a := by
  have hip := h.ipAddress
  unfold Wireless.getInternalWifiIpAddress
  cases horder : w.nativeOrder with
  | bigEndian => simpa only [horder] using hip
  -- On such a device `reverseBytes` turns the stored number round.
  | littleEndian =>
    simp only [horder] at hip
    have hnat := toNat_reverseBytes w.ipAddress
    rw [hip, toNat_toBitVec] at hnat
    rw [← Ipv4.ofInt_toNat (Ipv4.ofInt (reverseBytes w.ipAddress).toInt), hnat]
    exact Ipv4.ofInt_toNat a

/-- `getInternalWifiCidrPrefixLength` gives the number of one bits of the mask. -/
theorem Wireless.IsOn.toInt_getInternalWifiCidrPrefixLength {w : Wireless} (h : w.IsOn a mask)
    (hmask : 4 ≤ Nat.ones 32 mask.toNat) :
    w.getInternalWifiCidrPrefixLength.toInt = Nat.ones 32 mask.toNat := by
  obtain ⟨n, hn, hbytes⟩ := h.dhcpInfo
  have hle := Nat.ones_le 32 mask.toNat
  -- The number of bits is the same in either byte order.
  have hcount : (bitCount n).toInt = Nat.ones 32 mask.toNat := by
    rw [toInt_bitCount_eq, toNat_toBitVec]
    rcases hbytes with hbytes | hbytes <;> rw [hbytes]
    rw [ones_reverse]
  have hfour : (4 : Int32).toInt = 4 := by decide
  have hmax : (32 : Int32).toInt = 32 := by decide
  have hbounds : ¬ (bitCount n < 4 ∨ bitCount n > 32) := by
    rw [gt_iff_lt, Int32.lt_iff_toInt_lt, Int32.lt_iff_toInt_lt, hcount, hfour, hmax]
    omega
  simp only [Wireless.getInternalWifiCidrPrefixLength, hn]
  rw [if_neg hbounds, hcount]

variable {cfg : Scanner.Config}

/-- The scan of the same network on iOS. -/
def twin (a mask : Ipv4) : Ios.Scanner.Config where
  ipv4 := Int64.ofNat a.toNat
  cidrPrefixLength := Int64.ofNat (Nat.ones 32 mask.toNat)
  ping _ := false

/-- The addresses of a scan are those of the hosts of the network. -/
theorem map_hostAddress_eq (hipv4 : Ipv4.ofInt cfg.ipv4.toInt = a)
    (hcidr : cfg.cidrPrefixLength.toInt = Nat.ones 32 mask.toNat)
    (hmask : 4 ≤ Nat.ones 32 mask.toNat) (henc : EncodableSubnet cfg.ipv4 cfg.cidrPrefixLength)
    (hplan : Ios.scanPlan (twin a mask).ipv4 (twin a mask).cidrPrefixLength = some plan) :
    (scanAddresses cfg.ipv4 cfg.cidrPrefixLength).map
      (fun x => (inetAddress x).hostAddress) = plan.addresses := by
  have hle := Nat.ones_le 32 mask.toNat
  have hprefix := toInt_prefixLength mask
  have hofInt := Ipv4.toNat_ofInt cfg.ipv4.toInt
  rw [hipv4] at hofInt
  apply addresses_eq (by omega) (by omega) _ _ hplan henc
  · rw [twin, hprefix, hcidr]
  · rw [twin, toInt_address, hofInt]

/-- Different addresses are different. -/
theorem inetAddressOf_injective {b b' : Ipv4} (h : inetAddressOf b = inetAddressOf b') :
    b = b' := by
  obtain ⟨b₀, b₁, b₂, b₃⟩ := b
  obtain ⟨b₀', b₁', b₂', b₃'⟩ := b'
  simpa [inetAddressOf] using h

/-- The address of a number is that of its bytes. -/
theorem inetAddress_eq (x : Int32) : inetAddress x = inetAddressOf (Ipv4.ofInt x.toInt) := rfl

/-- `getHostAddress` writes the dotted text. -/
theorem hostAddress_inetAddressOf (b : Ipv4) : (inetAddressOf b).hostAddress = b.text := rfl

/-- The addresses of the scan are the hosts of the network. -/
theorem exists_mem_scanAddresses_iff (hcontig : ContiguousFromTop mask)
    (haddresses : (scanAddresses cfg.ipv4 cfg.cidrPrefixLength).map
      (fun x => (inetAddress x).hostAddress) = plan.addresses)
    (hplan : Ios.scanPlan (twin a mask).ipv4 (twin a mask).cidrPrefixLength = some plan)
    (b : Ipv4) :
    (∃ x ∈ scanAddresses cfg.ipv4 cfg.cidrPrefixLength, inetAddress x = inetAddressOf b) ↔
      IsHostOf mask a b := by
  have hmem (ip : String) := mem_addresses_iff hcontig hplan ip
  simp only [← haddresses, List.mem_map, inetAddress_eq, hostAddress_inetAddressOf] at hmem ⊢
  constructor
  -- Addresses are compared through their texts, which determine them.
  · rintro ⟨x, hx, heq⟩
    obtain ⟨b', hb', htext⟩ := (hmem _).mp ⟨x, hx, rfl⟩
    rw [← inetAddressOf_injective heq, Ipv4.text_injective htext]
    exact hb'
  · intro hb
    obtain ⟨x, hx, htext⟩ := (hmem b.text).mpr ⟨b, hb, rfl⟩
    exact ⟨x, hx, by rw [Ipv4.text_injective htext]⟩

/-- The hosts that answer are among the addresses. -/
theorem reachableHosts_sublist (xs : List Int32) : (Scanner.reachableHosts cfg xs).Sublist
    (xs.map fun x => (inetAddress x).hostAddress) := by
  have hsublist := (List.filter_sublist (p := cfg.isReachable) (l := xs.map inetAddress)).map
    InetAddress.hostAddress
  rwa [List.map_map] at hsublist

/-- **From the network to Dart (Android).** From API 33 on, in a WiFi network whose netmask has
    its one bits on top, four at least, and whatever the schedule of the workers: if no probe of a
    host raises and `getByAddress` accepts the addresses, then after a complete scan the stream of
    Dart has brought the hosts of the network that answer, each once and no other, and then a
    null. -/
theorem stream_of_wifiInfo (w : Wireless) (a mask : Ipv4) (hw : w.IsOn a mask)
    (hcontig : ContiguousFromTop mask) (hmask : 4 ≤ Nat.ones 32 mask.toNat)
    (cfg : Scanner.Config) (hsdk : Scanner.tiramisu ≤ cfg.sdkInt)
    (hipv4 : cfg.ipv4 = w.getInternalWifiIpAddress)
    (hcidr : cfg.cidrPrefixLength = w.getInternalWifiCidrPrefixLength)
    (henc : EncodableSubnet cfg.ipv4 cfg.cidrPrefixLength)
    (hprobe : ∀ b, IsHostOf mask a b → cfg.probe (inetAddressOf b) ≠ .ioException)
    (toJson : Host → String) (hjson : Dart.WritesHosts toJson)
    (ls : List Scanner.Label) (s : Scanner.State)
    (hs : (Scanner.undisturbed cfg).run Scanner.init ls = some s)
    (hterm : (Scanner.undisturbed cfg).Terminal s) :
    ∃ hosts : List Host,
      Dart.startDeviceScanStream (s.looper.delivered.map (Event.encode toJson)) =
        Dart.completeStream hosts ∧
      (hosts.map Host.ip).Nodup ∧
      ∀ ip, ip ∈ hosts.map Host.ip ↔
        ∃ b, IsHostOf mask a b ∧ ip = b.text ∧ cfg.isReachable (inetAddressOf b) = true := by
  have hlt := a.toNat_lt
  have hle := Nat.ones_le 32 mask.toNat
  have hcidr' := hcidr ▸ hw.toInt_getInternalWifiCidrPrefixLength hmask
  have haddress : 0 ≤ (twin a mask).ipv4.toInt ∧ (twin a mask).ipv4.toInt < 2 ^ 32 := by
    rw [twin, toInt_address]
    omega
  have hprefix : 0 ≤ (twin a mask).cidrPrefixLength.toInt ∧
      (twin a mask).cidrPrefixLength.toInt ≤ 32 := by
    rw [twin, toInt_prefixLength]
    omega
  -- the iOS scan of the same network enumerates the same texts
  obtain ⟨plan, hplan, -⟩ := Ios.scanPlan_eq haddress hprefix
  have haddresses := map_hostAddress_eq (hipv4 ▸ hw.ofInt_getInternalWifiIpAddress) hcidr' hmask
    henc hplan
  -- so the addresses of this scan are the hosts of the network as well
  have hmem := exists_mem_scanAddresses_iff hcontig haddresses hplan
  obtain ⟨hosts, hdelivered, hperm⟩ := delivered_android hsdk (by omega) (by omega) henc
    (fun x hx => hprobe (Ipv4.ofInt x.toInt) ((hmem _).mp ⟨x, hx, rfl⟩)) hs hterm
  refine ⟨hosts, Dart.startDeviceScanStream_delivered hjson hdelivered, ?_, fun ip => ?_⟩
  · have hnodup := Ios.nodup_addresses haddress hprefix hplan
    exact hperm.nodup_iff.mpr (hnodup.sublist (haddresses ▸ reachableHosts_sublist _))
  -- of these the reachable ones are posted
  · rw [hperm.mem_iff, Scanner.reachableHosts]
    simp only [List.mem_map, List.mem_filter]
    constructor
    · rintro ⟨_, ⟨⟨x, hx, rfl⟩, hreach⟩, rfl⟩
      exact ⟨Ipv4.ofInt x.toInt, (hmem _).mp ⟨x, hx, rfl⟩, rfl, hreach⟩
    · rintro ⟨b, hb, rfl, hreach⟩
      obtain ⟨x, hx, heq⟩ := (hmem b).mpr hb
      exact ⟨_, ⟨⟨x, hx, heq⟩, hreach⟩, rfl⟩

/-- The phone with the address 192.168.0.1, whose first byte is the lowest one of the `Int`. -/
def phoneWireless : Wireless where
  ipAddress := 16820416
  nativeOrder := .littleEndian
  dhcpInfo := some (-50331649)
  getByName _ := .ok none
  getByInetAddress _ := .ok none

/-- The phone is in that network. -/
theorem isOn_phoneWireless : phoneWireless.IsOn ⟨192, 168, 0, 1⟩ ⟨255, 255, 255, 252⟩ where
  ipAddress := by decide
  dhcpInfo := ⟨-50331649, by decide, .inr (by decide)⟩

/-- On Android too the printer is the one host that answers. -/
theorem stream_of_wifiInfo_phone : ∃ hosts : List Host,
    Dart.startDeviceScanStream (Scanner.pairState.looper.delivered.map
      (Event.encode Dart.gsonToJson)) = Dart.completeStream hosts ∧
    (hosts.map Host.ip).Nodup ∧
    ∀ ip, ip ∈ hosts.map Host.ip ↔
      ∃ b, IsHostOf ⟨255, 255, 255, 252⟩ ⟨192, 168, 0, 1⟩ b ∧ ip = b.text ∧
        Scanner.pairConfig.isReachable (inetAddressOf b) = true :=
  stream_of_wifiInfo phoneWireless _ _ isOn_phoneWireless (by decide) (by decide)
    Scanner.pairConfig (by decide) (by decide) (by decide) (by decide)
    (fun b _ => by simp only [Scanner.pairConfig]; split <;> simp)
    Dart.gsonToJson Dart.writesHosts_gson Scanner.pairScan _ Scanner.run_pairScan
    Scanner.terminal_pairState

end Android

end LanScan
