import LanScan.Native.Android.Wireless
import LanScan.Spec.Android.SubnetCorrect

/-!
# Subnets whose addresses all have four bytes (Android)

`BigInteger.toByteArray` drops leading sign bytes, so an address whose top nine
bits are all equal does not survive the way to `InetAddress.getByAddress`.
`EncodableSubnet` says for which `ipv4` and prefix no such address is visited,
including the prefixes below 1 that the fallbacks of
`getInternalWifiCidrPrefixLength` return, where the arithmetic of
`startScanning` wraps around and saturates.

## Key results

- `toInt_getInternalWifiCidrPrefixLength`: the range of prefixes
- `encodableSubnet_iff`: `EncodableSubnet` is exactly the condition
-/

namespace LanScan.Android

/-! ## The prefixes that Wireless returns -/

/-- There are at most 32 one bits. -/
theorem toInt_bitCount (x : Int32) : 0 ≤ (bitCount x).toInt ∧ (bitCount x).toInt ≤ 32 := by
  have hle : (List.range 32).countP (fun i => x.toBitVec.getLsbD i) ≤ 32 := by
    have := List.countP_le_length (p := fun i => x.toBitVec.getLsbD i) (l := List.range 32)
    rw [List.length_range] at this
    exact this
  rw [bitCount, Int32.toInt_ofNat_of_lt (by omega)]
  omega

/-- The fallback lookup returns zero or the sign extension of a `Short`. -/
theorem toInt_of_lookupPrefixLength {w : Wireless} {prefixLength : Int32}
    (h : w.lookupPrefixLength = .ok (some prefixLength)) :
    -32768 ≤ prefixLength.toInt ∧ prefixLength.toInt ≤ 32767 := by
  have hzero : (0 : Int32).toInt = 0 := by decide
  unfold Wireless.lookupPrefixLength at h
  cases hname : w.getWifiInetAddress with
  | error e => rw [hname] at h; exact nomatch h
  | ok wifiInetAddress =>
    rw [hname] at h
    cases wifiInetAddress with
    | none => cases h; rw [hzero]; omega
    | some wifiInetAddress =>
      -- the interface was found: its addresses are searched for one with a prefix
      simp only [bind, Except.bind] at h
      cases hif : w.getByInetAddress wifiInetAddress with
      | error e => rw [hif] at h; exact nomatch h
      | ok interfaceAddresses =>
        rw [hif] at h
        cases interfaceAddresses with
        | none => cases h; rw [hzero]; omega
        | some interfaceAddresses =>
          simp only [pure, Except.pure, Except.ok.injEq, Option.map_eq_some_iff] at h
          obtain ⟨address, _, rfl⟩ := h
          have hlo : -2 ^ 15 ≤ address.networkPrefixLength.toInt :=
            address.networkPrefixLength.le_toInt
          have hhi : address.networkPrefixLength.toInt < 2 ^ 15 :=
            address.networkPrefixLength.toInt_lt
          rw [Int16.toInt_toInt32]
          omega

/-- A prefix length is a bit count or the sign extension of a `Short`. -/
theorem toInt_getInternalWifiCidrPrefixLength (w : Wireless) :
    -32768 ≤ w.getInternalWifiCidrPrefixLength.toInt ∧
      w.getInternalWifiCidrPrefixLength.toInt ≤ 32767 := by
  have hzero : (0 : Int32).toInt = 0 := by decide
  unfold Wireless.getInternalWifiCidrPrefixLength
  split
  · rw [hzero]
    omega
  -- with a netmask: what its number of bits leads to, or a prefix length of the interface
  · rename_i dhcpNetmask _
    have hcount := toInt_bitCount dhcpNetmask
    simp only
    split
    · split
      · rename_i prefixLength hlookup
        exact toInt_of_lookupPrefixLength hlookup
      · omega
      · omega
    · omega

/-! ## Encodable subnets -/

/-- No address of the scan has nine equal leading bits.  With a prefix of at least
    one bit these are the bits that the whole subnet shares; without one the
    addresses go on for `2 ^ 31 - 3` steps from a base that still depends on the
    prefix modulo 32. -/
def EncodableSubnet (ipv4 cidrPrefixLength : Int32) : Prop :=
  let p := cidrPrefixLength.toInt
  let shared : Int := 2 ^ (32 - min p 9).toNat
  let base := ipv4.toInt - ipv4.toInt % 2 ^ (-p % 32).toNat
  31 ≤ p ∨
    (1 ≤ p ∧ p ≤ 30 ∧ (ipv4.toInt < -shared ∨ shared ≤ ipv4.toInt)) ∨
    (p ≤ 0 ∧ 2 ^ 23 - 1 ≤ base ∧ base ≤ 2 ^ 31 - 2 ^ 23 + 2)

instance (ipv4 cidrPrefixLength : Int32) : Decidable (EncodableSubnet ipv4 cidrPrefixLength) :=
  inferInstanceAs (Decidable (_ ∨ _))

/-- What has to hold of the addresses, index by index. -/
theorem forall_scanAddresses_iff {ipv4 p : Int32} {P : Int32 → Prop} :
    (∀ x ∈ scanAddresses ipv4 p, P x) ↔
      ∀ index, 0 ≤ index → index < (numberOfHosts p).toInt → P (numericIp ipv4 p index) := by
  simp only [scanAddresses, List.forall_mem_map, List.mem_stride Int.one_pos, Int.emod_one,
    and_true, and_imp]

/-- Prefixes from 1 to 30: the bits in question are those that the subnet shares. -/
theorem encodable_prefix_iff (ipv4 : Int32) {p : Int32} (hlo : 1 ≤ p.toInt) (hhi : p.toInt ≤ 30) :
    (∀ x ∈ scanAddresses ipv4 p, HasFourBytes x) ↔
      ipv4.toInt < -2 ^ (32 - min p.toInt 9).toNat ∨
        2 ^ (32 - min p.toInt 9).toNat ≤ ipv4.toInt := by
  have hblock : (2 : Int) ^ 2 ≤ 2 ^ (32 - p.toInt).toNat := by
    exact_mod_cast Nat.pow_le_pow_right (by omega) (show 2 ≤ (32 - p.toInt).toNat by omega)
  have hshared : (2 : Int) ^ 23 ≤ 2 ^ (32 - min p.toInt 9).toNat := by
    exact_mod_cast Nat.pow_le_pow_right (by omega) (show 23 ≤ (32 - min p.toInt 9).toNat by omega)
  have hdvd := Int.two_pow_dvd_two_pow
    (show (32 - p.toInt).toNat ≤ (32 - min p.toInt 9).toNat by omega)
  have hcase : (2 : Int) ^ (32 - min p.toInt 9).toNat = 2 ^ (32 - p.toInt).toNat ∨
      (2 : Int) ^ (32 - min p.toInt 9).toNat = 2 ^ 23 := by
    rcases Int.le_total p.toInt 9 with hp | hp
    · left; rw [Int.min_eq_left hp]
    · right; rw [Int.min_eq_right hp]; rfl
  have hhosts : (numberOfHosts p).toInt = 2 ^ (32 - p.toInt).toNat - 2 ∨
      (numberOfHosts p).toInt = 2 ^ (32 - p.toInt).toNat - 3 := by
    rw [toInt_numberOfHosts, if_neg (by omega)]
    split
    · right
      rw [show p.toInt = 1 by omega]
      rfl
    · left; rfl
  have haddr : ∀ index, 0 ≤ index → index < (numberOfHosts p).toInt →
      (numericIp ipv4 p index).toInt = networkAddress ipv4 p + 1 + index := fun index h₁ h₂ =>
    toInt_numericIp ipv4 hlo (by omega) h₁ h₂
  rw [forall_scanAddresses_iff]
  unfold networkAddress at haddr
  -- from here on only the order of the two powers matters
  generalize (2 : Int) ^ (32 - min p.toInt 9).toNat = shared at *
  generalize (2 : Int) ^ (32 - p.toInt).toNat = block at *
  have hpos : 0 < block := by omega
  constructor
  · intro h
    apply Classical.not_not.mp
    intro hno
    have hge := Int.le_sub_emod hpos (Int.dvd_neg.mpr hdvd) (show -shared ≤ ipv4.toInt by omega)
    have hle := Int.sub_emod_add_le hpos hdvd (show ipv4.toInt < shared by omega)
    rcases Int.lt_or_le ipv4.toInt 0 with hneg | hnonneg
    · -- the subnet lies below zero: its last address is too close to it
      have hzero := Int.sub_emod_add_le hpos (Int.dvd_zero block) hneg
      have hlast := h ((numberOfHosts p).toInt - 1) (by omega) (by omega)
      rw [HasFourBytes, haddr _ (by omega) (by omega)] at hlast
      omega
    · -- the subnet starts at zero or above: its first address is too close
      have hzero := Int.le_sub_emod hpos (Int.dvd_zero block) hnonneg
      have hfirst := h 0 (by omega) (by omega)
      rw [HasFourBytes, haddr _ (by omega) (by omega)] at hfirst
      omega
  · intro h index hindex hlast
    rw [HasFourBytes, haddr index hindex hlast]
    rcases h with h | h
    · have := Int.sub_emod_add_le hpos (Int.dvd_neg.mpr hdvd) h
      omega
    · have := Int.le_sub_emod hpos hdvd h
      omega

/-- Prefixes below 1: the scan runs through almost half of all addresses. -/
theorem encodable_noPrefix_iff (ipv4 : Int32) {p : Int32} (hlo : -32768 ≤ p.toInt)
    (hhi : p.toInt ≤ 0) :
    (∀ x ∈ scanAddresses ipv4 p, HasFourBytes x) ↔
      2 ^ 23 - 1 ≤ ipv4.toInt - ipv4.toInt % 2 ^ (-p.toInt % 32).toNat ∧
        ipv4.toInt - ipv4.toInt % 2 ^ (-p.toInt % 32).toNat ≤ 2 ^ 31 - 2 ^ 23 + 2 := by
  have hshift : (32 - p.toInt) % 32 = -p.toInt % 32 := by omega
  have hbase := toInt_and_netmask ipv4 hlo (show p.toInt ≤ 32767 by omega)
  rw [hshift] at hbase
  rw [← hbase]
  have hge : -2 ^ 31 ≤ (ipv4 &&& netmask p).toInt := (ipv4 &&& netmask p).le_toInt
  have hlt : (ipv4 &&& netmask p).toInt < 2 ^ 31 := (ipv4 &&& netmask p).toInt_lt
  have hhosts : (numberOfHosts p).toInt = 2 ^ 31 - 3 := by
    rw [toInt_numberOfHosts, if_neg (by omega), if_pos (by omega)]
  simp only [forall_scanAddresses_iff, HasFourBytes, toInt_numericIp_eq_bmod, hhosts,
    Int.bmod_def]
  generalize (ipv4 &&& netmask p).toInt = base at *
  constructor
  · intro h
    -- the first address, and the two ends of the forbidden range
    have h₁ := h 0
    have h₂ := h (-2 ^ 23 - base - 1)
    have h₃ := h (2 ^ 32 - 2 ^ 23 - base - 1)
    omega
  · intro h index hindex hlast
    omega

/-- Prefixes from 31 on leave no address to visit. -/
theorem scanAddresses_eq_nil (ipv4 : Int32) {p : Int32} (h : 31 ≤ p.toInt) :
    scanAddresses ipv4 p = [] := by
  have hhosts : (numberOfHosts p).toInt ≤ 0 := by
    rw [toInt_numberOfHosts]
    split
    · omega
    · rw [if_neg (by omega)]
      -- From prefix 31 on at most two addresses are left, and both are reserved.
      have hle : (2 : Int) ^ (32 - p.toInt).toNat ≤ 2 ^ 1 := by
        exact_mod_cast Nat.pow_le_pow_right (by omega) (show (32 - p.toInt).toNat ≤ 1 by omega)
      omega
  rw [scanAddresses, List.stride_eq_nil Int.one_pos hhosts, List.map_nil]

/-- For every prefix that `Wireless` returns, a subnet is encodable exactly when
    each address of its scan has four bytes. -/
theorem encodableSubnet_iff (ipv4 : Int32) {p : Int32} (hlo : -32768 ≤ p.toInt) :
    EncodableSubnet ipv4 p ↔ ∀ x ∈ scanAddresses ipv4 p, HasFourBytes x := by
  simp only [EncodableSubnet]
  -- The prefixes above 30 scan nothing; those below 1 shift by 32 or more.
  rcases Int.lt_or_le 30 p.toInt with h₃₁ | h₃₀
  · rw [scanAddresses_eq_nil ipv4 (by omega)]
    exact ⟨fun _ x hx => absurd hx List.not_mem_nil, fun _ => .inl (by omega)⟩
  · rcases Int.lt_or_le p.toInt 1 with h₀ | h₁
    · rw [encodable_noPrefix_iff ipv4 hlo (by omega)]
      omega
    · rw [encodable_prefix_iff ipv4 h₁ h₃₀]
      omega

end LanScan.Android
