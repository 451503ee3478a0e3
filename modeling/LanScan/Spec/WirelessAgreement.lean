import LanScan.Spec.Android.WirelessNumbers
import LanScan.Spec.Ios.WirelessNumbers

/-!
# Addresses and netmasks on both platforms

Android keeps an IPv4 address in a signed 32-bit number and its netmask in one whose bytes
are in the other order; iOS reads both from dotted quads.

## Key results

- `address_round_trip`: numbers, their dotted quads, and the way back
- `netmask_agreement`: the prefix length, and when it gives the netmask back
-/

namespace LanScan

/-! ## Addresses -/

/-- A number of 32 bits is kept in an `Int`. -/
theorem toNat_toBitVec_ofNat {n : Nat} (hn : n < 2 ^ 32) :
    (Int32.ofNat n).toBitVec.toNat = n := Nat.mod_eq_of_lt hn

/-- The sign of a number does not change its low 32 bits. -/
theorem ofInt_toInt_ofNat {n : Nat} (hn : n < 2 ^ 32) :
    Ipv4.ofInt (Int32.ofNat n).toInt = Ipv4.ofInt n := by
  apply Ipv4.ofInt_eq_ofInt_iff.mpr
  have hcond := BitVec.toInt_eq_toNat_cond (Int32.ofNat n).toBitVec
  have hint : (Int32.ofNat n).toBitVec.toInt = (Int32.ofNat n).toInt := rfl
  rw [toNat_toBitVec_ofNat hn] at hcond
  split at hcond <;> omega

/-- **Round trip.** A number of 32 bits is written as its dotted quad by `getIPAddress`, which
    the split and the shifts of iOS read back, in `getInternalWifiIpAddress` too, and Android
    writes the same dotted quad. -/
theorem address_round_trip (n : Nat) (hn : n < 2 ^ 32) :
    ∃ a : Ipv4, a.toNat = n ∧ Ios.getIPAddress (Int64.ofNat n) = a.text ∧
      Ios.Wireless.number (Ios.getIPAddress (Int64.ofNat n)) = some (some (Int64.ofNat n)) ∧
      (∀ w : Ios.Wireless, w.getInternalWifiIpString = some (Ios.getIPAddress (Int64.ofNat n)) →
        w.getInternalWifiIpAddress = some (some (Int64.ofNat n))) ∧
      ∀ w : Android.Wireless, w.getInternalWifiIpAddress = Int32.ofNat n →
        w.getInternalWifiIpString = Ios.getIPAddress (Int64.ofNat n) := by
  have hwide : (Int64.ofNat n).toInt = n := Int64.toInt_ofNat_of_lt (by omega)
  have hnumber : (Ipv4.ofInt n).toNat = n := by
    have hmod := Ipv4.toNat_ofInt n
    omega
  -- iOS writes the number as a dotted quad
  have htext : Ios.getIPAddress (Int64.ofNat n) = (Ipv4.ofInt n).text := by
    rw [Ios.getIPAddress_eq, hwide]
  -- and reads it back
  have hread : Ios.Wireless.number (Ios.getIPAddress (Int64.ofNat n)) =
      some (some (Int64.ofNat n)) := by
    rw [htext, Ios.Wireless.number_text, hnumber]
  refine ⟨Ipv4.ofInt n, hnumber, htext, hread, ?_, ?_⟩
  · intro w hw
    rw [Ios.Wireless.getInternalWifiIpAddress, hw]
    exact hread
  · intro w hw
    rw [Android.getInternalWifiIpString_eq, hw, htext, ofInt_toInt_ofNat hn]

/-- An iPhone in a WiFi network, with its address and its netmask. -/
def iPhone (address netmask : String) : Ios.Wireless where
  interfaces := some [⟨0x41, some 2, "en0", some address, some netmask⟩]

/-- An Android phone whose address in the WiFi network has the bytes 192, 168, 1, 7. -/
def androidPhone : Android.Wireless where
  ipAddress := 0x0701A8C0
  nativeOrder := .littleEndian
  dhcpInfo := none
  getByName _ := .ok none
  getByInetAddress _ := .ok none

/-- The address 192.168.1.7, which is a negative number on Android. -/
theorem address_round_trip_box :
    Ios.Wireless.number (Ios.getIPAddress (Int64.ofNat 3232235783)) =
      some (some (Int64.ofNat 3232235783)) ∧
    (iPhone "192.168.1.7" "255.255.255.0").getInternalWifiIpAddress =
      some (some (Int64.ofNat 3232235783)) ∧
    androidPhone.getInternalWifiIpString = Ios.getIPAddress (Int64.ofNat 3232235783) := by
  obtain ⟨-, -, -, hread, hios, handroid⟩ := address_round_trip 3232235783 (by decide)
  exact ⟨hread, hios (iPhone "192.168.1.7" "255.255.255.0") (by decide),
    handroid androidPhone (by decide)⟩

/-! ## Netmasks -/

/-- The one bits are contiguous from the top: every bit above a one bit is one. -/
def ContiguousFromTop (mask : Ipv4) : Prop :=
  ∀ j < 32, ∀ i < j, mask.toNat.testBit i = true → mask.toNat.testBit j = true

instance (mask : Ipv4) : Decidable (ContiguousFromTop mask) :=
  inferInstanceAs (Decidable (∀ j < 32, ∀ i < j, _ → _))

/-- The order of the bytes does not change their one bits. -/
theorem ones_reverse (a : Ipv4) : Nat.ones 32 a.reverse.toNat = Nat.ones 32 a.toNat := by
  rw [Ios.Wireless.ones_toNat, Ios.Wireless.ones_toNat]
  show Nat.ones 8 a.b₃.toNat + Nat.ones 8 a.b₂.toNat + Nat.ones 8 a.b₁.toNat +
    Nat.ones 8 a.b₀.toNat = _
  omega

/-- The netmask that the scanner builds from a count of one bits. -/
theorem netmask_eq_iff {mask : Nat} (h : mask < 2 ^ 32) :
    Ios.netmask (32 - Int64.ofNat (Nat.ones 32 mask)) = Int64.ofNat mask ↔
      2 ^ 32 - 2 ^ (32 - Nat.ones 32 mask) = mask := by
  have hle := Nat.ones_le 32 mask
  -- The number of ones is at most 32, so the shift distance does not wrap.
  have hbits : (32 - Int64.ofNat (Nat.ones 32 mask)).toInt = (32 - Nat.ones 32 mask : Nat) := by
    rw [Int64.toInt_sub, Int64.toInt_ofNat_of_lt (by omega), show (32 : Int64).toInt = 32 by decide,
      Int.bmod_eq_of_le (by omega) (by omega)]
    omega
  have hpow : 2 ^ (32 - Nat.ones 32 mask) ≤ 2 ^ 32 := Nat.pow_le_pow_right (by decide) (by omega)
  have hcast : ((2 ^ 32 - 2 ^ (32 - Nat.ones 32 mask) : Nat) : Int) =
      2 ^ 32 - 2 ^ (32 - Nat.ones 32 mask) := by
    rw [Int.natCast_sub hpow, Int.natCast_pow, Int.natCast_pow]
    rfl
  rw [← Int64.toInt_inj, Ios.Wireless.toInt_netmask (by omega), hbits, Int.toNat_natCast,
    Int64.toInt_ofNat_of_lt (by omega), ← hcast, Int.natCast_inj]

/-- **Prefix length.** Both platforms count the one bits of a netmask, in whatever byte order,
    and the iOS scanner builds the same netmask from their number if and only if they are
    contiguous from the top. -/
theorem netmask_agreement (mask : Ipv4) :
    ∃ p : Int64, Ios.Wireless.calculateCIDR mask.text = some p ∧ 0 ≤ p.toInt ∧ p.toInt ≤ 32 ∧
      (Android.bitCount (Int32.ofNat mask.toNat)).toInt = p.toInt ∧
      (Android.bitCount (Int32.ofNat mask.reverse.toNat)).toInt = p.toInt ∧
      ∀ w : Ios.Wireless, w.getInternalWifiSubnetString = some mask.text →
        ∃ subnet, w.getInternalWifiSubnet = some (some subnet) ∧
          (Ios.netmask (32 - p) = subnet ↔ ContiguousFromTop mask) := by
  have hlt := mask.toNat_lt
  have hle := Nat.ones_le 32 mask.toNat
  have hp : (Int64.ofNat (Nat.ones 32 mask.toNat)).toInt = Nat.ones 32 mask.toNat :=
    Int64.toInt_ofNat_of_lt (by omega)
  refine ⟨_, Ios.Wireless.calculateCIDR_text mask, by omega, by omega, ?_, ?_, ?_⟩
  · rw [Android.toInt_bitCount_eq, toNat_toBitVec_ofNat hlt, hp]
  · rw [Android.toInt_bitCount_eq, toNat_toBitVec_ofNat mask.reverse.toNat_lt, ones_reverse, hp]
  -- the prefix length gives the netmask back if its one bits are on top
  · intro w hw
    refine ⟨Int64.ofNat mask.toNat, ?_, ?_⟩
    · rw [Ios.Wireless.getInternalWifiSubnet, hw]
      exact Ios.Wireless.number_text mask
    · rw [netmask_eq_iff hlt, ContiguousFromTop]
      exact Nat.eq_two_pow_sub_iff hlt

/-- The netmask of a /20 is built again from its 20 one bits. -/
theorem netmask_agreement_slash20 :
    ∃ p subnet : Int64, Ios.Wireless.calculateCIDR "255.255.240.0" = some p ∧
      (Android.bitCount 0x00F0FFFF).toInt = p.toInt ∧
      (iPhone "192.168.1.7" "255.255.240.0").getInternalWifiSubnet = some (some subnet) ∧
      Ios.netmask (32 - p) = subnet := by
  obtain ⟨p, hp, -, -, -, hreverse, hsubnet⟩ := netmask_agreement ⟨255, 255, 240, 0⟩
  obtain ⟨subnet, heq, hiff⟩ := hsubnet (iPhone "192.168.1.7" "255.255.240.0") (by decide)
  exact ⟨p, subnet, hp, hreverse, heq, hiff.mpr (by decide)⟩

end LanScan
