import LanScan.ForStd.Popcount
import LanScan.Native.Ios.Wireless
import LanScan.Spec.Ios.MDNSLookup

/-!
# Numbers from dotted quads (iOS)

`Wireless` takes the dotted quads of the WiFi interface apart: into a number, and into the
one bits of the netmask, which are counted as characters of a binary rendering.

## Key results

- `number_text`: the number of an address
- `calculateCIDR_text`: the one bits of a netmask
- `getInternalWifiCidrPrefixLength_eq`: the prefix length of the WiFi interface
- `toInt_netmask`: the netmask that the scanner builds from their count
-/

namespace LanScan.Ios.Wireless

open MDNSResolver (split split_text int int_octet uint8_of_lt filterMap_int_text toInt_ofInt_toNat)

/-! ## The number -/

/-- A byte has room to be shifted. -/
theorem toInt_smartShiftLeft (b : UInt8) {n : Int64} {k : Nat} (hn : n.toInt = k) (hk : k ≤ 24) :
    (smartShiftLeft (Int64.ofInt b.toNat) n).toInt = b.toNat * 2 ^ k := by
  have hlt := b.toNat_lt
  have hpow : (2 : Nat) ^ k ≤ 2 ^ 24 := Nat.pow_le_pow_right (by decide) hk
  -- A byte shifted by at most 24 stays far below the sign bit.
  have hproduct : b.toNat * 2 ^ k ≤ 255 * 2 ^ 24 := Nat.mul_le_mul (by omega) hpow
  have hnat : (Int64.ofInt b.toNat).toBitVec.toNat = b.toNat := by
    show (BitVec.ofInt 64 (b.toNat : Int)).toNat = _
    rw [BitVec.ofInt_natCast, BitVec.toNat_ofNat]
    omega
  have hshift : ((Int64.ofInt b.toNat).toBitVec <<< k).toNat = b.toNat * 2 ^ k := by
    rw [BitVec.toNat_shiftLeft, hnat, Nat.shiftLeft_eq]
    omega
  rw [smartShiftLeft, if_pos (by omega), hn, Int.toNat_natCast]
  show ((Int64.ofInt b.toNat).toBitVec <<< k).toInt = _
  rw [BitVec.toInt_eq_toNat_of_lt (by omega), hshift]
  exact_mod_cast rfl

/-- The dotted quad of an address is read as its number. -/
theorem number_text (a : Ipv4) : number a.text = some (some (Int64.ofNat a.toNat)) := by
  have h₀ := a.b₀.toNat_lt
  have h₁ := a.b₁.toNat_lt
  have h₂ := a.b₂.toNat_lt
  have h₃ := a.b₃.toNat_lt
  have hshift₀ := toInt_smartShiftLeft a.b₀ (n := 24) (k := 24) (by decide) (by decide)
  have hshift₁ := toInt_smartShiftLeft a.b₁ (n := 16) (k := 16) (by decide) (by decide)
  have hshift₂ := toInt_smartShiftLeft a.b₂ (n := 8) (k := 8) (by decide) (by decide)
  unfold number
  rw [filterMap_int_text]
  simp only [hshift₀, hshift₁, hshift₂, toInt_ofInt_toNat, Option.bind_eq_bind]
  -- every sum is a number of 32 bits
  rw [checked_eq_some (by omega) (by omega), Option.bind_some, toInt_ofInt (by omega) (by omega),
    checked_eq_some (by omega) (by omega), Option.bind_some, toInt_ofInt (by omega) (by omega),
    checked_eq_some (by omega) (by omega), Option.bind_some]
  have hsum : (a.b₀.toNat * 2 ^ 24 + a.b₁.toNat * 2 ^ 16 + a.b₂.toNat * 2 ^ 8 + a.b₃.toNat : Int) =
      a.toNat := by
    unfold Ipv4.toNat
    omega
  rw [hsum, Int64.ofInt_eq_ofNat, Option.pure_def]

/-! ## The one bits -/

/-- An octet is read back as its byte. -/
theorem byte_octet (b : UInt8) : byte (octet b) = some b := by
  rw [byte, int_octet, Option.bind_some, toInt_ofInt_toNat, uint8_of_lt b.toNat_lt,
    UInt8.ofNat_toNat]

/-- `numberOfOnes` counts the one bits of a byte. -/
theorem numberOfOnes_eq (b : UInt8) : numberOfOnes b = Nat.ones 8 b.toNat :=
  Nat.countP_toDigits b.toNat_lt

/-- The one bits of a number are those of its four bytes. -/
theorem ones_toNat (a : Ipv4) : Nat.ones 32 a.toNat =
    Nat.ones 8 a.b₀.toNat + Nat.ones 8 a.b₁.toNat + Nat.ones 8 a.b₂.toNat +
      Nat.ones 8 a.b₃.toNat := by
  have hnumber : a.toNat = ((a.b₀.toNat * 2 ^ 8 + a.b₁.toNat) * 2 ^ 8 + a.b₂.toNat) * 2 ^ 8 +
      a.b₃.toNat := by
    unfold Ipv4.toNat
    omega
  rw [hnumber, Nat.ones_mul_two_pow_add 24 _ a.b₃.toNat_lt,
    Nat.ones_mul_two_pow_add 16 _ a.b₂.toNat_lt, Nat.ones_mul_two_pow_add 8 _ a.b₁.toNat_lt]
  omega

/-- `calculateCIDR` counts the one bits of a netmask. -/
theorem calculateCIDR_text (a : Ipv4) :
    calculateCIDR a.text = some (Int64.ofNat (Nat.ones 32 a.toNat)) := by
  unfold calculateCIDR
  rw [split_text]
  simp only [Ipv4.parts, List.length_cons, List.length_nil, List.foldlM_cons, List.foldlM_nil,
    byte_octet, numberOfOnes_eq, ones_toNat, Int64.ofNat_add, bind, Option.bind, pure]
  simp

/-- The prefix length of the WiFi interface is that of its netmask. -/
theorem calculateCIDR_of_getWiFiNetInfo {w : Wireless} {info : WiFiNetInfo}
    (h : w.getWiFiNetInfo = some info) :
    calculateCIDR info.netmask = some info.cidrPrefixLength := by
  obtain ⟨interfaces, -, hfind⟩ := Option.bind_eq_some_iff.mp h
  obtain ⟨current, -, hcurrent⟩ := List.exists_of_findSome?_eq_some hfind
  simp only [Interface.wiFiNetInfo, Option.bind_eq_bind, Option.bind_eq_some_iff] at hcurrent
  obtain ⟨-, -, -, -, -, -, address, -, netmask, -, p, hcidr, hinfo⟩ := hcurrent
  cases hinfo
  exact hcidr

/-- The prefix length of an interface is the number of one bits of its netmask. -/
theorem getInternalWifiCidrPrefixLength_eq {w : Wireless} {mask : Ipv4}
    (h : w.getInternalWifiSubnetString = some mask.text) :
    w.getInternalWifiCidrPrefixLength = some (Int64.ofNat (Nat.ones 32 mask.toNat)) := by
  obtain ⟨info, hinfo, hmask⟩ := Option.map_eq_some_iff.mp h
  have hcidr := calculateCIDR_of_getWiFiNetInfo hinfo
  rw [hmask, calculateCIDR_text] at hcidr
  rw [getInternalWifiCidrPrefixLength, hinfo, Option.map_some, hcidr]

/-! ## The netmask -/

/-- The netmask of a number of host bits. -/
theorem toInt_netmask {hostBits : Int64} (h : 0 ≤ hostBits.toInt ∧ hostBits.toInt ≤ 32) :
    (netmask hostBits).toInt = 2 ^ 32 - 2 ^ hostBits.toInt.toNat := by
  have hones : (0xFFFFFFFF : Int64).toInt = 2 ^ 32 - 1 := by decide
  have hself : 0xFFFFFFFF &&& netmask hostBits = netmask hostBits := by
    rw [netmask, Int64.and_comm, Int64.and_assoc, Int64.and_self]
  have hand := toInt_and_netmask (show 0 ≤ (0xFFFFFFFF : Int64).toInt ∧ _ by rw [hones]; decide) h
  have hpos : (0 : Int) < 2 ^ hostBits.toInt.toNat := by exact_mod_cast Nat.two_pow_pos _
  -- the mask is `2 ^ 32 - 1` rounded down
  obtain ⟨c, hc⟩ := Int.two_pow_dvd_two_pow (show hostBits.toInt.toNat ≤ 32 by omega)
  have hmod : (2 ^ 32 - 1 : Int) % 2 ^ hostBits.toInt.toNat = 2 ^ hostBits.toInt.toNat - 1 := by
    have hsplit : (2 ^ 32 - 1 : Int) =
        (2 ^ hostBits.toInt.toNat - 1) + 2 ^ hostBits.toInt.toNat * (c - 1) := by
      rw [hc, Int.mul_sub, Int.mul_one]
      omega
    rw [hsplit, Int.add_mul_emod_self_left, Int.emod_eq_of_lt (by omega) (by omega)]
  rw [← hself, hand, hones, hmod]
  omega

end LanScan.Ios.Wireless
