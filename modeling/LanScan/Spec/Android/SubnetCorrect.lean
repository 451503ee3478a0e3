import LanScan.ForStd.Int
import LanScan.Native.Android.Subnet

/-!
# The addresses a scan visits (Android)

Characterizes the constants of `startScanning` as integers, the addresses the
workers compute from them, and the addresses whose shortest two's-complement
encoding has the four bytes that `InetAddress.getByAddress` accepts.

## Key results

- `toInt_and_netmask`: masking clears the low bits
- `toInt_numericIp`: the addresses of a subnet, without wrap-around
- `eq_inetAddress_of_getByAddress`, `getByAddress_toByteArray_eq_none`:
  `getByAddress` raises on exactly the addresses whose encoding has fewer than
  four bytes, and otherwise builds the address with the right octets
-/

namespace LanScan.Android

/-! ## startScanning's constants -/

/-- The literal 1 of the code. -/
theorem toInt_one : (1 : Int32).toInt = 1 := by decide

/-- The literal 2 of the code. -/
theorem toInt_two : (2 : Int32).toInt = 2 := by decide

/-- `numberOfHosts` as an integer: saturated from 31 host bits on. -/
theorem toInt_numberOfHosts (p : Int32) : (numberOfHosts p).toInt =
    if 32 < p.toInt then -2
    else if p.toInt ≤ 1 then 2 ^ 31 - 3
    else 2 ^ (32 - p.toInt).toNat - 2 := by
  unfold numberOfHosts pow2ToInt hostBits
  split
  · rw [if_pos (by omega)]; decide
  · split
    · rw [if_neg (by omega), if_pos (by omega)]; decide
    · rw [if_neg (by omega), if_neg (by omega)]
      -- at most 30 host bits, so neither the power nor the difference overflows
      have hpos : (0 : Int) < 2 ^ (32 - p.toInt).toNat := by exact_mod_cast Nat.two_pow_pos _
      have hle : (2 : Int) ^ (32 - p.toInt).toNat ≤ 2 ^ 30 := by
        exact_mod_cast Nat.pow_le_pow_right (by omega) (show (32 - p.toInt).toNat ≤ 30 by omega)
      rw [Int32.toInt_sub, Int32.toInt_ofInt_of_le (by omega) (by omega), toInt_two,
        Int.bmod_eq_of_le (by omega) (by omega)]

/-- `scanThreads` as an integer, for the prefixes that `Wireless` can return. -/
theorem toInt_scanThreads {p : Int32} (hlo : -32768 ≤ p.toInt) (hhi : p.toInt ≤ 32767) :
    (scanThreads p).toInt = 4 * (32 - p.toInt) := by
  unfold scanThreads doubleToInt hostBits
  rw [if_neg (by omega), if_neg (by omega), Int32.toInt_mul,
    Int32.toInt_ofInt_of_le (by omega) (by omega), show (4 : Int32).toInt = 4 by decide,
    Int.bmod_eq_of_le (by omega) (by omega)]
  omega

/-- The distance of the two shifts of `netmask`, in the range of JVM shifts. -/
theorem toNat_shiftDistance {p : Int32} (hlo : -32768 ≤ p.toInt) (hhi : p.toInt ≤ 32767) :
    ((32 - p : Int32).toBitVec.smod 32).toNat = ((32 - p.toInt) % 32).toNat := by
  have hsub : (32 - p : Int32).toBitVec.toInt = 32 - p.toInt := by
    have := Int32.toInt_sub 32 p
    rw [show (32 : Int32).toInt = 32 by decide, Int.bmod_eq_of_le (by omega) (by omega)] at this
    exact this
  have hmod : ((32 - p : Int32).toBitVec.smod 32).toInt = (32 - p.toInt) % 32 := by
    rw [BitVec.toInt_smod, hsub, show (32 : BitVec 32).toInt = 32 by decide,
      Int.fmod_eq_emod_of_nonneg _ (by decide)]
  have hlt := Int.emod_lt_of_pos (32 - p.toInt) (show (0 : Int) < 32 by decide)
  have hge := Int.emod_nonneg (32 - p.toInt) (show (32 : Int) ≠ 0 by decide)
  -- the remainder is below 32, so its sign bit is clear
  have hnat := BitVec.toInt_eq_toNat_cond ((32 - p : Int32).toBitVec.smod 32)
  have hbound := ((32 - p : Int32).toBitVec.smod 32).isLt
  split at hnat <;> omega

/-- `ipv4 and netmask` rounds `ipv4` down to the network address. -/
theorem toInt_and_netmask (ipv4 : Int32) {p : Int32} (hlo : -32768 ≤ p.toInt)
    (hhi : p.toInt ≤ 32767) : (ipv4 &&& netmask p).toInt =
      ipv4.toInt - ipv4.toInt % 2 ^ ((32 - p.toInt) % 32).toNat := by
  have hlt := Int.emod_lt_of_pos (32 - p.toInt) (show (0 : Int) < 32 by decide)
  -- The mask is all ones shifted left by the distance modulo 32, as Java shifts.
  have hmask : (netmask p).toBitVec = BitVec.allOnes 32 <<< ((32 - p.toInt) % 32).toNat := by
    rw [netmask, Int32.neg_one_shiftRight, Int32.toBitVec_shiftLeft, BitVec.shiftLeft_eq',
      toNat_shiftDistance hlo hhi]
    rfl
  have h := BitVec.toInt_and_allOnes_shiftLeft ipv4.toBitVec
    (show ((32 - p.toInt) % 32).toNat < 32 by omega)
  rw [← hmask, ← Int32.toBitVec_and] at h
  exact h

/-! ## The addresses of a scan -/

/-- The addresses that the workers of a scan compute, in the order of their index. -/
def scanAddresses (ipv4 cidrPrefixLength : Int32) : List Int32 :=
  (List.stride 0 (numberOfHosts cidrPrefixLength).toInt 1).map
    (numericIp ipv4 cidrPrefixLength)

/-- The network address: `ipv4` with its low `32 - cidrPrefixLength` bits cleared. -/
def networkAddress (ipv4 cidrPrefixLength : Int32) : Int :=
  ipv4.toInt - ipv4.toInt % 2 ^ (32 - cidrPrefixLength.toInt).toNat

/-- The broadcast address: the last one with the prefix of the network address. -/
def broadcastAddress (ipv4 cidrPrefixLength : Int32) : Int :=
  networkAddress ipv4 cidrPrefixLength + 2 ^ (32 - cidrPrefixLength.toInt).toNat - 1

/-- The workers share out the indices: together they visit each exactly once. -/
theorem flatMap_workerIndices_perm {p : Int32} (hlo : -32768 ≤ p.toInt) (hhi : p.toInt ≤ 32) :
    ((List.range (scanThreads p).toInt.toNat).flatMap (workerIndices p)).Perm
      (List.stride 0 (numberOfHosts p).toInt 1) := by
  have hthreads := toInt_scanThreads hlo (show p.toInt ≤ 32767 by omega)
  by_cases hp : p.toInt = 32
  · -- no workers, and no addresses either
    have hnone : (scanThreads p).toInt.toNat = 0 := by omega
    have hhosts : (numberOfHosts p).toInt = -1 := by
      rw [toInt_numberOfHosts, if_neg (by omega), if_neg (by omega), hp]; decide
    rw [hnone, hhosts, List.stride_eq_nil Int.one_pos (by decide)]
    exact List.Perm.nil
  · have hpos : 0 < (scanThreads p).toInt.toNat := by omega
    have hperm := List.flatMap_stride_perm hpos (numberOfHosts p).toInt
    rw [show (((scanThreads p).toInt.toNat : Nat) : Int) = (scanThreads p).toInt by omega] at hperm
    exact hperm

/-- An address as an integer, before the prefix is known to fit: additions wrap. -/
theorem toInt_numericIp_eq_bmod (ipv4 p : Int32) (index : Int) :
    (numericIp ipv4 p index).toInt =
      ((ipv4 &&& netmask p).toInt + 1 + index).bmod (2 ^ 32) := by
  have hofInt : (Int32.ofInt index).toInt = index.bmod (2 ^ 32) := Int32.toInt_ofInt
  rw [numericIp, firstAddress, Int32.toInt_add, Int32.toInt_add, hofInt, toInt_one,
    Int.add_bmod_bmod, Int.bmod_add_bmod, Int.add_comm]

/-- The network address lies in the range of `Int`, and so does its whole block. -/
theorem networkAddress_bounds (ipv4 : Int32) {p : Int32} (hlo : 1 ≤ p.toInt) :
    -2 ^ 31 ≤ networkAddress ipv4 p ∧
      networkAddress ipv4 p + 2 ^ (32 - p.toInt).toNat ≤ 2 ^ 31 := by
  have hpos : (0 : Int) < 2 ^ (32 - p.toInt).toNat := by exact_mod_cast Nat.two_pow_pos _
  have hdvd := Int.two_pow_dvd_two_pow (show (32 - p.toInt).toNat ≤ 31 by omega)
  exact ⟨Int.le_sub_emod hpos (Int.dvd_neg.mpr hdvd) ipv4.le_toInt,
    Int.sub_emod_add_le hpos hdvd ipv4.toInt_lt⟩

/-- With a prefix to speak of, the addresses count up from the network address. -/
theorem toInt_numericIp (ipv4 : Int32) {p : Int32} (hlo : 1 ≤ p.toInt) (hhi : p.toInt ≤ 32)
    {index : Int} (hindex : 0 ≤ index) (hlt : index < (numberOfHosts p).toInt) :
    (numericIp ipv4 p index).toInt = networkAddress ipv4 p + 1 + index := by
  have hbounds := networkAddress_bounds ipv4 hlo
  have hlt' : index + 1 < 2 ^ (32 - p.toInt).toNat := by
    rw [toInt_numberOfHosts, if_neg (by omega)] at hlt
    split at hlt
    · -- `numberOfHosts` saturates: it is one too small
      have hp : p.toInt = 1 := by omega
      rw [hp, show (32 - (1 : Int)).toNat = 31 by decide]
      omega
    · omega
  have hp : p.toInt ≠ 32 := by
    -- a prefix of 32 bits leaves no address
    intro h
    rw [h, show (32 - (32 : Int)).toNat = 0 by decide, Int.pow_zero] at hlt'
    omega
  have hdist : ((32 - p.toInt) % 32).toNat = (32 - p.toInt).toNat := by
    rw [Int.emod_eq_of_lt (by omega) (by omega)]
  rw [toInt_numericIp_eq_bmod, toInt_and_netmask ipv4 (by omega) (by omega), hdist]
  unfold networkAddress at hbounds ⊢
  rw [Int.bmod_eq_of_le (by omega) (by omega)]

/-- The addresses of a scan are those strictly between network and broadcast. -/
theorem mem_scanAddresses {ipv4 p : Int32} (hlo : 2 ≤ p.toInt) (hhi : p.toInt ≤ 32) (a : Int32) :
    a ∈ scanAddresses ipv4 p ↔
      networkAddress ipv4 p < a.toInt ∧ a.toInt < broadcastAddress ipv4 p := by
  have hhosts : (numberOfHosts p).toInt = 2 ^ (32 - p.toInt).toNat - 2 := by
    rw [toInt_numberOfHosts, if_neg (by omega), if_neg (by omega)]
  simp only [scanAddresses, List.mem_map, List.mem_stride Int.one_pos, broadcastAddress]
  constructor
  · rintro ⟨index, ⟨h₁, h₂, _⟩, rfl⟩
    rw [toInt_numericIp ipv4 (by omega) hhi h₁ h₂]
    omega
  · rintro ⟨h₁, h₂⟩
    -- the index is the distance from the first address
    have hindex : a.toInt - networkAddress ipv4 p - 1 < (numberOfHosts p).toInt := by omega
    refine ⟨a.toInt - networkAddress ipv4 p - 1, ⟨by omega, hindex, Int.emod_one _⟩, ?_⟩
    apply Int32.toInt_inj.mp
    rw [toInt_numericIp ipv4 (by omega) hhi (by omega) hindex]
    omega

/-- A scan computes no address twice. -/
theorem nodup_scanAddresses (ipv4 p : Int32) : (scanAddresses ipv4 p).Nodup := by
  unfold scanAddresses
  refine List.Nodup.map_on ?_ (List.nodup_stride Int.one_pos)
  intro i hi j hj hij
  have hi' := (List.mem_stride Int.one_pos).mp hi
  have hj' := (List.mem_stride Int.one_pos).mp hj
  have hN : (numberOfHosts p).toInt < 2 ^ 31 := (numberOfHosts p).toInt_lt
  -- equal addresses have indices that agree modulo `2 ^ 32`
  have heq := congrArg Int32.toInt hij
  rw [toInt_numericIp_eq_bmod, toInt_numericIp_eq_bmod] at heq
  have hmod := congrArg (· % ((2 ^ 32 : Nat) : Int)) heq
  simp only [Int.bmod_emod] at hmod
  omega

/-! ## Four-byte addresses -/

/-- The shortest two's-complement encoding of the address has four bytes. -/
def HasFourBytes (x : Int32) : Prop := x.toInt < -2 ^ 23 ∨ 2 ^ 23 ≤ x.toInt

instance (x : Int32) : Decidable (HasFourBytes x) :=
  inferInstanceAs (Decidable (_ ∨ _))

/-- A number has as many digits as the power of two above it. -/
theorem binaryLength_le_iff (n k : Nat) : binaryLength n ≤ k ↔ n < 2 ^ k := by
  unfold binaryLength
  split
  · rename_i h
    rw [h]
    exact ⟨fun _ => Nat.two_pow_pos k, fun _ => Nat.zero_le k⟩
  · rename_i h
    rw [Nat.add_one_le_iff, Nat.log2_lt h]

/-- `bitLength` counts the bits beside the sign bit. -/
theorem bitLength_le_iff (x : Int) (k : Nat) :
    bitLength x ≤ k ↔ -2 ^ k ≤ x ∧ x < 2 ^ k := by
  have hcast : ((2 ^ k : Nat) : Int) = 2 ^ k := by exact_mod_cast rfl
  have hpos : 0 < 2 ^ k := Nat.two_pow_pos k
  unfold bitLength
  split
  · rw [binaryLength_le_iff]
    omega
  · rw [binaryLength_le_iff]
    omega

/-- The encoding of an `Int` has four bytes exactly when it needs more than 24 bits. -/
theorem length_toByteArray_eq_four_iff (x : Int32) :
    (toByteArray x.toInt).length = 4 ↔ HasFourBytes x := by
  have hge : -2 ^ 31 ≤ x.toInt := x.le_toInt
  have hlt : x.toInt < 2 ^ 31 := x.toInt_lt
  -- at most 32 bits, and more than 24 of them exactly outside the range of three bytes
  have h₃₁ := (bitLength_le_iff x.toInt 31).mpr ⟨hge, hlt⟩
  have h₂₃ := bitLength_le_iff x.toInt 23
  simp only [toByteArray, List.length_map, List.length_range, HasFourBytes]
  omega

/-- Four bytes of the encoding are the four octets of the address. -/
theorem toByteArray_eq_octets {x : Int32} (h : HasFourBytes x) :
    toByteArray x.toInt = octets x := by
  have hlength := (length_toByteArray_eq_four_iff x).mpr h
  simp only [toByteArray, List.length_map, List.length_range] at hlength ⊢
  rw [hlength]
  rfl

/-- The IPv4 address with the four octets of a numeric address. -/
def inetAddress (x : Int32) : InetAddress :=
  .inet4 (UInt8.ofNat (x.toInt / 2 ^ 24 % 256).toNat) (UInt8.ofNat (x.toInt / 2 ^ 16 % 256).toNat)
    (UInt8.ofNat (x.toInt / 2 ^ 8 % 256).toNat) (UInt8.ofNat (x.toInt / 2 ^ 0 % 256).toNat)

/-- An `Int` with a four-byte encoding becomes the address with its octets. -/
theorem getByAddress_toByteArray {x : Int32} (h : HasFourBytes x) :
    InetAddress.getByAddress (toByteArray x.toInt) = some (inetAddress x) := by
  rw [toByteArray_eq_octets h]
  rfl

/-- `getByAddress` raises on every other encoding of an `Int`. -/
theorem getByAddress_toByteArray_eq_none {x : Int32} (h : ¬ HasFourBytes x) :
    InetAddress.getByAddress (toByteArray x.toInt) = none := by
  have hne : (toByteArray x.toInt).length ≠ 4 := mt (length_toByteArray_eq_four_iff x).mp h
  -- An `Int` has at most four bytes and never the sixteen of IPv6.
  have hlt : (toByteArray x.toInt).length < 16 := by
    have := (bitLength_le_iff x.toInt 31).mpr ⟨x.le_toInt, x.toInt_lt⟩
    simp only [toByteArray, List.length_map, List.length_range]
    omega
  unfold InetAddress.getByAddress
  split
  · rename_i heq
    rw [heq] at hne
    exact absurd rfl hne
  · rw [dif_neg (Nat.ne_of_lt hlt)]

/-- When `getByAddress` does not raise, it is for a four-byte encoding. -/
theorem eq_inetAddress_of_getByAddress {x : Int32} {a : InetAddress}
    (h : InetAddress.getByAddress (toByteArray x.toInt) = some a) :
    HasFourBytes x ∧ a = inetAddress x := by
  by_cases hfour : HasFourBytes x
  · rw [getByAddress_toByteArray hfour] at h
    exact ⟨hfour, (Option.some.inj h).symm⟩
  · rw [getByAddress_toByteArray_eq_none hfour] at h
    exact nomatch h

end LanScan.Android
