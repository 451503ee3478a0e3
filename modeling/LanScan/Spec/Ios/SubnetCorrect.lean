import LanScan.ForStd.Int
import LanScan.Native.Ios.Subnet
import LanScan.Spec.Ipv4

/-!
# The addresses a scan visits (iOS)

The constants of `startScanning` as integers, for an IPv4 address and a prefix length in
their ranges, and the addresses that the workers compute from them.

## Key results

- `scanPlan_eq`: nothing traps, and what the constants are
- `ipAddress_eq`: the dotted quads count up from the network address
-/

namespace LanScan.Ios

/-! ## Machine integers -/

/-- Small results do not trap. -/
theorem checked_eq_some {x : Int} (hlo : -2 ^ 63 ≤ x) (hhi : x < 2 ^ 63) :
    checked x = some (Int64.ofInt x) := by
  unfold checked
  rw [if_pos (by omega)]

/-- An `Int` in range is kept. -/
theorem toInt_ofInt {x : Int} (hlo : -2 ^ 63 ≤ x) (hhi : x < 2 ^ 63) :
    (Int64.ofInt x).toInt = x := Int64.toInt_ofInt_of_le hlo hhi

/-- Arithmetic that does not trap is exact. -/
theorem toInt_of_checked {x : Int} {y : Int64} (h : checked x = some y) : y.toInt = x := by
  unfold checked at h
  split at h
  · cases h
    exact toInt_ofInt (by omega) (by omega)
  · exact nomatch h

/-- A number of 32 bits has no higher bits. -/
theorem getLsbD_eq_false {x : Int64} (hx : 0 ≤ x.toInt ∧ x.toInt < 2 ^ 32) {i : Nat}
    (hi : 32 ≤ i) : x.toBitVec.getLsbD i = false := by
  have hnat : x.toBitVec.toNat < 2 ^ 32 := by
    have hcond := BitVec.toInt_eq_toNat_cond x.toBitVec
    have hint : x.toBitVec.toInt = x.toInt := rfl
    have hlt := x.toBitVec.isLt
    rw [hint] at hcond
    split at hcond <;> omega
  rw [← BitVec.testBit_toNat]
  exact Nat.testBit_lt_two_pow (Nat.lt_of_lt_of_le hnat (Nat.pow_le_pow_right (by omega) hi))

/-- The mask clears the host bits of a number of 32 bits. -/
theorem toInt_and_netmask {ipv4 hostBits : Int64} (hipv4 : 0 ≤ ipv4.toInt ∧ ipv4.toInt < 2 ^ 32)
    (hbits : 0 ≤ hostBits.toInt ∧ hostBits.toInt ≤ 32) :
    (ipv4 &&& netmask hostBits).toInt = ipv4.toInt - ipv4.toInt % 2 ^ hostBits.toInt.toNat := by
  have hones : (0xFFFFFFFF : Int64).toBitVec = (BitVec.allOnes 32).setWidth 64 := by decide
  -- above the 32 bits of the literal the address has no bits
  have hmask : ipv4.toBitVec &&& (netmask hostBits).toBitVec =
      ipv4.toBitVec &&& (BitVec.allOnes 64 <<< hostBits.toInt.toNat) := by
    rw [netmask, smartShiftLeft, if_pos hbits.1, Int64.toBitVec_and, Int64.toBitVec_ofBitVec, hones]
    apply BitVec.eq_of_getLsbD_eq
    intro i hi
    simp only [BitVec.getLsbD_and, BitVec.getLsbD_shiftLeft, BitVec.getLsbD_setWidth,
      BitVec.getLsbD_allOnes, hi, decide_true, Bool.true_and]
    by_cases hlow : i < 32
    · have hsub : i - hostBits.toInt.toNat < 32 := by omega
      have hsub' : i - hostBits.toInt.toNat < 64 := by omega
      simp only [hlow, hsub, hsub', decide_true, Bool.and_true]
    · rw [getLsbD_eq_false hipv4 (by omega), Bool.false_and, Bool.false_and]
  have h := BitVec.toInt_and_allOnes_shiftLeft ipv4.toBitVec
    (show hostBits.toInt.toNat < 64 by omega)
  rw [← hmask, ← Int64.toBitVec_and] at h
  exact h

/-! ## The plan of a scan -/

/-- The network address: `ipv4` with its low `32 - cidrPrefixLength` bits cleared. -/
def networkAddress (ipv4 cidrPrefixLength : Int64) : Int :=
  ipv4.toInt - ipv4.toInt % 2 ^ (32 - cidrPrefixLength.toInt).toNat

/-- The broadcast address: the last one with the prefix of the network address. -/
def broadcastAddress (ipv4 cidrPrefixLength : Int64) : Int :=
  networkAddress ipv4 cidrPrefixLength + 2 ^ (32 - cidrPrefixLength.toInt).toNat - 1

variable {ipv4 cidrPrefixLength : Int64}

/-- The block of a subnet lies in the range of 32 bits. -/
theorem networkAddress_bounds (hipv4 : 0 ≤ ipv4.toInt ∧ ipv4.toInt < 2 ^ 32)
    (hcidr : 0 ≤ cidrPrefixLength.toInt ∧ cidrPrefixLength.toInt ≤ 32) :
    0 ≤ networkAddress ipv4 cidrPrefixLength ∧
    networkAddress ipv4 cidrPrefixLength + 2 ^ (32 - cidrPrefixLength.toInt).toNat ≤ 2 ^ 32 := by
  have hpos : (0 : Int) < 2 ^ (32 - cidrPrefixLength.toInt).toNat := by
    exact_mod_cast Nat.two_pow_pos _
  have hdvd := Int.two_pow_dvd_two_pow (show (32 - cidrPrefixLength.toInt).toNat ≤ 32 by omega)
  exact ⟨Int.le_sub_emod hpos (Int.dvd_zero _) hipv4.1, Int.sub_emod_add_le hpos hdvd hipv4.2⟩

/-- Nothing traps in the head of the task, and the constants are what they should be. -/
theorem scanPlan_eq (hipv4 : 0 ≤ ipv4.toInt ∧ ipv4.toInt < 2 ^ 32)
    (hcidr : 0 ≤ cidrPrefixLength.toInt ∧ cidrPrefixLength.toInt ≤ 32) :
    ∃ plan, scanPlan ipv4 cidrPrefixLength = some plan ∧
    plan.numberOfHosts.toInt = 2 ^ (32 - cidrPrefixLength.toInt).toNat - 2 ∧
    plan.concurrentThreads.toInt = (32 - cidrPrefixLength.toInt) * 4 ∧
    plan.firstAddr.toInt = networkAddress ipv4 cidrPrefixLength + 1 := by
  have hbits : (Int64.ofInt (32 - cidrPrefixLength.toInt)).toInt = 32 - cidrPrefixLength.toInt :=
    toInt_ofInt (by omega) (by omega)
  have hpos : (0 : Int) < 2 ^ (32 - cidrPrefixLength.toInt).toNat := by
    exact_mod_cast Nat.two_pow_pos _
  have hbounds := networkAddress_bounds hipv4 hcidr
  have hand := toInt_and_netmask hipv4
    (show 0 ≤ (Int64.ofInt (32 - cidrPrefixLength.toInt)).toInt ∧ _ by rw [hbits]; omega)
  rw [hbits] at hand
  have hfirst : (ipv4 &&& netmask (Int64.ofInt (32 - cidrPrefixLength.toInt))).toInt + 1 =
      networkAddress ipv4 cidrPrefixLength + 1 := congrArg (· + 1) hand
  -- no step of the arithmetic leaves the range
  have hpower : powToInt (32 - cidrPrefixLength.toInt) =
      some (2 ^ (32 - cidrPrefixLength.toInt).toNat) := by
    rw [powToInt, if_neg (by omega), if_pos (by omega)]
  refine ⟨⟨Int64.ofInt (2 ^ (32 - cidrPrefixLength.toInt).toNat - 2),
    Int64.ofInt ((32 - cidrPrefixLength.toInt) * 4),
    Int64.ofInt (networkAddress ipv4 cidrPrefixLength + 1)⟩, ?_, toInt_ofInt (by omega) (by omega),
    toInt_ofInt (by omega) (by omega), toInt_ofInt (by omega) (by omega)⟩
  have hthreads : (Int64.ofInt ((32 - cidrPrefixLength.toInt) * 4)).toInt =
      (32 - cidrPrefixLength.toInt) * 4 := toInt_ofInt (by omega) (by omega)
  simp only [scanPlan, checked_eq_some (show -2 ^ 63 ≤ 32 - cidrPrefixLength.toInt by omega)
    (by omega), bind, Option.bind, hbits, hpower, hfirst,
    checked_eq_some (show -2 ^ 63 ≤ (2 : Int) ^ (32 - cidrPrefixLength.toInt).toNat - 2 by omega)
    (by omega), checked_eq_some (show -2 ^ 63 ≤ (32 - cidrPrefixLength.toInt) * 4 by omega)
    (by omega), checked_eq_some (show -2 ^ 63 ≤ networkAddress ipv4 cidrPrefixLength + 1 by omega)
    (by omega), hthreads]
  rw [if_neg (by omega)]

/-- The numbers of a plan. -/
theorem toInt_of_scanPlan {plan : ScanPlan} (hipv4 : 0 ≤ ipv4.toInt ∧ ipv4.toInt < 2 ^ 32)
    (hcidr : 0 ≤ cidrPrefixLength.toInt ∧ cidrPrefixLength.toInt ≤ 32)
    (hplan : scanPlan ipv4 cidrPrefixLength = some plan) :
    plan.numberOfHosts.toInt = 2 ^ (32 - cidrPrefixLength.toInt).toNat - 2 ∧
    plan.concurrentThreads.toInt = (32 - cidrPrefixLength.toInt) * 4 ∧
    plan.firstAddr.toInt = networkAddress ipv4 cidrPrefixLength + 1 := by
  obtain ⟨plan', hplan', hvalues⟩ := scanPlan_eq hipv4 hcidr
  obtain rfl := Option.some.inj (hplan.symm.trans hplan')
  exact hvalues

/-! ## Addresses -/

/-- `getIPAddress` writes a number as a dotted quad. -/
theorem getIPAddress_eq (index : Int64) : getIPAddress index = (Ipv4.ofInt index.toInt).text := rfl

/-- The addresses count up from the first one. -/
theorem ipAddress_eq {plan : ScanPlan} {index : Int}
    (hlo : -2 ^ 63 ≤ plan.firstAddr.toInt + index) (hhi : plan.firstAddr.toInt + index < 2 ^ 63) :
    plan.ipAddress index = some (Ipv4.ofInt (plan.firstAddr.toInt + index)).text := by
  rw [ScanPlan.ipAddress, checked_eq_some hlo hhi, Option.map_some, getIPAddress_eq,
    toInt_ofInt hlo hhi]

/-- The address with a given index, as it is pinged. -/
def ScanPlan.address (plan : ScanPlan) (index : Int) : String :=
  (Ipv4.ofInt (plan.firstAddr.toInt + index)).text

/-- The addresses that the workers of a scan ping, in the order of their index. -/
def ScanPlan.addresses (plan : ScanPlan) : List String :=
  (List.stride 0 plan.numberOfHosts.toInt 1).map plan.address

section Plan

variable {plan : ScanPlan}

/-- What a plan says about the addresses of its indices. -/
theorem ipAddress_of_mem (hipv4 : 0 ≤ ipv4.toInt ∧ ipv4.toInt < 2 ^ 32)
    (hcidr : 0 ≤ cidrPrefixLength.toInt ∧ cidrPrefixLength.toInt ≤ 32)
    (hplan : scanPlan ipv4 cidrPrefixLength = some plan) {index : Int}
    (hindex : index ∈ List.stride 0 plan.numberOfHosts.toInt 1) :
    plan.ipAddress index = some (plan.address index) := by
  obtain ⟨hhosts, -, hfirst⟩ := toInt_of_scanPlan hipv4 hcidr hplan
  obtain ⟨hlo, hhi, -⟩ := (List.mem_stride Int.one_pos).mp hindex
  have hbounds := networkAddress_bounds hipv4 hcidr
  exact ipAddress_eq (by omega) (by omega)

/-- The workers share out the indices: together they visit each exactly once. -/
theorem flatMap_workerIndices_perm (hipv4 : 0 ≤ ipv4.toInt ∧ ipv4.toInt < 2 ^ 32)
    (hcidr : 0 ≤ cidrPrefixLength.toInt ∧ cidrPrefixLength.toInt ≤ 32)
    (hplan : scanPlan ipv4 cidrPrefixLength = some plan) :
    ((List.range plan.concurrentThreads.toInt.toNat).flatMap plan.workerIndices).Perm
      (List.stride 0 plan.numberOfHosts.toInt 1) := by
  obtain ⟨hhosts, hthreads, -⟩ := toInt_of_scanPlan hipv4 hcidr hplan
  by_cases hp : cidrPrefixLength.toInt = 32
  · -- no workers, and no addresses either
    have hnone : plan.concurrentThreads.toInt.toNat = 0 := by omega
    have hempty : plan.numberOfHosts.toInt = -1 := by
      rw [hhosts, hp]
      decide
    rw [hnone, hempty, List.stride_eq_nil Int.one_pos (by decide)]
    exact List.Perm.nil
  · have hpos : 0 < plan.concurrentThreads.toInt.toNat := by omega
    have hperm := List.flatMap_stride_perm hpos plan.numberOfHosts.toInt
    rw [show ((plan.concurrentThreads.toInt.toNat : Nat) : Int) = plan.concurrentThreads.toInt by
      omega] at hperm
    exact hperm

/-- The addresses of a scan are those strictly between network and broadcast. -/
theorem mem_addresses (hipv4 : 0 ≤ ipv4.toInt ∧ ipv4.toInt < 2 ^ 32)
    (hcidr : 0 ≤ cidrPrefixLength.toInt ∧ cidrPrefixLength.toInt ≤ 32)
    (hplan : scanPlan ipv4 cidrPrefixLength = some plan) (ip : String) :
    ip ∈ plan.addresses ↔ ∃ x, networkAddress ipv4 cidrPrefixLength < x ∧
      x < broadcastAddress ipv4 cidrPrefixLength ∧ ip = (Ipv4.ofInt x).text := by
  obtain ⟨hhosts, -, hfirst⟩ := toInt_of_scanPlan hipv4 hcidr hplan
  simp only [ScanPlan.addresses, List.mem_map, List.mem_stride Int.one_pos, broadcastAddress,
    ScanPlan.address, hfirst, hhosts]
  constructor
  · rintro ⟨index, ⟨hlo, hhi, -⟩, rfl⟩
    exact ⟨_, by omega, by omega, rfl⟩
  · rintro ⟨x, hlo, hhi, rfl⟩
    -- the index is the distance from the first address
    refine ⟨x - networkAddress ipv4 cidrPrefixLength - 1, ⟨by omega, by omega, Int.emod_one _⟩, ?_⟩
    rw [show networkAddress ipv4 cidrPrefixLength + 1 +
      (x - networkAddress ipv4 cidrPrefixLength - 1) = x by omega]

/-- A scan pings no address twice. -/
theorem nodup_addresses (hipv4 : 0 ≤ ipv4.toInt ∧ ipv4.toInt < 2 ^ 32)
    (hcidr : 0 ≤ cidrPrefixLength.toInt ∧ cidrPrefixLength.toInt ≤ 32)
    (hplan : scanPlan ipv4 cidrPrefixLength = some plan) : plan.addresses.Nodup := by
  obtain ⟨hhosts, -, hfirst⟩ := toInt_of_scanPlan hipv4 hcidr hplan
  have hbounds := networkAddress_bounds hipv4 hcidr
  refine List.Nodup.map_on ?_ (List.nodup_stride Int.one_pos)
  intro i hi j hj hij
  obtain ⟨hi₀, hi₁, -⟩ := (List.mem_stride Int.one_pos).mp hi
  obtain ⟨hj₀, hj₁, -⟩ := (List.mem_stride Int.one_pos).mp hj
  -- the numbers are in the range of 32 bits, so their low 32 bits tell them apart
  have hmod := Ipv4.ofInt_eq_ofInt_iff.mp (Ipv4.text_injective hij)
  rw [Int.emod_eq_of_lt (by omega) (by omega), Int.emod_eq_of_lt (by omega) (by omega)] at hmod
  omega

/-- Prefixes of 31 and 32 bits leave no address. -/
theorem addresses_eq_nil (hipv4 : 0 ≤ ipv4.toInt ∧ ipv4.toInt < 2 ^ 32)
    (hcidr : 0 ≤ cidrPrefixLength.toInt ∧ cidrPrefixLength.toInt ≤ 32)
    (hplan : scanPlan ipv4 cidrPrefixLength = some plan) (h : 31 ≤ cidrPrefixLength.toInt) :
    plan.addresses = [] := by
  obtain ⟨hhosts, -, -⟩ := toInt_of_scanPlan hipv4 hcidr hplan
  have hpow : (2 : Int) ^ (32 - cidrPrefixLength.toInt).toNat ≤ 2 ^ 1 := by
    exact_mod_cast Nat.pow_le_pow_right (by omega)
      (show (32 - cidrPrefixLength.toInt).toNat ≤ 1 by omega)
  rw [ScanPlan.addresses, List.stride_eq_nil Int.one_pos (by omega)]
  rfl

end Plan

end LanScan.Ios
