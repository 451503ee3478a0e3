import LanScan.Spec.WirelessAgreement

/-!
# The hosts of an IPv4 network

Which addresses a netmask puts into one network with a given one, bit by bit, and what that
means for netmasks whose one bits are on top.

## Key results

- `isHostOf_iff`: the hosts lie between the first and the last address of the network
- `exists_isHostOf_iff`: the same for numbers
-/

namespace LanScan

namespace Ipv4

/-- `b` is an address for a host in the network of `a`: they agree where the mask has one bits,
    and elsewhere `b` has neither zero bits only, like the address of the network, nor one bits
    only, like that for broadcasts. -/
structure IsHostOf (mask a b : Ipv4) : Prop where
  subnet : ∀ i < 32, mask.toNat.testBit i = true → b.toNat.testBit i = a.toNat.testBit i
  one : ∃ i < 32, mask.toNat.testBit i = false ∧ b.toNat.testBit i = true
  zero : ∃ i < 32, mask.toNat.testBit i = false ∧ b.toNat.testBit i = false

/-- The bits that the mask leaves to the hosts. -/
def hostBits (mask : Ipv4) : Nat := 32 - Nat.ones 32 mask.toNat

variable {mask a b : Ipv4}

/-- The one bits of a contiguous mask are those above its host bits. -/
theorem testBit_of_contiguous (h : ContiguousFromTop mask) (i : Nat) :
    mask.toNat.testBit i = decide (mask.hostBits ≤ i ∧ i < 32) := by
  have hmask := (Nat.eq_two_pow_sub_iff mask.toNat_lt).mpr h
  rw [← hmask]
  exact Nat.testBit_two_pow_sub_two_pow (Nat.sub_le 32 _) i

/-- An address has no bits from 32 on. -/
theorem testBit_eq_false (a : Ipv4) {i : Nat} (hi : 32 ≤ i) : a.toNat.testBit i = false :=
  Nat.testBit_lt_two_pow (Nat.lt_of_lt_of_le a.toNat_lt (Nat.pow_le_pow_right (by decide) hi))

/-- With one bits on top, the network is what is left of an address without its host bits. -/
theorem subnet_iff (h : ContiguousFromTop mask) :
    (∀ i < 32, mask.toNat.testBit i = true → b.toNat.testBit i = a.toNat.testBit i) ↔
      b.toNat / 2 ^ mask.hostBits = a.toNat / 2 ^ mask.hostBits := by
  rw [Nat.div_two_pow_eq_iff]
  constructor
  · intro hsubnet i hi
    -- The mask is set from the host bits up to bit 31; above that both are zero.
    by_cases hlt : i < 32
    · exact hsubnet i hlt (by simp [testBit_of_contiguous h, hi, hlt])
    · rw [testBit_eq_false a (by omega), testBit_eq_false b (by omega)]
  · intro hbits i _ hmask
    rw [testBit_of_contiguous h, decide_eq_true_eq] at hmask
    exact hbits i hmask.1

/-- A host bit with a given value. -/
theorem exists_hostBit_iff (h : ContiguousFromTop mask) (value : Bool) :
    (∃ i < 32, mask.toNat.testBit i = false ∧ b.toNat.testBit i = value) ↔
      ¬ ∀ i < mask.hostBits, b.toNat.testBit i = !value := by
  have hle : mask.hostBits ≤ 32 := Nat.sub_le 32 _
  simp only [Classical.not_forall]
  constructor
  -- A bit outside the mask is one of the host bits.
  · rintro ⟨i, hi, hmask, hvalue⟩
    rw [testBit_of_contiguous h, decide_eq_false_iff_not] at hmask
    exact ⟨i, by omega, by simp [hvalue]⟩
  · rintro ⟨i, hi, hvalue⟩
    refine ⟨i, by omega, ?_, by simpa using hvalue⟩
    rw [testBit_of_contiguous h, decide_eq_false_iff_not]
    omega

/-- A host has the network part of the address, and a host part that is neither all zeros nor all
    ones. -/
theorem isHostOf_iff_div (h : ContiguousFromTop mask) : IsHostOf mask a b ↔
    b.toNat / 2 ^ mask.hostBits = a.toNat / 2 ^ mask.hostBits ∧
      b.toNat % 2 ^ mask.hostBits ≠ 0 ∧
      b.toNat % 2 ^ mask.hostBits ≠ 2 ^ mask.hostBits - 1 := by
  rw [Ne, Ne, Nat.mod_two_pow_eq_zero_iff, Nat.mod_two_pow_eq_sub_one_iff, ← subnet_iff h]
  have hone := exists_hostBit_iff (b := b) h true
  have hzero := exists_hostBit_iff (b := b) h false
  exact ⟨fun hhost => ⟨hhost.subnet, hone.mp hhost.one, hzero.mp hhost.zero⟩,
    fun ⟨hsubnet, hone', hzero'⟩ => ⟨hsubnet, hone.mpr hone', hzero.mpr hzero'⟩⟩

/-- The first address of the network of `a`. -/
def network (mask a : Ipv4) : Nat := a.toNat - a.toNat % 2 ^ mask.hostBits

/-- The network is the address with its host part taken off. -/
theorem network_eq_mul (mask a : Ipv4) :
    network mask a = 2 ^ mask.hostBits * (a.toNat / 2 ^ mask.hostBits) := by
  have ha := Nat.div_add_mod a.toNat (2 ^ mask.hostBits)
  unfold network
  omega

/-- The network ends below `2 ^ 32`. -/
theorem network_add_le (mask a : Ipv4) : network mask a + 2 ^ mask.hostBits ≤ 2 ^ 32 := by
  have hle : mask.hostBits ≤ 32 := Nat.sub_le 32 _
  have hsplit : 2 ^ 32 = 2 ^ mask.hostBits * 2 ^ (32 - mask.hostBits) := by
    rw [← Nat.pow_add, Nat.add_sub_cancel' hle]
  have hdiv : a.toNat / 2 ^ mask.hostBits < 2 ^ (32 - mask.hostBits) :=
    Nat.div_lt_of_lt_mul (hsplit ▸ a.toNat_lt)
  rw [network_eq_mul, ← Nat.mul_succ, hsplit]
  exact Nat.mul_le_mul_left _ hdiv

/-- The hosts of a network lie strictly between its first and its last address. -/
theorem isHostOf_iff (h : ContiguousFromTop mask) : IsHostOf mask a b ↔
    network mask a < b.toNat ∧ b.toNat + 1 < network mask a + 2 ^ mask.hostBits := by
  have hb := Nat.div_add_mod b.toNat (2 ^ mask.hostBits)
  have hmod := Nat.mod_lt b.toNat (Nat.two_pow_pos mask.hostBits)
  rw [isHostOf_iff_div h, network_eq_mul]
  constructor
  · rintro ⟨hdiv, hzero, hones⟩
    rw [hdiv] at hb
    omega
  · rintro ⟨hlo, hhi⟩
    -- a number in the range of the network has its network part
    have hdiv : b.toNat / 2 ^ mask.hostBits = a.toNat / 2 ^ mask.hostBits := by
      apply Nat.div_eq_of_lt_le
      · rw [Nat.mul_comm]
        omega
      · rw [Nat.succ_mul, Nat.mul_comm]
        omega
    rw [hdiv] at hb
    exact ⟨hdiv, by omega, by omega⟩

/-- The hosts of a network as numbers, in text form. -/
theorem exists_isHostOf_iff (h : ContiguousFromTop mask) (ip : String) :
    (∃ x : Int, (network mask a : Int) < x ∧ x < network mask a + 2 ^ mask.hostBits - 1 ∧
      ip = (ofInt x).text) ↔ ∃ b, IsHostOf mask a b ∧ ip = b.text := by
  -- the network lies within 32 bits
  have hle : (network mask a : Int) + 2 ^ mask.hostBits ≤ 2 ^ 32 := by
    have hnat := network_add_le mask a
    generalize network mask a = n at hnat ⊢
    rw [← Int.ofNat_le] at hnat
    simpa using hnat
  have hhost (b : Ipv4) : IsHostOf mask a b ↔ (network mask a : Int) < b.toNat ∧
      (b.toNat : Int) < network mask a + 2 ^ mask.hostBits - 1 := by
    rw [isHostOf_iff h, ← Int.ofNat_lt, ← Int.ofNat_lt]
    push_cast
    omega
  constructor
  · rintro ⟨x, hlo, hhi, rfl⟩
    refine ⟨ofInt x, ?_, rfl⟩
    have hx := toNat_ofInt x
    -- so its numbers are addresses
    rw [Int.emod_eq_of_lt (by omega) (by omega)] at hx
    rw [hhost, hx]
    exact ⟨hlo, hhi⟩
  · rintro ⟨b, hb, rfl⟩
    obtain ⟨hlo, hhi⟩ := (hhost b).mp hb
    exact ⟨b.toNat, hlo, hhi, by rw [ofInt_toNat]⟩

end Ipv4

end LanScan
