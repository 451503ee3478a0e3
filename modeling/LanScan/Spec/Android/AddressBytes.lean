import LanScan.Spec.Android.SubnetCorrect

/-!
# Addresses as byte arrays (Android)

`startScanning` hands the shortest encoding of an address to `InetAddress.getByAddress`.
The encoding drops leading bytes that only repeat the sign, and then there are fewer than
four: 0.0.0.0 up to 0.127.255.255 and 255.128.0.0 up to 255.255.255.255 are rejected.

## Key results

- `hasFourBytes_iff_topNine`: the addresses in terms of their bits
- `toByteArray_law`: what `getByAddress` makes of an address
-/

namespace LanScan.Android

/-- The top nine bits of the number are all equal. -/
def TopNineEqual (x : Int32) : Prop :=
  ∀ i < 32, 23 ≤ i → x.toBitVec.getLsbD i = x.toBitVec.getLsbD 31

instance (x : Int32) : Decidable (TopNineEqual x) :=
  inferInstanceAs (Decidable (∀ i < 32, 23 ≤ i → x.toBitVec.getLsbD i = x.toBitVec.getLsbD 31))

/-- An address takes four bytes unless its top nine bits are equal. -/
theorem hasFourBytes_iff_topNine (x : Int32) : HasFourBytes x ↔ ¬ TopNineEqual x := by
  have hbounds := x.toBitVec.toInt_bounds_iff (show 23 < 32 by decide)
  -- Equal top nine bits mean that the number fits into 24 bits with its sign.
  have htop : TopNineEqual x ↔ -2 ^ 23 ≤ x.toInt ∧ x.toInt < 2 ^ 23 := by
    apply Iff.trans _ hbounds.symm
    constructor
    · intro h i hlo hhi
      exact h i hhi hlo
    · intro h i hhi hlo
      exact h i hlo hhi
  rw [htop, HasFourBytes]
  omega

/-- **Encoding.** The array has four bytes if and only if the top nine bits are not all
    equal.  Then it holds the four octets, and `getByAddress` returns their address; it
    raises on every other array. -/
theorem toByteArray_law (x : Int32) :
    ((toByteArray x.toInt).length = 4 ↔ ¬ TopNineEqual x) ∧
    (¬ TopNineEqual x → toByteArray x.toInt = octets x) ∧
    ∀ address, InetAddress.getByAddress (toByteArray x.toInt) = some address ↔
      ¬ TopNineEqual x ∧ address = inetAddress x := by
  rw [← hasFourBytes_iff_topNine]
  refine ⟨length_toByteArray_eq_four_iff x, toByteArray_eq_octets, fun address => ?_⟩
  constructor
  · exact eq_inetAddress_of_getByAddress
  · rintro ⟨hfour, rfl⟩
    exact getByAddress_toByteArray hfour

/-- The first address behind those that are rejected. -/
theorem toByteArray_law_boundary :
    toByteArray (0x00800000 : Int32).toInt = octets 0x00800000 ∧
      InetAddress.getByAddress (toByteArray (0x00800000 : Int32).toInt) =
        some (.inet4 0 128 0 0) :=
  ⟨(toByteArray_law 0x00800000).2.1 (by decide),
    ((toByteArray_law 0x00800000).2.2 _).mpr ⟨by decide, rfl⟩⟩

end LanScan.Android
