import Mathlib.Algebra.Group.Int.Defs
import Mathlib.Algebra.GroupWithZero.Nat

/-!
# Rounding and masking

Generic lemmas about rounding an integer down to a multiple, and about masking
off the low bits of a machine integer, which is the same for a power of two.
-/

namespace Int

/-- Rounding down to a multiple of `block` stays above a lower multiple. -/
theorem le_sub_emod {x block bound : Int} (hpos : 0 < block) (hdvd : block ∣ bound)
    (h : bound ≤ x) : bound ≤ x - x % block := by
  obtain ⟨c, rfl⟩ := hdvd
  have hq : c ≤ x / block := by
    rw [Int.le_ediv_iff_mul_le hpos, Int.mul_comm]
    exact h
  have hmul := Int.mul_le_mul_of_nonneg_left hq (Int.le_of_lt hpos)
  have := Int.mul_ediv_add_emod x block
  omega

/-- A whole block stays below a higher multiple of its size. -/
theorem sub_emod_add_le {x block bound : Int} (hpos : 0 < block) (hdvd : block ∣ bound)
    (h : x < bound) : x - x % block + block ≤ bound := by
  obtain ⟨c, rfl⟩ := hdvd
  -- The bound is `c` blocks, so the block of `x` is one of the first `c`.
  have hq : x / block < c := by
    apply Int.ediv_lt_of_lt_mul hpos
    rw [Int.mul_comm]
    exact h
  have hmul := Int.mul_le_mul_of_nonneg_left (Int.add_one_le_iff.mpr hq) (Int.le_of_lt hpos)
  rw [Int.mul_add, Int.mul_one] at hmul
  have := Int.mul_ediv_add_emod x block
  omega

/-- A power of two divides the higher ones. -/
theorem two_pow_dvd_two_pow {m n : Nat} (h : m ≤ n) : (2 : Int) ^ m ∣ 2 ^ n := by
  exact_mod_cast Nat.pow_dvd_pow 2 h

end Int

namespace BitVec

/-- Masking with all ones but the low `k` rounds down to a multiple of `2 ^ k`. -/
theorem toInt_and_allOnes_shiftLeft {w : Nat} (x : BitVec w) {k : Nat} (hk : k < w) :
    (x &&& (allOnes w <<< k)).toInt = x.toInt - x.toInt % 2 ^ k := by
  have hshift : x &&& (allOnes w <<< k) = (x >>> k) <<< k := by
    apply eq_of_getLsbD_eq
    intro i hi
    simp only [getLsbD_and, getLsbD_shiftLeft, getLsbD_allOnes, getLsbD_ushiftRight, hi,
      decide_true, Bool.true_and]
    by_cases hik : i < k
    · simp [hik]
    · have : i - k < w := by omega
      simp [hik, this, Nat.add_sub_cancel' (Nat.not_lt.mp hik)]
  have hnat : (x &&& (allOnes w <<< k)).toNat = x.toNat - x.toNat % 2 ^ k := by
    rw [hshift, toNat_shiftLeft, toNat_ushiftRight, Nat.shiftLeft_eq, Nat.shiftRight_eq_div_pow]
    have hle := Nat.div_mul_le_self x.toNat (2 ^ k)
    rw [Nat.mod_eq_of_lt (Nat.lt_of_le_of_lt hle x.isLt)]
    have := Nat.div_add_mod' x.toNat (2 ^ k)
    omega
  -- the sign bit is not masked, and `2 ^ w` is a multiple of `2 ^ k`
  have hmsb : (x &&& (allOnes w <<< k)).msb = x.msb := by
    rw [msb_and, msb_shiftLeft]
    simp only [getMsbD_allOnes, hk, decide_true, Bool.and_true]
  have hmod : x.toInt % 2 ^ k = (x.toNat % 2 ^ k : Nat) := by
    obtain ⟨c, hc⟩ := Nat.pow_dvd_pow 2 (Nat.le_of_lt hk)
    rw [toInt_eq_msb_cond]
    split
    · rw [hc, Int.natCast_mul, Int.natCast_pow]
      exact Int.sub_mul_emod_self_left _ _ _
    · rfl
  have hlt := Nat.mod_le x.toNat (2 ^ k)
  rw [toInt_eq_msb_cond, hmsb, hnat, hmod, toInt_eq_msb_cond]
  split <;> omega

/-- A number fits into `k` bits and a sign if and only if all its other bits are alike. -/
theorem toInt_bounds_iff {w : Nat} (x : BitVec w) {k : Nat} (hk : k < w) :
    -2 ^ k ≤ x.toInt ∧ x.toInt < 2 ^ k ↔ ∀ i, k ≤ i → i < w → x.getLsbD i = x.msb := by
  have hpos : (0 : Int) < 2 ^ k := by exact_mod_cast Nat.two_pow_pos k
  have hdiv : (x.sshiftRight k).toInt = x.toInt / 2 ^ k := by
    rw [toInt_sshiftRight, Int.shiftRight_eq_div_pow]
    exact_mod_cast rfl
  -- the other bits are those of the number shifted down, which is zero or minus one
  have hbounds : -2 ^ k ≤ x.toInt ∧ x.toInt < 2 ^ k ↔
      (x.sshiftRight k).toInt = 0 ∨ (x.sshiftRight k).toInt = -1 := by
    have hge := Int.le_ediv_iff_mul_le (a := -1) (b := x.toInt) hpos
    have hlt := Int.ediv_lt_iff_lt_mul (a := x.toInt) (b := 1) hpos
    rw [hdiv]
    omega
  have hbit (i : Nat) (hki : k ≤ i) (hi : i < w) :
      (x.sshiftRight k).getLsbD (i - k) = x.getLsbD i := by
    rw [getLsbD_sshiftRight, if_pos (by omega), Nat.add_sub_cancel' hki,
      decide_eq_false (by omega), Bool.not_false, Bool.true_and]
  have hmsb : x.msb = x.getLsbD (w - 1) := msb_eq_getLsbD_last x
  rw [hbounds]
  constructor
  · rintro (hzero | hones) i hki hi
    · have heq : x.sshiftRight k = 0#w := toInt_inj.mp (by rw [hzero, toInt_zero])
      rw [hmsb, ← hbit i hki hi, ← hbit (w - 1) (by omega) (by omega), heq, getLsbD_zero,
        getLsbD_zero]
    · have heq : x.sshiftRight k = allOnes w := by
        apply toInt_inj.mp
        rw [hones, toInt_allOnes, if_pos (by omega)]
      rw [hmsb, ← hbit i hki hi, ← hbit (w - 1) (by omega) (by omega), heq, getLsbD_allOnes,
        getLsbD_allOnes, decide_eq_true (by omega), decide_eq_true (by omega)]
  · intro h
    have hall (i : Nat) (hi : i < w) : (x.sshiftRight k).getLsbD i = x.msb := by
      by_cases hik : k + i < w
      · rw [← h (k + i) (by omega) hik, ← hbit (k + i) (by omega) hik, Nat.add_sub_cancel_left]
      · rw [getLsbD_sshiftRight, if_neg hik, decide_eq_false (by omega), Bool.not_false,
          Bool.true_and]
    cases hsign : x.msb with
    | false =>
      have heq : x.sshiftRight k = 0#w := by
        apply eq_of_getLsbD_eq
        intro i hi
        rw [hall i hi, hsign, getLsbD_zero]
      rw [heq, toInt_zero]
      exact .inl rfl
    | true =>
      have heq : x.sshiftRight k = allOnes w := by
        apply eq_of_getLsbD_eq
        intro i hi
        rw [hall i hi, hsign, getLsbD_allOnes, decide_eq_true hi]
      rw [heq, toInt_allOnes, if_pos (by omega)]
      exact .inr rfl

end BitVec

namespace Int32

/-- An arithmetic shift keeps the bits of `-1`. -/
theorem neg_one_shiftRight (d : Int32) : (-1 : Int32) >>> d = -1 := by
  apply toBitVec_inj.mp
  rw [Int32.toBitVec_shiftRight, BitVec.sshiftRight_eq']
  apply BitVec.eq_of_getLsbD_eq
  intro i hi
  rw [BitVec.getLsbD_sshiftRight]
  -- All bits are set, and the bits that are shifted in are copies of the sign bit.
  have hones : (-1 : Int32).toBitVec = BitVec.allOnes 32 := by decide
  rw [hones]
  have hmsb : (BitVec.allOnes 32).msb = true := by decide
  simp only [hmsb, BitVec.getLsbD_allOnes, hi, decide_true]
  split <;> simp_all

end Int32
