import Mathlib.Algebra.GroupWithZero.Nat

/-!
# One's-complement sums

Addition of machine words with end-around carry, which is addition modulo `2 ^ w - 1`
with two representations of zero.

Key results:
- `toNat_onesSum`: the sum of words as a number
- `onesSum_perm`: their order does not matter
- `onesSum_append_not`: words and the complement of their sum add up to all ones
-/

namespace BitVec

variable {w : Nat}

/-- Addition with end-around carry. -/
def onesAdd (x y : BitVec w) : BitVec w :=
  BitVec.ofNat w ((x.toNat + y.toNat) % 2 ^ w + (x.toNat + y.toNat) / 2 ^ w)

/-- The one's-complement sum of some words. -/
def onesSum (xs : List (BitVec w)) : BitVec w := xs.foldl onesAdd 0

/-- The number in `0..m` that is congruent to `n` modulo `m`, and zero for zero only. -/
def onesResidue (m n : Nat) : Nat := if n = 0 then 0 else (n - 1) % m + 1

/-- The sum as a number: the carry, when there is one, is added at the lower end. -/
theorem toNat_onesAdd (x y : BitVec w) : (onesAdd x y).toNat =
    if x.toNat + y.toNat < 2 ^ w then x.toNat + y.toNat else x.toNat + y.toNat + 1 - 2 ^ w := by
  have hx := x.isLt
  have hy := y.isLt
  rw [onesAdd, toNat_ofNat]
  split
  · rename_i hlt
    rw [Nat.mod_eq_of_lt hlt, Nat.div_eq_of_lt hlt, Nat.add_zero, Nat.mod_eq_of_lt hlt]
  · rename_i hle
    -- there is one carry
    have hdiv : (x.toNat + y.toNat) / 2 ^ w = 1 :=
      Nat.div_eq_of_lt_le (by omega) (by omega)
    have hmod : (x.toNat + y.toNat) % 2 ^ w = x.toNat + y.toNat - 2 ^ w := by
      rw [Nat.mod_eq_sub_mod (by omega), Nat.mod_eq_of_lt (by omega)]
    rw [hdiv, hmod, Nat.mod_eq_of_lt (by omega)]
    omega

/-- A carry that goes around takes `2 ^ w - 1` off. -/
theorem onesAdd_residue (hw : 0 < w) {x y : BitVec w} {n : Nat}
    (hx : x.toNat = onesResidue (2 ^ w - 1) n) :
    (onesAdd x y).toNat = onesResidue (2 ^ w - 1) (n + y.toNat) := by
  have hy := y.isLt
  have htwo : 2 ≤ 2 ^ w := Nat.le_self_pow (by omega) 2
  rw [toNat_onesAdd]
  unfold onesResidue at hx ⊢
  -- zero is represented by itself, until something is added to it
  by_cases hn : n = 0
  · rw [if_pos hn] at hx
    by_cases hzero : y.toNat = 0
    · simp [hn, hx, hzero]
    · rw [hx, hn, Nat.zero_add, if_pos hy, if_neg hzero, Nat.mod_eq_of_lt (by omega)]
      omega
  · rw [if_neg hn] at hx
    have hlt := Nat.mod_lt (n - 1) (show 0 < 2 ^ w - 1 by omega)
    have hsum : n + y.toNat - 1 = n - 1 + y.toNat := by omega
    rw [if_neg (show n + y.toNat ≠ 0 by omega), hsum, ← Nat.mod_add_mod]
    -- with a carry the sum is past the modulus once
    by_cases hcarry : x.toNat + y.toNat < 2 ^ w
    · rw [if_pos hcarry, Nat.mod_eq_of_lt (a := (n - 1) % (2 ^ w - 1) + y.toNat) (by omega)]
      omega
    · rw [if_neg hcarry,
        Nat.mod_eq_sub_mod (a := (n - 1) % (2 ^ w - 1) + y.toNat) (by omega),
        Nat.mod_eq_of_lt (a := (n - 1) % (2 ^ w - 1) + y.toNat - (2 ^ w - 1)) (by omega)]
      omega

/-- The one's-complement sum is the sum, reduced. -/
theorem toNat_onesSum (hw : 0 < w) (xs : List (BitVec w)) :
    (onesSum xs).toNat = onesResidue (2 ^ w - 1) (xs.map BitVec.toNat).sum := by
  -- by induction for a sum that has already been begun
  have hfold : ∀ (x : BitVec w) (n : Nat), x.toNat = onesResidue (2 ^ w - 1) n →
      (xs.foldl onesAdd x).toNat = onesResidue (2 ^ w - 1) (n + (xs.map BitVec.toNat).sum) := by
    induction xs with
    | nil =>
      intro x n hx
      exact hx
    | cons y ys ih =>
      intro x n hx
      rw [List.foldl_cons, ih _ _ (onesAdd_residue hw hx), List.map_cons, List.sum_cons,
        Nat.add_assoc]
  have hzero := hfold 0 0 rfl
  rw [Nat.zero_add] at hzero
  exact hzero

/-- The order of the words does not matter. -/
theorem onesSum_perm (hw : 0 < w) {xs ys : List (BitVec w)} (h : xs.Perm ys) :
    onesSum xs = onesSum ys := by
  apply BitVec.eq_of_toNat_eq
  rw [toNat_onesSum hw, toNat_onesSum hw, (h.map BitVec.toNat).sum_nat]

/-- A zero word does not add to the sum. -/
theorem onesSum_zero_cons (xs : List (BitVec w)) : onesSum (0 :: xs) = onesSum xs := by
  have hzero : onesAdd (0 : BitVec w) 0 = 0 := by
    simp [onesAdd, Nat.div_eq_of_lt (Nat.two_pow_pos w)]
  rw [onesSum, List.foldl_cons, hzero, onesSum]

/-- A word and its complement add up to all ones. -/
theorem onesAdd_not (x : BitVec w) : onesAdd x (~~~x) = allOnes w := by
  have hx := x.isLt
  apply BitVec.eq_of_toNat_eq
  rw [toNat_onesAdd, toNat_not, toNat_allOnes, if_pos (by omega)]
  omega

/-- Words and the complement of their sum add up to all ones. -/
theorem onesSum_append_not (xs : List (BitVec w)) :
    onesSum (xs ++ [~~~onesSum xs]) = allOnes w := by
  rw [onesSum, List.foldl_append]
  exact onesAdd_not (onesSum xs)

end BitVec
