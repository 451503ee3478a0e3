import Mathlib.Data.Nat.Bitwise

/-!
# Counting one bits

The number of one bits among the low bits of a number, as a program may count them: bit by
bit, part by part, or as the characters `1` of a binary rendering.

Key results:
- `ones_mul_two_pow_add`: the bits of two parts add up
- `countP_toDigits`: the characters `1` in base two
- `eq_two_pow_sub_iff`: a number is determined by its count if its one bits are on top
- `div_two_pow_eq_iff`: quotients by a power of two as bits
-/

namespace Nat

/-- The one bits among the low `w` bits of `n`. -/
def ones (w n : Nat) : Nat := (List.range w).countP n.testBit

/-- No more bits are one than are counted. -/
theorem ones_le (w n : Nat) : ones w n ≤ w := by
  have hle := List.countP_le_length (p := n.testBit) (l := List.range w)
  rwa [List.length_range] at hle

/-- Zero has no one bits. -/
@[simp] theorem ones_zero_right (w : Nat) : ones w 0 = 0 := by simp [ones, List.countP_eq_zero]

/-- The bits of two parts add up. -/
theorem ones_mul_two_pow_add (v x : Nat) {w y : Nat} (hy : y < 2 ^ w) :
    ones (w + v) (x * 2 ^ w + y) = ones w y + ones v x := by
  rw [ones, List.range_add, List.countP_append, List.countP_map, Nat.mul_comm]
  congr 1
  -- The low `w` bits are those of `y`, the others those of `x`.
  · apply List.countP_congr
    intro i hi
    rw [Nat.testBit_two_pow_mul_add x hy, if_pos (List.mem_range.mp hi)]
  · apply List.countP_congr
    intro i _
    rw [Function.comp_apply, Nat.testBit_two_pow_mul_add x hy, if_neg (by omega),
      Nat.add_sub_cancel_left]

/-- One digit is a one bit if it is the character `1`. -/
theorem countP_digitChar {d : Nat} (hd : d < 2) :
    [digitChar d].countP (· == '1') = ones 1 d := by
  revert d
  decide

/-- The characters `1` of a number in base two. -/
theorem countP_toDigits {w n : Nat} (h : n < 2 ^ w) :
    (toDigits 2 n).countP (· == '1') = ones w n := by
  induction w generalizing n with
  | zero =>
    obtain rfl : n = 0 := by omega
    decide
  | succ w ih =>
    have hdigit := n.mod_lt (show 0 < 2 by decide)
    -- the last digit is the lowest bit, and the digits before it are those of the half
    have hones : ones (w + 1) n = ones 1 (n % 2) + ones w (n / 2) := by
      have hparts := ones_mul_two_pow_add w (n / 2) (show n % 2 < 2 ^ 1 from hdigit)
      rwa [Nat.pow_one, Nat.div_add_mod', Nat.add_comm 1 w] at hparts
    rw [hones, toDigits_eq_if (by decide)]
    split
    · rename_i hlt
      rw [countP_digitChar hlt, Nat.mod_eq_of_lt hlt, Nat.div_eq_of_lt hlt, ones_zero_right,
        Nat.add_zero]
    · rw [List.countP_append, ih (by rw [Nat.pow_succ] at h; omega), countP_digitChar hdigit,
        Nat.add_comm]

/-! ## One bits on top -/

variable {w k n : Nat}

/-- `2 ^ w - 2 ^ k` has its one bits from `k` on. -/
theorem testBit_two_pow_sub_two_pow (h : k ≤ w) (i : Nat) :
    (2 ^ w - 2 ^ k).testBit i = decide (k ≤ i ∧ i < w) := by
  have hfactor : 2 ^ w - 2 ^ k = (2 ^ (w - k) - 1) * 2 ^ k := by
    rw [Nat.sub_mul, ← Nat.pow_add, Nat.sub_add_cancel h, Nat.one_mul]
  rw [hfactor, Nat.testBit_mul_two_pow, Nat.testBit_two_pow_sub_one]
  by_cases hki : k ≤ i
  · simp only [hki, decide_true, Bool.true_and, true_and]
    congr 1
    rw [Nat.sub_lt_sub_iff_right hki]
  · simp [hki]

/-- A number whose one bits are those from `k` on has `w - k` of them. -/
theorem ones_of_testBit_iff (h : k ≤ w) (hbits : ∀ i < w, n.testBit i = true ↔ k ≤ i) :
    ones w n = w - k := by
  obtain ⟨v, rfl⟩ := Nat.exists_eq_add_of_le h
  rw [ones, List.range_add, List.countP_append, List.countP_map]
  -- no bit below `k`, and each one above
  have hlow : (List.range k).countP n.testBit = 0 := by
    apply List.countP_eq_zero.mpr
    intro i hi
    have hlt := List.mem_range.mp hi
    rw [hbits i (by omega)]
    omega
  have hhigh : (List.range v).countP (n.testBit ∘ fun i => k + i) = v := by
    rw [List.countP_eq_length.mpr, List.length_range]
    intro i hi
    have hlt := List.mem_range.mp hi
    rw [Function.comp_apply, hbits (k + i) (by omega)]
    omega
  rw [hlow, hhigh, Nat.zero_add, Nat.add_sub_cancel_left]

/-- Where every bit above a one bit is one, there is a lowest one bit. -/
theorem exists_testBit_iff (h : ∀ j < w, ∀ i < j, n.testBit i = true → n.testBit j = true) :
    ∃ k ≤ w, ∀ i < w, n.testBit i = true ↔ k ≤ i := by
  induction w with
  | zero => exact ⟨0, Nat.le_refl 0, fun i hi => absurd hi (Nat.not_lt_zero i)⟩
  | succ w ih =>
    obtain ⟨k, hk, hbits⟩ := ih fun j hj => h j (by omega)
    cases htop : n.testBit w with
    | true =>
      -- the bit on top is one, too
      refine ⟨k, by omega, fun i hi => ?_⟩
      rcases Nat.lt_succ_iff_lt_or_eq.mp hi with hlt | rfl
      · exact hbits i hlt
      · simp only [htop, true_iff]
        exact hk
    | false =>
      -- then there is no one bit below
      refine ⟨w + 1, Nat.le_refl _, fun i hi => ?_⟩
      have hfalse : ¬ n.testBit i = true := by
        intro hone
        rcases Nat.lt_succ_iff_lt_or_eq.mp hi with hlt | rfl
        · rw [h w (by omega) i hlt hone] at htop
          exact nomatch htop
        · rw [htop] at hone
          exact nomatch hone
      exact ⟨fun hone => absurd hone hfalse, fun hle => by omega⟩

/-- A number is `2 ^ w` less the power that its count of one bits leaves if and only if its
    one bits are on top. -/
theorem eq_two_pow_sub_iff (hn : n < 2 ^ w) :
    2 ^ w - 2 ^ (w - ones w n) = n ↔
      ∀ j < w, ∀ i < j, n.testBit i = true → n.testBit j = true := by
  have hle := ones_le w n
  constructor
  -- a mask: above a one bit there are only one bits
  · intro heq j hj i hij hone
    rw [← heq, testBit_two_pow_sub_two_pow (by omega), decide_eq_true_eq] at hone ⊢
    omega
  · intro h
    -- the one bits are those from some `k` on
    obtain ⟨k, hk, hbits⟩ := exists_testBit_iff h
    rw [ones_of_testBit_iff hk hbits, Nat.sub_sub_self hk]
    apply Nat.eq_of_testBit_eq
    intro i
    rw [testBit_two_pow_sub_two_pow hk]
    by_cases hi : i < w
    · rw [Bool.eq_iff_iff, decide_eq_true_eq, hbits i hi]
      omega
    · rw [decide_eq_false (by omega), Nat.testBit_lt_two_pow]
      exact Nat.lt_of_lt_of_le hn (Nat.pow_le_pow_right (by decide) (by omega))

/-! ## Bits above and below -/

variable {x y : Nat}

/-- The low bits are all zero. -/
theorem mod_two_pow_eq_zero_iff : x % 2 ^ k = 0 ↔ ∀ i < k, x.testBit i = false := by
  constructor
  · intro h i hi
    have hbit := Nat.testBit_mod_two_pow x k i
    simpa [h, hi] using hbit.symm
  · intro h
    apply Nat.eq_of_testBit_eq
    intro i
    rw [Nat.testBit_mod_two_pow, Nat.zero_testBit, Bool.and_eq_false_iff, decide_eq_false_iff_not]
    -- Bits from `k` on are cut off by the remainder.
    by_cases hi : i < k
    · exact .inr (h i hi)
    · exact .inl hi

/-- The low bits are all one. -/
theorem mod_two_pow_eq_sub_one_iff : x % 2 ^ k = 2 ^ k - 1 ↔ ∀ i < k, x.testBit i = true := by
  constructor
  · intro h i hi
    have hbit := Nat.testBit_mod_two_pow x k i
    simpa [h, hi, Nat.testBit_two_pow_sub_one] using hbit.symm
  · intro h
    apply Nat.eq_of_testBit_eq
    intro i
    rw [Nat.testBit_mod_two_pow, Nat.testBit_two_pow_sub_one]
    by_cases hi : i < k
    · rw [h i hi, Bool.and_true]
    · rw [decide_eq_false hi, Bool.false_and]

/-- The high bits agree. -/
theorem div_two_pow_eq_iff : x / 2 ^ k = y / 2 ^ k ↔ ∀ i, k ≤ i → x.testBit i = y.testBit i := by
  constructor
  · intro h i hi
    -- Bit `i` of the number is bit `i - k` of the quotient.
    have hbits := congrArg (Nat.testBit · (i - k)) h
    simpa [Nat.testBit_div_two_pow, Nat.sub_add_cancel hi] using hbits
  · intro h
    apply Nat.eq_of_testBit_eq
    intro i
    rw [Nat.testBit_div_two_pow, Nat.testBit_div_two_pow]
    exact h _ (Nat.le_add_left k i)
end Nat
