/-!
# Buffers

What a program reads from a buffer below a position is the same in every buffer that
agrees with it up to there.  A block is a part of a buffer with a fixed size.

Key results:
- `AgreeUpTo.getElem?`, `block_congr`: what does not change
- `agreeUpTo_set`: what may change
- `block_append`: the block that was written is read
-/

namespace List

universe u v

variable {α : Type u} {β : Type v} {xs ys zs : List α} {n i : Nat}

/-! ## Agreement -/

/-- The first `n` elements are the same. -/
def AgreeUpTo (n : Nat) (xs ys : List α) : Prop := xs.take n = ys.take n

instance [DecidableEq α] (n : Nat) (xs ys : List α) : Decidable (AgreeUpTo n xs ys) :=
  inferInstanceAs (Decidable (_ = _))

/-- Buffers that agree up to `n` have the same elements there. -/
theorem AgreeUpTo.getElem? (h : AgreeUpTo n xs ys) (hi : i < n) : xs[i]? = ys[i]? := by
  rw [← getElem?_take_of_lt hi, h, getElem?_take_of_lt hi]

/-- They have the same elements there, whatever is read behind their ends. -/
theorem AgreeUpTo.getD (h : AgreeUpTo n xs ys) (hi : i < n) (d : α) :
    xs.getD i d = ys.getD i d := by
  rw [getD_eq_getElem?_getD, h.getElem? hi, ← getD_eq_getElem?_getD]

/-- What stands behind the first `i` elements. -/
theorem AgreeUpTo.drop (h : AgreeUpTo n xs ys) {k : Nat} (hk : i + k ≤ n) :
    AgreeUpTo k (xs.drop i) (ys.drop i) := by
  -- these elements are among the first `n`
  have htake (zs : List α) : zs.take (i + k) = (zs.take n).take (i + k) := by
    rw [take_take, Nat.min_eq_left hk]
  rw [AgreeUpTo, take_drop, take_drop, htake xs, htake ys, h]

/-- Elements from the position on may be replaced. -/
theorem agreeUpTo_set (xs : List α) (hi : n ≤ i) (x : α) : AgreeUpTo n xs (xs.set i x) := by
  rw [AgreeUpTo, take_set_of_le hi]

/-! ## Pieces -/

/-- Pieces of one size are found by counting. -/
theorem drop_flatMap_of_length {f : β → List α} {k : Nat} {l : List β}
    (hf : ∀ b ∈ l, (f b).length = k) (i : Nat) :
    (l.flatMap f).drop (k * i) = (l.drop i).flatMap f := by
  induction i generalizing l with
  | zero => rfl
  | succ i ih =>
    cases l with
    | nil => simp
    | cons b l =>
      -- The first block has exactly `k` bytes, so dropping one more block drops it whole.
      have hb := hf b mem_cons_self
      have hrest := ih fun b' hb' => hf b' (mem_cons_of_mem b hb')
      rw [flatMap_cons, drop_succ_cons, ← hrest, Nat.mul_succ, Nat.add_comm, ← drop_drop, ← hb,
        drop_left]

end List

namespace Vector

universe u

variable {α : Type u} {xs ys : List α} {n : Nat}

/-! ## Blocks -/

/-- The first `n` elements, with `d` for those that are missing. -/
def block (n : Nat) (d : α) (xs : List α) : Vector α n := ofFn fun k => xs.getD k d

/-- A block depends on the part of the buffer that it covers. -/
theorem block_congr (h : xs.AgreeUpTo n ys) (d : α) : block n d xs = block n d ys := by
  apply Vector.ext
  intro k hk
  simp only [block, getElem_ofFn, h.getD hk]

/-- The block in front is read. -/
@[simp] theorem block_append (v : Vector α n) (d : α) (xs : List α) :
    block n d (v.toList ++ xs) = v := by
  apply Vector.ext
  intro k hk
  have hlt : k < v.toList.length := by simpa using hk
  simp [block, List.getD_eq_getElem?_getD, List.getElem?_append_left hlt, hk]

/-- A block that lies in the buffer is its front. -/
theorem toList_block (d : α) (h : n ≤ xs.length) : (block n d xs).toList = xs.take n := by
  apply List.ext_getElem
  · simpa using (Nat.min_eq_left h).symm
  · intro k hk _
    have hlt : k < xs.length := by
      simp only [length_toList] at hk
      omega
    simp [block, List.getD_eq_getElem?_getD, hlt]

/-- Another element shows in the block where it stands. -/
theorem block_drop_set_ne {i k : Nat} (hk : k < n) (h : i + k < xs.length) {x : α}
    (hx : x ≠ xs[i + k]) (d : α) :
    block n d ((xs.set (i + k) x).drop i) ≠ block n d (xs.drop i) := by
  intro heq
  have hget : (block n d ((xs.set (i + k) x).drop i))[k] = (block n d (xs.drop i))[k] := by
    rw [heq]
  simp [block, List.getD_eq_getElem?_getD, h] at hget
  exact hx hget

end Vector
