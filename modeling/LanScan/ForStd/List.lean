import Mathlib.Algebra.GroupWithZero.Nat
import Mathlib.Data.List.Nodup
import Mathlib.Data.List.Pairwise
import Mathlib.Data.List.Perm.Basic

/-!
# List lemmas

Generic lemmas about replacing one element of a list and about joining lists, and
the list `stride first stop step` of the integers that a counting loop visits.
-/

namespace List

universe u v w

variable {α : Type u} {β : Type v}

/-! ## Replacing one element -/

/-- A property of all elements survives `set` when the new element has it. -/
theorem forall_mem_set {P : α → Prop} {ws : List α} {k : Nat} {w' : α}
    (hws : ∀ w ∈ ws, P w) (hw' : P w') : ∀ w ∈ ws.set k w', P w := by
  intro w hw
  rcases mem_or_eq_of_mem_set hw with h | rfl
  · exact hws w h
  · exact hw'

/-- What stands at a place of a list in which one place was replaced. -/
theorem getElem?_set_cases {xs : List α} {k i : Nat} {x y : α} (h : (xs.set k x)[i]? = some y) :
    i = k ∧ y = x ∨ i ≠ k ∧ xs[i]? = some y := by
  by_cases hi : i = k
  · subst hi
    rw [getElem?_set_self'] at h
    obtain ⟨_, _, hy⟩ := Option.map_eq_some_iff.mp h
    exact .inl ⟨rfl, hy.symm⟩
  · rw [getElem?_set_ne (Ne.symm hi)] at h
    exact .inr ⟨hi, h⟩

/-- What stands at a place of a list that was extended by one. -/
theorem getElem?_concat_cases {xs : List α} {i : Nat} {x y : α} (h : (xs ++ [x])[i]? = some y) :
    i = xs.length ∧ y = x ∨ xs[i]? = some y := by
  by_cases hi : i < xs.length
  · rw [getElem?_append_left hi] at h
    exact .inr h
  · rw [getElem?_append_right (Nat.le_of_not_lt hi), getElem?_singleton] at h
    split at h
    · exact .inl ⟨by omega, (Option.some.inj h).symm⟩
    · cases h

/-- An element other than the one replaced stays. -/
theorem mem_set_of_mem_of_ne {ws : List α} {k : Nat} {v w w' : α} (hk : ws[k]? = some w)
    (hv : v ∈ ws) (hne : v ≠ w) : v ∈ ws.set k w' := by
  obtain ⟨j, hj⟩ := getElem?_of_mem hv
  have hjk : k ≠ j := by
    intro h
    rw [h, hj] at hk
    exact hne (Option.some.inj hk)
  have hset : (ws.set k w')[j]? = some v := by rw [getElem?_set_ne hjk, hj]
  exact mem_of_getElem? hset

/-- Replacing `w` by `w'` exchanges `f w` for `f w'` in a `flatMap`. -/
theorem flatMap_set_perm (f : α → List β) {ws : List α} {k : Nat} {w : α} (w' : α)
    (h : ws[k]? = some w) :
    (f w ++ (ws.set k w').flatMap f).Perm (f w' ++ ws.flatMap f) := by
  induction ws generalizing k with
  | nil => simp at h
  | cons x xs ih =>
    cases k with
    | zero =>
      -- the element itself is replaced: what it gave and what it gives change places
      simp only [getElem?_cons_zero, Option.some.injEq] at h
      subst h
      simp only [set_cons_zero, flatMap_cons, ← append_assoc]
      exact perm_append_comm.append_right _
    | succ k =>
      simp only [getElem?_cons_succ] at h
      simp only [set_cons_succ, flatMap_cons]
      -- an element behind: what the first one gives is moved out of the way
      calc f w ++ (f x ++ (xs.set k w').flatMap f)
          ~ f x ++ (f w ++ (xs.set k w').flatMap f) := perm_append_comm_assoc ..
        _ ~ f x ++ (f w' ++ xs.flatMap f) := (ih h).append_left _
        _ ~ f w' ++ (f x ++ xs.flatMap f) := perm_append_comm_assoc ..

/-- When replacing `w` by `w'` takes `a` out of `f w` and puts `b` into it, the
    `flatMap` loses `a` and gains `b`. -/
theorem flatMap_set_perm_of_perm (f : α → List β) {ws : List α} {k : Nat} {w w' : α}
    {a b : List β} (hk : ws[k]? = some w) (h : (a ++ f w').Perm (f w ++ b)) :
    (a ++ (ws.set k w').flatMap f).Perm (ws.flatMap f ++ b) := by
  -- Adding `f w'` on both sides lets `flatMap_set_perm` exchange the two values at `k`.
  apply (perm_append_left_iff (f w')).mp
  calc f w' ++ (a ++ (ws.set k w').flatMap f)
      ~ a ++ (f w' ++ (ws.set k w').flatMap f) := perm_append_comm_assoc ..
    _ ~ (f w ++ b) ++ (ws.set k w').flatMap f := by
        rw [← append_assoc]; exact h.append_right _
    _ ~ b ++ (f w ++ (ws.set k w').flatMap f) := by
        rw [← append_assoc]; exact perm_append_comm.append_right _
    _ ~ b ++ (f w' ++ ws.flatMap f) := (flatMap_set_perm f w' hk).append_left _
    _ ~ f w' ++ (b ++ ws.flatMap f) := perm_append_comm_assoc ..
    _ ~ f w' ++ (ws.flatMap f ++ b) := perm_append_comm.append_left _

/-- The same for what each element contributes at its place. -/
theorem flatten_mapIdx_set_perm (f : Nat → α → List β) {ws : List α} {k : Nat} {w : α} (w' : α)
    {a : List β} (hk : ws[k]? = some w) (h : a ++ f k w' = f k w) :
    (a ++ ((ws.set k w').mapIdx f).flatten).Perm (ws.mapIdx f).flatten := by
  have hk' : (ws.mapIdx f)[k]? = some (f k w) := by rw [getElem?_mapIdx, hk]; rfl
  have hperm : (a ++ id (f k w')).Perm (id (f k w) ++ []) := by rw [append_nil]; exact .of_eq h
  rw [mapIdx_set, flatten_eq_flatMap, flatten_eq_flatMap]
  simpa using flatMap_set_perm_of_perm id hk' hperm

/-- Replacing `w` by `w'` exchanges `m w` for `m w'` in a sum. -/
theorem sum_map_set (m : α → Nat) {ws : List α} {k : Nat} {w : α} (w' : α)
    (h : ws[k]? = some w) :
    ((ws.set k w').map m).sum + m w = (ws.map m).sum + m w' := by
  induction ws generalizing k with
  | nil => simp at h
  | cons x xs ih =>
    cases k with
    | zero =>
      simp only [getElem?_cons_zero, Option.some.injEq] at h
      subst h
      simp only [set_cons_zero, map_cons, sum_cons]
      omega
    | succ k =>
      simp only [getElem?_cons_succ] at h
      -- an element behind the first one
      have := ih h
      simp only [set_cons_succ, map_cons, sum_cons]
      omega

/-! ## Searching -/

/-- The first element with a property is the first one with a stronger one, if it has it. -/
theorem find?_of_imp {p q : α → Bool} {l : List α} {a : α} (hqp : ∀ x, q x → p x)
    (h : l.find? p = some a) (ha : q a) : l.find? q = some a := by
  induction l with
  | nil => cases h
  | cons x l ih =>
    cases hp : p x with
    -- the first element with `p` is the one found, and it has `q`
    | true =>
      rw [find?_cons, hp] at h
      obtain rfl := Option.some.inj h
      rw [find?_cons, ha]
    | false =>
      -- an element without `p` has no `q`
      have hq : q x = false := by
        cases hq : q x with
        | false => rfl
        | true => exact absurd (hqp x hq) (by simp [hp])
      rw [find?_cons, hp] at h
      rw [find?_cons, hq]
      exact ih h

/-! ## Functions that may fail -/

/-- A function that has an effect on no element of a list. -/
theorem mapM_eq_pure_map {m : Type v → Type w} [Monad m] [LawfulMonad m] {f : α → m β} {g : α → β}
    {l : List α} (h : ∀ x ∈ l, f x = pure (g x)) : l.mapM f = pure (l.map g) := by
  induction l with
  | nil => rfl
  | cons x l ih =>
    rw [mapM_cons, h x mem_cons_self, ih fun y hy => h y (mem_cons_of_mem x hy)]
    simp

/-- A function that fails on no element of a list. -/
theorem mapM_eq_some_map {f : α → Option β} {g : α → β} {l : List α}
    (h : ∀ x ∈ l, f x = some (g x)) : l.mapM f = some (l.map g) := mapM_eq_pure_map h

/-! ## Joining -/

/-- Pieces that are joined by a separator are followed by it, but for the last one. -/
theorem dropLast_flatMap_append_singleton (sep : α) (pieces : List (List α)) :
    (pieces.flatMap fun piece => piece ++ [sep]).dropLast = [sep].intercalate pieces := by
  induction pieces with
  | nil => rfl
  | cons piece pieces ih =>
    cases pieces with
    | nil => simp
    | cons piece' pieces =>
      rw [List.intercalate_cons_cons, ← ih, List.flatMap_cons,
        List.dropLast_append_of_ne_nil (by simp)]

/-- What stands at the end of the last piece stands at the end. -/
theorem intercalate_append_concat (sep : List α) (pieces : List (List α)) (piece : List α) (a : α) :
    sep.intercalate (pieces ++ [piece ++ [a]]) = sep.intercalate (pieces ++ [piece]) ++ [a] := by
  induction pieces with
  | nil => simp
  | cons front pieces ih =>
    have hne (last : List α) : pieces ++ [last] ≠ [] := by simp
    rw [cons_append, cons_append, intercalate_cons_of_ne_nil (hne _),
      intercalate_cons_of_ne_nil (hne _), ih]
    simp only [append_assoc]

/-- Pieces with a separator behind each are the pieces with separators between, and one behind. -/
theorem flatMap_append_singleton (sep : α) {pieces : List (List α)} (hne : pieces ≠ []) :
    (pieces.flatMap fun piece => piece ++ [sep]) = [sep].intercalate pieces ++ [sep] := by
  obtain ⟨front, last, rfl⟩ := (eq_nil_or_concat pieces).resolve_left hne
  rw [← dropLast_flatMap_append_singleton, concat_eq_append, flatMap_append, flatMap_singleton,
    ← append_assoc, dropLast_concat]

/-- Concatenations of pieces of the same lengths are equal piece by piece. -/
theorem eq_of_flatMap_eq {f g : β → List α} {l : List β}
    (hlength : ∀ b ∈ l, (f b).length = (g b).length) (h : l.flatMap f = l.flatMap g) :
    ∀ b ∈ l, f b = g b := by
  induction l with
  | nil => nofun
  | cons b l ih =>
    rw [flatMap_cons, flatMap_cons] at h
    obtain ⟨hb, hl⟩ := append_inj h (hlength b mem_cons_self)
    rw [forall_mem_cons]
    exact ⟨hb, ih (fun b' hb' => hlength b' (mem_cons_of_mem b hb')) hl⟩

/-- The separators take one place less than there are pieces. -/
theorem length_intercalate_singleton (sep : α) {pieces : List (List α)} (hne : pieces ≠ []) :
    ([sep].intercalate pieces).length + 1 = (pieces.map fun piece => piece.length + 1).sum := by
  rw [← dropLast_flatMap_append_singleton, List.length_dropLast]
  cases pieces with
  | nil => exact absurd rfl hne
  | cons piece pieces =>
    simp
    omega

/-! ## Counting loops -/

/-- The integers `first`, `first + step`, `first + 2 * step`, ... below `stop`,
    for a positive `step`. -/
def stride (first stop step : Int) : List Int :=
  (range ((stop - first + step - 1) / step).toNat).map fun i : Nat => first + i * step

/-- What a counting loop visits: the numbers in range with the right remainder. -/
theorem mem_stride {first stop step x : Int} (hstep : 0 < step) :
    x ∈ stride first stop step ↔ first ≤ x ∧ x < stop ∧ (x - first) % step = 0 := by
  -- the number of iterations is `⌈(stop - first) / step⌉`
  have hceil (i : Nat) : i < ((stop - first + step - 1) / step).toNat ↔
      first + i * step < stop := by
    rw [Int.lt_toNat, ← Int.add_one_le_iff, Int.le_ediv_iff_mul_le hstep, Int.add_mul]
    omega
  simp only [stride, mem_map, mem_range, hceil]
  constructor
  · rintro ⟨i, hi, rfl⟩
    have hpos : 0 ≤ (i : Int) * step := Int.mul_nonneg (by omega) (by omega)
    refine ⟨by omega, hi, ?_⟩
    rw [show first + (i : Int) * step - first = i * step by omega]
    exact Int.mul_emod_left _ _
  · rintro ⟨hle, hlt, hmod⟩
    have hdiv : (x - first) / step * step = x - first :=
      Int.ediv_mul_cancel (Int.dvd_of_emod_eq_zero hmod)
    have hnonneg : 0 ≤ (x - first) / step := Int.ediv_nonneg (by omega) (by omega)
    refine ⟨((x - first) / step).toNat, ?_, ?_⟩ <;>
      rw [Int.toNat_of_nonneg hnonneg, hdiv] <;> omega

/-- A counting loop visits no number twice. -/
theorem nodup_stride {first stop step : Int} (hstep : 0 < step) :
    (stride first stop step).Nodup := by
  refine Nodup.map ?_ nodup_range
  intro i j hij
  have hmul : (i : Int) * step = j * step := Int.add_left_cancel hij
  exact Int.ofNat_inj.mp (Int.eq_of_mul_eq_mul_right (by omega) hmul)

/-- An empty range is not entered. -/
theorem stride_eq_nil {first stop step : Int} (hstep : 0 < step) (h : stop ≤ first) :
    stride first stop step = [] := by
  rw [eq_nil_iff_forall_not_mem]
  intro x hx
  have := (mem_stride hstep).mp hx
  omega

/-- A stride by one takes every number from the first up to the stop. -/
theorem length_stride_one (first stop : Int) :
    (stride first stop 1).length = (stop - first).toNat := by
  rw [stride, length_map, length_range, Int.ediv_one]
  omega

/-- `n` loops that start at `0`, ..., `n - 1` with step `n` share out the range
    below `stop`: together they visit each number exactly once. -/
theorem flatMap_stride_perm {n : Nat} (hn : 0 < n) (stop : Int) :
    ((range n).flatMap fun k : Nat => stride k stop n).Perm (stride 0 stop 1) := by
  have hn' : (0 : Int) < n := by omega
  refine (perm_ext_iff_of_nodup ?_ (nodup_stride Int.one_pos)).mpr ?_
  · refine nodup_flatMap.mpr ⟨fun k _ => nodup_stride hn', ?_⟩
    -- two loops that met would start at the same remainder modulo `n`
    apply nodup_range.imp_of_mem
    intro i j hi hj hij x hxi hxj
    rw [mem_range] at hi hj
    obtain ⟨_, _, h₁⟩ := (mem_stride hn').mp hxi
    obtain ⟨_, _, h₂⟩ := (mem_stride hn').mp hxj
    have hmod : (i : Int) % n = j % n :=
      (Int.emod_eq_emod_iff_emod_sub_eq_zero.mpr h₁).symm.trans
        (Int.emod_eq_emod_iff_emod_sub_eq_zero.mpr h₂)
    rw [Int.emod_eq_of_lt (by omega) (by omega), Int.emod_eq_of_lt (by omega) (by omega)] at hmod
    exact hij (Int.ofNat_inj.mp hmod)
  · intro x
    simp only [mem_flatMap, mem_range, mem_stride hn', mem_stride Int.one_pos]
    constructor
    · rintro ⟨k, hk, h₁, h₂, _⟩
      exact ⟨by omega, h₂, Int.emod_one _⟩
    · rintro ⟨h₁, h₂, _⟩
      have hlt : x % n < n := Int.emod_lt_of_pos x hn'
      have hge : 0 ≤ x % n := Int.emod_nonneg x (by omega)
      have hle : x % n ≤ x := by
        have hmul : 0 ≤ n * (x / n) := Int.mul_nonneg (by omega) (Int.ediv_nonneg h₁ (by omega))
        have := Int.mul_ediv_add_emod x n
        omega
      refine ⟨(x % n).toNat, by omega, ?_, h₂, ?_⟩
      · rw [Int.toNat_of_nonneg hge]; exact hle
      · rw [Int.toNat_of_nonneg hge, Int.sub_emod, Int.emod_emod_of_dvd _ (Int.dvd_refl _),
          Int.sub_self, Int.zero_emod]

end List
