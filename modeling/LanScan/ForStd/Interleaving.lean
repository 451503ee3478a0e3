import Mathlib.Data.List.GetD

/-!
# Interleavings

A log of numbered parties interleaves their lists when it holds the list of every party
in its order.  No party outside of the list of lists is in the log.

Key results:
- `exists_interleaves`: there is such a log
- `forall_partOf_iff`: what holds for the parties of all logs
-/

namespace List

universe u

variable {α : Type u} {parts : List (List α)} {n : Nat}

/-- The entries of party `k`. -/
def partOf (k : Nat) (log : List (Nat × α)) : List α :=
  log.filterMap fun entry => if entry.1 = k then some entry.2 else none

/-- The log holds the lists of all parties, each in its order. -/
def Interleaves (parts : List (List α)) (log : List (Nat × α)) : Prop :=
  ∀ k, partOf k log = parts.getD k []

/-- The part of two logs is the parts of each. -/
@[simp] theorem partOf_append (k : Nat) (log log' : List (Nat × α)) :
    partOf k (log ++ log') = partOf k log ++ partOf k log' := filterMap_append ..

/-- A list that one party has done. -/
theorem partOf_map (k j : Nat) (part : List α) :
    partOf k (part.map fun a => (j, a)) = if j = k then part else [] := by
  rw [partOf, filterMap_map]
  show part.filterMap (fun a => if j = k then some a else none) = _
  by_cases h : j = k
  · simp [h]
  · simp [h]

/-- The parties may act one after the other. -/
theorem exists_interleaves (parts : List (List α)) : ∃ log, Interleaves parts log := by
  -- a log of the first lists, and of the others from the number `n` on
  have hlog (n : Nat) : ∃ log : List (Nat × α), ∀ k,
      partOf k log = if n ≤ k then parts.getD (k - n) [] else [] := by
    induction parts generalizing n with
    | nil => exact ⟨[], fun k => by simp [partOf]⟩
    | cons part parts ih =>
      obtain ⟨log, hrest⟩ := ih (n + 1)
      refine ⟨(part.map fun a => (n, a)) ++ log, fun k => ?_⟩
      rw [partOf_append, partOf_map, hrest]
      rcases Nat.lt_trichotomy n k with hlt | rfl | hgt
      · obtain ⟨d, rfl⟩ := Nat.exists_eq_add_of_lt hlt
        rw [if_neg (by omega), if_pos (by omega), if_pos (by omega), nil_append,
          show n + d + 1 - n = d + 1 by omega, show n + d + 1 - (n + 1) = d by omega]
        rfl
      · rw [if_pos rfl, if_neg (by omega), if_pos (Nat.le_refl n), Nat.sub_self, append_nil]
        rfl
      · rw [if_neg (by omega), if_neg (by omega), if_neg (by omega), append_nil]
  obtain ⟨log, h⟩ := hlog 0
  exact ⟨log, fun k => by simpa using h k⟩

/-- The log of every party is its list. -/
theorem Interleaves.mem_parts {log : List (Nat × α)} (h : Interleaves parts log) (k : Nat) :
    partOf k log ∈ parts ∨ partOf k log = [] := by
  rw [h k]
  by_cases hk : k < parts.length
  · rw [getD_eq_getElem parts [] hk]
    exact .inl (getElem_mem hk)
  · exact .inr (getD_eq_default parts [] (Nat.le_of_not_lt hk))

/-- What holds for every party in the log holds for every list. -/
theorem forall_partOf_iff (parts : List (List α)) {p : List α → Prop} (hnil : p []) :
    (∀ log, Interleaves parts log → ∀ k, p (partOf k log)) ↔ ∀ part ∈ parts, p part := by
  constructor
  · intro h part hmem
    -- Some interleaving exists, and every part shows up in it at its own index.
    obtain ⟨log, hlog⟩ := exists_interleaves parts
    obtain ⟨k, hk, rfl⟩ := getElem_of_mem hmem
    have hpart := h log hlog k
    rwa [hlog k, getD_eq_getElem parts [] hk] at hpart
  · intro h log hlog k
    -- An index past the last part shows the empty log.
    rcases hlog.mem_parts k with hmem | hempty
    · exact h _ hmem
    · rwa [hempty]

end List
