import LanScan.ForStd.Lts
import Mathlib.Algebra.BigOperators.Intervals
import Mathlib.Algebra.Order.BigOperators.Group.Finset

/-!
# Counting the steps of a run

How many steps of a run are of one kind.  The case in mind is a party that checks a flag
and acts later: once the flag is set nobody gets past the check any more, and a party that
is past it acts at most once.

## Key results

- `eq_add_stepCount`: a log of the steps
- `stepCount_le_one`: one party acts at most once
- `stepCount_le_sum`: the steps of all parties
-/

universe u v

namespace Lts

variable {σ : Type u} {ℓ : Type v} (M : Lts σ ℓ)

/-- The number of steps of a run that meet `p`. -/
def stepCount (p : σ → ℓ → Bool) : σ → List ℓ → Nat
  | _, [] => 0
  | s, l :: ls => (p s l).toNat + ((M.step s l).elim 0 fun s' => stepCount p s' ls)

variable {M} {p : σ → ℓ → Bool} {I : σ → Prop}

/-- The first step is counted if it is one of them. -/
theorem stepCount_cons {s t : σ} {l : ℓ} {ls : List ℓ} (h : M.step s l = some t) :
    M.stepCount p s (l :: ls) = (p s l).toNat + M.stepCount p t ls := by
  rw [stepCount, h]
  rfl

/-- A log that grows by one entry with each step `p` counts these steps. -/
theorem eq_add_stepCount (log : σ → Nat)
    (hlog : ∀ s l s', M.step s l = some s' → log s' = log s + (p s l).toNat)
    {s s' : σ} {ls : List ℓ} (h : M.run s ls = some s') :
    log s' = log s + M.stepCount p s ls := by
  induction ls generalizing s with
  | nil =>
    cases h
    rfl
  | cons l ls ih =>
    obtain ⟨t, ht, hrun⟩ := M.run_cons_eq_some.mp h
    rw [ih hrun, hlog s l t ht, stepCount_cons ht, Nat.add_assoc]

/-- Let `A` say that the party is past its check: no step leads into `A`, the step `p` needs
    `A` and leads out of it.  Then there is at most one step `p`, and none without `A`. -/
theorem stepCount_le_one {A : σ → Prop}
    (hinv : ∀ s l s', I s → M.step s l = some s' → I s')
    (hacts : ∀ s l, p s l = true → A s)
    (hpast : ∀ s l s', I s → M.step s l = some s' → A s' → A s ∧ p s l = false)
    {s s' : σ} {ls : List ℓ} (hs : I s) (h : M.run s ls = some s') :
    M.stepCount p s ls ≤ 1 ∧ (¬ A s → M.stepCount p s ls = 0) := by
  induction ls generalizing s with
  | nil => exact ⟨Nat.zero_le 1, fun _ => rfl⟩
  | cons l ls ih =>
    obtain ⟨t, ht, hrun⟩ := M.run_cons_eq_some.mp h
    obtain ⟨hone, hzero⟩ := ih (hinv s l t hs ht) hrun
    rw [stepCount_cons ht]
    cases hp : p s l with
    | true =>
      -- the step leads out of `A`, so no other one follows
      have hA : ¬ A t := by
        intro hA
        rw [(hpast s l t hs ht hA).2] at hp
        exact nomatch hp
      rw [hzero hA]
      exact ⟨Nat.le_refl 1, fun hnot => absurd (hacts s l hp) hnot⟩
    | false =>
      rw [Bool.toNat_false, Nat.zero_add]
      exact ⟨hone, fun hnot => hzero fun hA => hnot (hpast s l t hs ht hA).1⟩

/-- If every step `p` is one of `n` parties there are not more of them than the parties take
    in sum. -/
theorem stepCount_le_sum {n : Nat} {q : Nat → σ → ℓ → Bool}
    (hinv : ∀ s l s', I s → M.step s l = some s' → I s')
    (hparty : ∀ s l s', I s → M.step s l = some s' → p s l = true → ∃ k < n, q k s l = true)
    {s s' : σ} {ls : List ℓ} (hs : I s) (h : M.run s ls = some s') :
    M.stepCount p s ls ≤ ∑ k ∈ Finset.range n, M.stepCount (q k) s ls := by
  induction ls generalizing s with
  | nil => exact Nat.zero_le _
  | cons l ls ih =>
    obtain ⟨t, ht, hrun⟩ := M.run_cons_eq_some.mp h
    -- each step that is counted is a step of some party
    have hstep : (p s l).toNat ≤ ∑ k ∈ Finset.range n, (q k s l).toNat := by
      cases hp : p s l with
      | false => exact Nat.zero_le _
      | true =>
        obtain ⟨k, hk, hq⟩ := hparty s l t hs ht hp
        calc 1 = (q k s l).toNat := by rw [hq]; rfl
          _ ≤ ∑ k ∈ Finset.range n, (q k s l).toNat :=
            Finset.single_le_sum (f := fun k => (q k s l).toNat) (fun _ _ => Nat.zero_le _)
              (Finset.mem_range.mpr hk)
    calc M.stepCount p s (l :: ls)
        = (p s l).toNat + M.stepCount p t ls := stepCount_cons ht
      _ ≤ ∑ k ∈ Finset.range n, (q k s l).toNat +
          ∑ k ∈ Finset.range n, M.stepCount (q k) t ls :=
        Nat.add_le_add hstep (ih (hinv s l t hs ht) hrun)
      _ = ∑ k ∈ Finset.range n, M.stepCount (q k) s (l :: ls) := by
        rw [← Finset.sum_add_distrib]
        exact Finset.sum_congr rfl fun k _ => (stepCount_cons ht).symm

/-- Parties that act at most once each act at most `n` times. -/
theorem stepCount_le_of_le_one {n : Nat} {q : Nat → σ → ℓ → Bool}
    (hinv : ∀ s l s', I s → M.step s l = some s' → I s')
    (hparty : ∀ s l s', I s → M.step s l = some s' → p s l = true → ∃ k < n, q k s l = true)
    {s s' : σ} {ls : List ℓ} (hs : I s) (h : M.run s ls = some s')
    (hone : ∀ k < n, M.stepCount (q k) s ls ≤ 1) : M.stepCount p s ls ≤ n := by
  calc M.stepCount p s ls
      ≤ ∑ k ∈ Finset.range n, M.stepCount (q k) s ls := stepCount_le_sum hinv hparty hs h
    _ ≤ ∑ _k ∈ Finset.range n, 1 :=
      Finset.sum_le_sum fun k hk => hone k (Finset.mem_range.mp hk)
    _ = n := by rw [Finset.sum_const_nat fun _ _ => rfl, Finset.card_range, Nat.mul_one]

end Lts
