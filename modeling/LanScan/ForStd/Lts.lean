/-!
# Labelled transition systems with an executable step

A system is an initial state and a partial step function `step s l`, where
`none` means that label `l` is not enabled in `s`.  A schedule is a list of
labels, and `run` executes it, so "for every interleaving" is a quantifier over
schedules.

## Key results

- `run_invariant`: a property kept by every step is kept by every run
- `run_invariant_until`: a property that holds until a step breaks it, and what holds then
- `run_restrict_invariant`: the same for the steps that meet a condition
- `run_of_run_restrict`: a run whose steps all meet a condition is a run
- `run_restrict_or`: a run meets the condition, or ends with what a violation leads to
- `run_restrict_iff`: the runs that meet the condition are those in which a
  counter of the offending steps stays at zero
- `exists_run_terminal`: a measure that every step decreases gives a completed run
- `length_add_measure_le_of_run`: a measure that every step decreases bounds the length of runs
-/

universe u v

/-- A labelled transition system with a partial, executable step function. -/
structure Lts (σ : Type u) (ℓ : Type v) where
  init : σ
  step : σ → ℓ → Option σ

namespace Lts

variable {σ : Type u} {ℓ : Type v}

/-- Execute a schedule.  The result is `none` when some label is not enabled. -/
def run (M : Lts σ ℓ) : σ → List ℓ → Option σ
  | s, [] => some s
  | s, l :: ls => (M.step s l).bind fun s' => M.run s' ls

/-- The same system with only those steps whose state and label satisfy `c`. -/
def restrict (M : Lts σ ℓ) (c : σ → ℓ → Prop) [∀ s l, Decidable (c s l)] : Lts σ ℓ where
  init := M.init
  step s l := if c s l then M.step s l else none

/-- No label is enabled. -/
def Terminal (M : Lts σ ℓ) (s : σ) : Prop := ∀ l, M.step s l = none

variable (M : Lts σ ℓ)

/-! ## Runs -/

/-- No step leaves the state as it is. -/
@[simp] theorem run_nil (s : σ) : M.run s [] = some s := rfl

/-- A run takes its first step and goes on from there. -/
theorem run_cons (s : σ) (l : ℓ) (ls : List ℓ) :
    M.run s (l :: ls) = (M.step s l).bind fun s' => M.run s' ls := rfl

/-- A run of `l :: ls` is a step followed by a run of `ls`. -/
theorem run_cons_eq_some {s s' : σ} {l : ℓ} {ls : List ℓ} :
    M.run s (l :: ls) = some s' ↔ ∃ t, M.step s l = some t ∧ M.run t ls = some s' := by
  simp only [run_cons, Option.bind_eq_some_iff]

/-- Running a concatenation runs the parts one after the other. -/
theorem run_append (s : σ) (ls ks : List ℓ) :
    M.run s (ls ++ ks) = (M.run s ls).bind fun t => M.run t ks := by
  induction ls generalizing s with
  | nil => rfl
  | cons l ls ih =>
    simp only [List.cons_append, run_cons]
    cases M.step s l with
    | none => rfl
    | some t => exact ih t

/-- A property kept by every step is kept by every run. -/
theorem run_invariant (I : σ → Prop)
    (hstep : ∀ s l s', I s → M.step s l = some s' → I s') {s s' : σ} {ls : List ℓ}
    (hs : I s) (h : M.run s ls = some s') : I s' := by
  induction ls generalizing s with
  | nil => cases h; exact hs
  | cons l ls ih =>
    obtain ⟨t, ht, hrun⟩ := M.run_cons_eq_some.mp h
    exact ih (hstep s l t hs ht) hrun

/-- `I` is kept by the steps whose label meets `c`, and every other step leads from `I`
    to `J`, which all steps keep. -/
theorem run_invariant_until {c : ℓ → Prop} (I J : σ → Prop)
    (hkeep : ∀ s l s', I s → c l → M.step s l = some s' → I s')
    (hbreak : ∀ s l s', I s → ¬ c l → M.step s l = some s' → J s')
    (hafter : ∀ s l s', J s → M.step s l = some s' → J s') {s s' : σ} {ls : List ℓ}
    (hs : I s) (h : M.run s ls = some s') :
    (∀ l ∈ ls, c l) ∧ I s' ∨ (∃ l ∈ ls, ¬ c l) ∧ J s' := by
  induction ls generalizing s with
  | nil =>
    cases h
    exact .inl ⟨by simp, hs⟩
  | cons l ls ih =>
    obtain ⟨t, ht, hrun⟩ := M.run_cons_eq_some.mp h
    -- as long as the steps meet the condition `I` holds, from the first other one on `J`
    by_cases hc : c l
    · rcases ih (hkeep s l t hs hc ht) hrun with ⟨hall, hI⟩ | ⟨⟨k, hk, hbad⟩, hJ⟩
      · exact .inl ⟨List.forall_mem_cons.mpr ⟨hc, hall⟩, hI⟩
      · exact .inr ⟨⟨k, List.mem_cons_of_mem l hk, hbad⟩, hJ⟩
    · have hJ := M.run_invariant J hafter (hbreak s l t hs hc ht) hrun
      exact .inr ⟨⟨l, List.mem_cons_self, hc⟩, hJ⟩

/-! ## Restricted systems -/

section Restrict

variable (c : σ → ℓ → Prop) [∀ s l, Decidable (c s l)]

/-- A restricted system starts in the same state. -/
@[simp] theorem restrict_init : (M.restrict c).init = M.init := rfl

/-- A step of the restricted system is a step that meets the condition. -/
theorem restrict_step_eq_some {s s' : σ} {l : ℓ} :
    (M.restrict c).step s l = some s' ↔ c s l ∧ M.step s l = some s' := by
  simp only [restrict]
  split <;> simp_all

/-- A run of the restricted system is a run. -/
theorem run_of_run_restrict {s s' : σ} {ls : List ℓ}
    (h : (M.restrict c).run s ls = some s') : M.run s ls = some s' := by
  induction ls generalizing s with
  | nil => exact h
  | cons l ls ih =>
    obtain ⟨t, ht, hrun⟩ := (M.restrict c).run_cons_eq_some.mp h
    exact M.run_cons_eq_some.mpr ⟨t, ((M.restrict_step_eq_some c).mp ht).2, ih hrun⟩

/-- A property kept by every step that meets the condition is kept by every run of the
    restricted system. -/
theorem run_restrict_invariant (I : σ → Prop)
    (hstep : ∀ s l s', I s → c s l → M.step s l = some s' → I s') {s s' : σ} {ls : List ℓ}
    (hs : I s) (h : (M.restrict c).run s ls = some s') : I s' := by
  refine (M.restrict c).run_invariant I ?_ hs h
  intro t l t' ht hrestricted
  obtain ⟨hc, hl⟩ := (M.restrict_step_eq_some c).mp hrestricted
  exact hstep t l t' ht hc hl

/-- `I` is kept by the steps that meet the condition, and every other step leads from `I` to
    `J`, which all steps keep.  So a run is one of the restricted system, or ends in `J`. -/
theorem run_restrict_or (I J : σ → Prop)
    (hkeep : ∀ s l s', I s → c s l → M.step s l = some s' → I s')
    (hbreak : ∀ s l s', I s → ¬ c s l → M.step s l = some s' → J s')
    (hafter : ∀ s l s', J s → M.step s l = some s' → J s') {s s' : σ} {ls : List ℓ}
    (hs : I s) (h : M.run s ls = some s') :
    (M.restrict c).run s ls = some s' ∧ I s' ∨ (M.restrict c).run s ls = none ∧ J s' := by
  induction ls generalizing s with
  | nil =>
    cases h
    exact .inl ⟨rfl, hs⟩
  | cons l ls ih =>
    obtain ⟨t, ht, hrun⟩ := M.run_cons_eq_some.mp h
    by_cases hc : c s l
    -- the restricted system takes the step as well
    · have hstep : (M.restrict c).step s l = some t := (M.restrict_step_eq_some c).mpr ⟨hc, ht⟩
      rw [run_cons, hstep]
      exact ih (hkeep s l t hs hc ht) hrun
    -- it stops here, and the other one goes on with `J`
    · have hstep : (M.restrict c).step s l = none := if_neg hc
      rw [run_cons, hstep]
      exact .inr ⟨rfl, M.run_invariant J hafter (hbreak s l t hs hc ht) hrun⟩

/-- Let `I` be kept by every step.  A counter that, from states with `I`, grows on
    exactly the steps that violate `c` stays at its value on exactly the runs of
    the restricted system. -/
theorem run_restrict_iff (I : σ → Prop) (count : σ → Nat)
    (hstep : ∀ s l s', I s → M.step s l = some s' → I s')
    (hok : ∀ s l s', I s → M.step s l = some s' → c s l → count s' = count s)
    (hbad : ∀ s l s', I s → M.step s l = some s' → ¬ c s l → count s < count s')
    {s s' : σ} {ls : List ℓ} (hs : I s) (h : M.run s ls = some s') :
    count s' = count s ↔ (M.restrict c).run s ls = some s' := by
  have hkeep : ∀ t l t', I t ∧ count t = count s → c t l → M.step t l = some t' →
      I t' ∧ count t' = count s := by
    intro t l t' ht hc hl
    exact ⟨hstep t l t' ht.1 hl, (hok t l t' ht.1 hl hc).trans ht.2⟩
  have hbreak : ∀ t l t', I t ∧ count t = count s → ¬ c t l → M.step t l = some t' →
      I t' ∧ count s < count t' := by
    intro t l t' ht hc hl
    exact ⟨hstep t l t' ht.1 hl, ht.2 ▸ hbad t l t' ht.1 hl hc⟩
  -- the counter never decreases, so one violating step is never made up for
  have hafter : ∀ t l t', I t ∧ count s < count t → M.step t l = some t' →
      I t' ∧ count s < count t' := by
    intro t l t' ht hl
    refine ⟨hstep t l t' ht.1 hl, ?_⟩
    by_cases hc : c t l
    · rw [hok t l t' ht.1 hl hc]
      exact ht.2
    · exact Nat.lt_trans ht.2 (hbad t l t' ht.1 hl hc)
  rcases M.run_restrict_or c _ _ hkeep hbreak hafter ⟨hs, rfl⟩ h with
    ⟨hrestrict, -, heq⟩ | ⟨hnone, -, hlt⟩
  · exact ⟨fun _ => hrestrict, fun _ => heq⟩
  · rw [hnone]
    exact ⟨fun heq => absurd heq (Nat.ne_of_gt hlt), nofun⟩

end Restrict

/-! ## Termination -/

section Measure

variable {M} {μ : σ → Nat} (hμ : ∀ s l s', M.step s l = some s' → μ s' < μ s)
include hμ

/-- Every state has a run to a state in which nothing is enabled any more. -/
theorem exists_run_terminal (s : σ) : ∃ ls s', M.run s ls = some s' ∧ M.Terminal s' := by
  induction hn : μ s using Nat.strongRecOn generalizing s with
  | _ n ih =>
    by_cases hterm : M.Terminal s
    · exact ⟨[], s, rfl, hterm⟩
    · simp only [Terminal, Classical.not_forall] at hterm
      -- Some label is enabled; the state it leads to has a smaller measure.
      obtain ⟨l, hl⟩ := hterm
      obtain ⟨t, ht⟩ := Option.ne_none_iff_exists'.mp hl
      obtain ⟨ls, s', hrun, hs'⟩ := ih (μ t) (hn ▸ hμ s l t ht) t rfl
      exact ⟨l :: ls, s', M.run_cons_eq_some.mpr ⟨t, ht, hrun⟩, hs'⟩

end Measure

/-- From states with `I`, a measure that every step decreases bounds the length of a run. -/
theorem length_add_measure_le_of_run (I : σ → Prop) (μ : σ → Nat)
    (hstep : ∀ s l s', I s → M.step s l = some s' → I s' ∧ μ s' < μ s) {s s' : σ} {ls : List ℓ}
    (hs : I s) (h : M.run s ls = some s') : ls.length + μ s' ≤ μ s := by
  induction ls generalizing s with
  | nil => cases h; simp
  | cons l ls ih =>
    obtain ⟨t, ht, hrun⟩ := M.run_cons_eq_some.mp h
    obtain ⟨hI, hlt⟩ := hstep s l t hs ht
    have hle := ih hI hrun
    rw [List.length_cons]
    omega

end Lts
