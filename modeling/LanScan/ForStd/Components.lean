import LanScan.ForStd.List
import LanScan.ForStd.Lts

/-!
# Systems of components

A system whose state holds a list of components.  Components are started in the course of
a run, and a step of the system is a step of at most one of them.  What holds of a fresh
component and is kept by its own steps then holds of every component in every run.

## Key results

- `Evolves.forall_mem`: one step of the system
- `StepMeets`: a condition on the steps of the components, as one on the steps of the system
- `Lts.forall_component_of_run`: a whole run
-/

universe u v w

/-- The components after a step: as they were, with a fresh one, or with one that took a
    step. -/
inductive Evolves {γ : Type w} (Fresh : γ → Prop) (R : γ → γ → Prop) (cs : List γ) : List γ → Prop
  | same : Evolves Fresh R cs cs
  | start {c : γ} (hfresh : Fresh c) : Evolves Fresh R cs (cs ++ [c])
  | move {i : Nat} {c c' : γ} (hi : cs[i]? = some c) (hstep : R c c') :
      Evolves Fresh R cs (cs.set i c')

variable {γ : Type w} {Fresh : γ → Prop} {R : γ → γ → Prop} {P : γ → Prop}

/-- What holds of fresh components and is kept by their steps stays true of all. -/
theorem Evolves.forall_mem {cs cs' : List γ} (h : Evolves Fresh R cs cs')
    (hfresh : ∀ c, Fresh c → P c) (hstep : ∀ c c', P c → R c c' → P c')
    (hall : ∀ c ∈ cs, P c) : ∀ c ∈ cs', P c := by
  cases h with
  | same => exact hall
  -- A started component is fresh; the others are the ones that held before.
  | start hstart =>
    intro c hc
    rcases List.mem_append.mp hc with hc | hc
    · exact hall c hc
    · rw [List.mem_singleton.mp hc]
      exact hfresh _ hstart
  -- Only the moved component changes, and its own step keeps the property.
  | move hi hmove =>
    exact List.forall_mem_set hall (hstep _ _ (hall _ (List.mem_of_getElem? hi)) hmove)

section StepMeets

variable {σ : Type u} {ℓ : Type v} {κ : Type u}

/-- A step of the system is a step of no component, or one that meets `c`: where it is a step of
    one, `label` says of which, and by which label. -/
def StepMeets (components : σ → List γ) (label : σ → ℓ → Option (Nat × κ)) (c : γ → κ → Prop)
    (s : σ) (l : ℓ) : Prop :=
  ∀ move ∈ label s l, ∀ a ∈ (components s)[move.1]?, c a move.2

instance (components : σ → List γ) (label : σ → ℓ → Option (Nat × κ)) (c : γ → κ → Prop)
    [∀ a k, Decidable (c a k)] (s : σ) (l : ℓ) : Decidable (StepMeets components label c s l) :=
  inferInstanceAs (Decidable (∀ move ∈ label s l, ∀ a ∈ (components s)[move.1]?, c a move.2))

/-- What a condition on the steps of components says of a step of component `i`. -/
theorem StepMeets.of_label {components : σ → List γ} {label : σ → ℓ → Option (Nat × κ)}
    {c : γ → κ → Prop} {s : σ} {l : ℓ} (h : StepMeets components label c s l) {i : Nat} {k : κ}
    {a : γ} (hlabel : label s l = some (i, k)) (hi : (components s)[i]? = some a) : c a k :=
  h (i, k) hlabel a hi

end StepMeets

namespace Lts

variable {σ : Type u} {ℓ : Type v} (M : Lts σ ℓ) (c : σ → ℓ → Prop) [∀ s l, Decidable (c s l)]

/-- The components of a system that is restricted to the steps with `c` and whose own
    invariant is `I`. -/
theorem forall_component_of_run (I : σ → Prop) (components : σ → List γ)
    (hkeep : ∀ s l s', I s → c s l → M.step s l = some s' →
      I s' ∧ Evolves Fresh R (components s) (components s'))
    (hfresh : ∀ a, Fresh a → P a) (hstep : ∀ a a', P a → R a a' → P a') {s s' : σ} {ls : List ℓ}
    (hs : I s) (hall : ∀ a ∈ components s, P a) (h : (M.restrict c).run s ls = some s') :
    ∀ a ∈ components s', P a := by
  refine (M.run_restrict_invariant c (fun t => I t ∧ ∀ a ∈ components t, P a) ?_ ⟨hs, hall⟩ h).2
  intro t l t' ht hc hl
  obtain ⟨hI, hevolves⟩ := hkeep t l t' ht.1 hc hl
  exact ⟨hI, hevolves.forall_mem hfresh hstep ht.2⟩

end Lts
