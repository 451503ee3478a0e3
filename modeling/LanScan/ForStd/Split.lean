import Mathlib.Data.List.Basic

/-!
# Splitting lists

`splitRuns p` cuts a list at the runs of elements that satisfy `p`, and `lines cr lf`
cuts it after each line terminator.

Key results:
- `splitRuns_append_flatMap`: words joined by gaps are read back
- `lines_flatMap`: lines that are ended one by one are read back
-/

namespace List

universe u

variable {α : Type u}

/-! ## Splitting at runs of separators -/

/-- `splitRuns`, with a flag that says whether the last element was a separator. -/
def splitRunsFrom (p : α → Bool) : Bool → List α → List (List α)
  | _, [] => [[]]
  | inRun, c :: cs =>
    if p c then
      if inRun then splitRunsFrom p true cs else [] :: splitRunsFrom p true cs
    else (splitRunsFrom p false cs).modifyHead (c :: ·)

/-- The pieces of a list between its maximal runs of separators.  A run at either
    end has an empty piece beside it. -/
def splitRuns (p : α → Bool) (cs : List α) : List (List α) := splitRunsFrom p false cs

/-- A word: not empty, and without separators. -/
structure IsWord (p : α → Bool) (t : List α) : Prop where
  ne_nil : t ≠ []
  not_sep : ∀ c ∈ t, p c = false

instance (p : α → Bool) (t : List α) : Decidable (IsWord p t) :=
  decidable_of_iff (t ≠ [] ∧ ∀ c ∈ t, p c = false) ⟨fun h => ⟨h.1, h.2⟩, fun h => ⟨h.1, h.2⟩⟩

/-- A gap: not empty, and only separators. -/
structure IsGap (p : α → Bool) (g : List α) : Prop where
  ne_nil : g ≠ []
  sep : ∀ c ∈ g, p c = true

instance (p : α → Bool) (g : List α) : Decidable (IsGap p g) :=
  decidable_of_iff (g ≠ [] ∧ ∀ c ∈ g, p c = true) ⟨fun h => ⟨h.1, h.2⟩, fun h => ⟨h.1, h.2⟩⟩

variable {p : α → Bool}

/-- Elements that are no separators go to the piece in front. -/
theorem splitRunsFrom_append_of_not_sep {t : List α} (ht : ∀ c ∈ t, p c = false) (cs : List α) :
    splitRunsFrom p false (t ++ cs) = (splitRunsFrom p false cs).modifyHead (t ++ ·) := by
  induction t with
  | nil =>
    simp only [nil_append]
    exact (congrFun modifyHead_id _).symm
  | cons c t ih =>
    -- No character of `t` separates, so all of it goes to the first piece.
    have hc : p c = false := ht c mem_cons_self
    have ih' := ih fun x hx => ht x (mem_cons_of_mem c hx)
    simp only [cons_append, splitRunsFrom, hc, Bool.false_eq_true, if_false, ih',
      modifyHead_modifyHead]
    rfl

/-- A word is read the same way after a separator. -/
theorem splitRunsFrom_true_append {t : List α} (ht : IsWord p t) (cs : List α) :
    splitRunsFrom p true (t ++ cs) = splitRunsFrom p false (t ++ cs) := by
  cases t with
  | nil => exact absurd rfl ht.ne_nil
  | cons c t =>
    have hc : p c = false := ht.not_sep c mem_cons_self
    simp [splitRunsFrom, hc]

/-- The rest of a run of separators is skipped. -/
theorem splitRunsFrom_true_append_of_sep {g : List α} (hg : ∀ c ∈ g, p c = true) (cs : List α) :
    splitRunsFrom p true (g ++ cs) = splitRunsFrom p true cs := by
  induction g with
  | nil => rfl
  | cons c g ih =>
    have hc : p c = true := hg c mem_cons_self
    simp only [cons_append, splitRunsFrom, hc, if_true]
    exact ih fun x hx => hg x (mem_cons_of_mem c hx)

/-- A gap ends a piece. -/
theorem splitRunsFrom_false_append_gap {g : List α} (hg : IsGap p g) (cs : List α) :
    splitRunsFrom p false (g ++ cs) = [] :: splitRunsFrom p true cs := by
  cases g with
  | nil => exact absurd rfl hg.ne_nil
  | cons c g =>
    have hc : p c = true := hg.sep c mem_cons_self
    simp only [cons_append, splitRunsFrom, hc, if_true, Bool.false_eq_true, if_false]
    rw [splitRunsFrom_true_append_of_sep fun x hx => hg.sep x (mem_cons_of_mem c hx)]

/-- A list without separators is one piece. -/
theorem splitRuns_of_not_sep {t : List α} (ht : ∀ c ∈ t, p c = false) : splitRuns p t = [t] := by
  have h := splitRunsFrom_append_of_not_sep ht []
  rw [append_nil] at h
  simp [splitRuns, h, splitRunsFrom]

/-- A piece, a gap and a word: the piece is split off. -/
theorem splitRuns_append_gap {t g w : List α} (ht : ∀ c ∈ t, p c = false) (hg : IsGap p g)
    (hw : IsWord p w) (cs : List α) :
    splitRuns p (t ++ (g ++ (w ++ cs))) = t :: splitRuns p (w ++ cs) := by
  rw [splitRuns, splitRunsFrom_append_of_not_sep ht, splitRunsFrom_false_append_gap hg,
    splitRunsFrom_true_append hw, modifyHead_cons, append_nil, splitRuns]

/-- Splitting finds the words that were joined, whatever the gaps between them. -/
theorem splitRuns_append_flatMap {t : List α} (ht : ∀ c ∈ t, p c = false)
    {fields : List (List α × List α)}
    (hfields : ∀ field ∈ fields, IsGap p field.1 ∧ IsWord p field.2) :
    splitRuns p (t ++ fields.flatMap fun field => field.1 ++ field.2) =
      t :: fields.map Prod.snd := by
  induction fields generalizing t with
  | nil => simpa using splitRuns_of_not_sep ht
  | cons field fields ih =>
    obtain ⟨hgap, hword⟩ := hfields field mem_cons_self
    rw [flatMap_cons, append_assoc, splitRuns_append_gap ht hgap hword,
      ih hword.not_sep fun f hf => hfields f (mem_cons_of_mem field hf), map_cons]

/-! ## Lines -/

variable [DecidableEq α]

/-- `lines`, with a flag that says whether the last element was a carriage return. -/
def linesFrom (cr lf : α) : Bool → List α → List (List α)
  | _, [] => []
  | afterCr, c :: cs =>
    if c = lf then
      if afterCr then linesFrom cr lf false cs else [] :: linesFrom cr lf false cs
    else if c = cr then [] :: linesFrom cr lf true cs
    else
      match linesFrom cr lf false cs with
      | [] => [[c]]
      | line :: rest => (c :: line) :: rest

/-- The lines of a text, each ended by `lf`, by `cr` or by both; the last one need
    not be ended. -/
def lines (cr lf : α) (cs : List α) : List (List α) := linesFrom cr lf false cs

variable {cr lf : α}

/-- A line is read up to its terminator. -/
theorem lines_append_lf {line : List α} (hcr : cr ∉ line) (hlf : lf ∉ line) (cs : List α) :
    lines cr lf (line ++ lf :: cs) = line :: lines cr lf cs := by
  induction line with
  | nil => simp [lines, linesFrom]
  | cons c line ih =>
    have ih' := ih (fun h => hcr (mem_cons_of_mem c h)) (fun h => hlf (mem_cons_of_mem c h))
    have hcr' : c ≠ cr := fun h => hcr (h ▸ mem_cons_self)
    have hlf' : c ≠ lf := fun h => hlf (h ▸ mem_cons_self)
    simp only [lines] at ih' ⊢
    simp only [cons_append, linesFrom, hcr', hlf', if_false, ih']

/-- Lines without terminators, each ended by `lf`, are read back. -/
theorem lines_flatMap {ls : List (List α)} (hls : ∀ line ∈ ls, cr ∉ line ∧ lf ∉ line) :
    lines cr lf (ls.flatMap fun line => line ++ [lf]) = ls := by
  induction ls with
  | nil => rfl
  | cons line ls ih =>
    obtain ⟨hcr, hlf⟩ := hls line mem_cons_self
    rw [flatMap_cons, append_assoc, singleton_append, lines_append_lf hcr hlf,
      ih fun l hl => hls l (mem_cons_of_mem line hl)]

end List
