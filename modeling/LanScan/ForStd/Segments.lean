import LanScan.ForStd.List

/-!
# Texts as sequences of segments

A division of texts into segments of one or more elements, as Unicode divides them into
grapheme clusters: what a program with such texts takes for a suffix, and what it splits
at, are segments.

Key results:
- `dropSuffix_append`: a suffix of segments is one of elements, too
- `exists_firstPart`: the first part of a text that is split at a separator
- `head?_split`: what stands in front of the first separator is that part
-/

universe u

/-- Pieces of one element each are the elements. -/
theorem List.flatten_map_singleton {α : Type u} (xs : List α) : (xs.map ([·])).flatten = xs := by
  rw [← List.flatMap_def]
  exact List.flatMap_singleton' xs

/-- A way to divide texts into segments. -/
structure Segmentation (α : Type u) where
  segments : List α → List (List α)
  flatten_segments : ∀ text, (segments text).flatten = text
  ne_nil_of_mem : ∀ text, ∀ segment ∈ segments text, segment ≠ []
  /-- what stands between two boundaries is divided as it is in the whole text -/
  segments_flatten : ∀ text front back, segments text = front ++ back →
    segments front.flatten = front ∧ segments back.flatten = back

namespace Segmentation

variable {α : Type u} (g : Segmentation α) {text suffix : List α}

/-- Every element is a segment. -/
def singletons (α : Type u) : Segmentation α where
  segments text := text.map ([·])
  flatten_segments := List.flatten_map_singleton
  ne_nil_of_mem text segment h := by
    obtain ⟨x, -, rfl⟩ := List.mem_map.mp h
    exact List.cons_ne_nil x []
  segments_flatten text front back h := by
    obtain ⟨front', back', -, rfl, rfl⟩ := List.map_eq_append_iff.mp h
    rw [List.flatten_map_singleton, List.flatten_map_singleton]
    exact ⟨rfl, rfl⟩

/-- Only the empty text has no segments. -/
theorem segments_eq_nil_iff : g.segments text = [] ↔ text = [] := by
  constructor
  · intro h
    rw [← g.flatten_segments text, h, List.flatten_nil]
  · rintro rfl
    have hflatten := g.flatten_segments []
    -- A segment would be empty, since together they are the empty text.
    cases h : g.segments [] with
    | nil => rfl
    | cons segment rest =>
      rw [h, List.flatten_cons, List.append_eq_nil_iff] at hflatten
      exact absurd hflatten.1 (g.ne_nil_of_mem [] segment (h ▸ List.mem_cons_self))

/-! ## Suffixes -/

/-- The last segments of the text are those of `suffix`. -/
def HasSuffix (suffix text : List α) : Prop := g.segments suffix <:+ g.segments text

instance [DecidableEq α] (suffix text : List α) : Decidable (g.HasSuffix suffix text) :=
  inferInstanceAs (Decidable (_ <:+ _))

/-- The text without its last `n` segments. -/
def dropLastSegments (n : Nat) (text : List α) : List α :=
  ((g.segments text).take ((g.segments text).length - n)).flatten

/-- Dropping as many segments as a suffix has drops the suffix. -/
theorem dropSuffix_append (h : g.HasSuffix suffix text) :
    g.dropLastSegments (g.segments suffix).length text ++ suffix = text := by
  have happend := List.suffix_iff_eq_append.mp h
  calc g.dropLastSegments (g.segments suffix).length text ++ suffix
      = ((g.segments text).take ((g.segments text).length - (g.segments suffix).length) ++
          g.segments suffix).flatten := by
        rw [List.flatten_append, g.flatten_segments suffix, dropLastSegments]
    _ = text := by rw [happend, g.flatten_segments text]

/-! ## Parts between separators -/

/-- The parts of the text between the segments that are `sep`; empty ones are left out. -/
def split [DecidableEq α] (sep text : List α) : List (List α) :=
  (((g.segments text).splitOn sep).filter (· ≠ [])).map List.flatten

variable [DecidableEq α] {sep : List α}

/-- A sequence that is not all separators: a run of them, and the first part. -/
theorem exists_head_splitOn {segs : List (List α)} (h : ∃ s ∈ segs, s ≠ sep) :
    ∃ k front rest, segs = List.replicate k sep ++ (front ++ rest) ∧ front ≠ [] ∧ sep ∉ front ∧
      (rest = [] ∨ ∃ back, rest = sep :: back) ∧
      ((segs.splitOn sep).filter (· ≠ [])).head? = some front := by
  induction segs with
  | nil =>
    obtain ⟨s, hs, -⟩ := h
    exact absurd hs List.not_mem_nil
  | cons s segs ih =>
    by_cases hsep : s = sep
    · -- a leading separator has an empty part in front of it
      have hrest : ∃ s' ∈ segs, s' ≠ sep := by
        obtain ⟨s', hs', hne⟩ := h
        rcases List.mem_cons.mp hs' with rfl | hs'
        · exact absurd hsep hne
        · exact ⟨s', hs', hne⟩
      obtain ⟨k, front, rest, rfl, hne, hnotMem, hend, hhead⟩ := ih hrest
      refine ⟨k + 1, front, rest, by rw [hsep]; rfl, hne, hnotMem, hend, ?_⟩
      have hsplit := List.splitOn_append_cons_self_of_not_mem (List.not_mem_nil (a := sep))
        (List.replicate k sep ++ (front ++ rest))
      rw [List.nil_append] at hsplit
      rw [hsep, hsplit, List.filter_cons_of_neg (by simp)]
      exact hhead
    · by_cases hmem : sep ∈ segs
      · obtain ⟨front, back, rfl, hnotMem⟩ := List.eq_append_cons_of_mem hmem
        have hnotMem' : sep ∉ s :: front := by
          rw [List.mem_cons, not_or]
          exact ⟨fun heq => hsep heq.symm, hnotMem⟩
        refine ⟨0, s :: front, sep :: back, rfl, List.cons_ne_nil _ _, hnotMem',
          .inr ⟨back, rfl⟩, ?_⟩
        rw [← List.cons_append, List.splitOn_append_cons_self_of_not_mem hnotMem',
          List.filter_cons_of_pos (by simp)]
        rfl
      · have hnotMem' : sep ∉ s :: segs := by
          rw [List.mem_cons, not_or]
          exact ⟨fun heq => hsep heq.symm, hmem⟩
        refine ⟨0, s :: segs, [], by simp, List.cons_ne_nil _ _, hnotMem', .inl rfl, ?_⟩
        rw [List.splitOn_eq_singleton hnotMem', List.filter_cons_of_pos (by simp)]
        rfl

/-- The first part of a text that has a segment other than `sep`: it is divided as in the
    whole text, into segments other than `sep`. -/
theorem exists_firstPart (h : ∃ s ∈ g.segments text, s ≠ sep) :
    ∃ k front rest, g.segments text = List.replicate k sep ++ (front ++ rest) ∧
      (rest = [] ∨ ∃ back, rest = sep :: back) ∧ (g.split sep text).head? = some front.flatten ∧
      g.segments front.flatten = front ∧ front ≠ [] ∧ sep ∉ front := by
  obtain ⟨k, front, rest, hsegs, hne, hnotMem, hend, hhead⟩ := exists_head_splitOn h
  refine ⟨k, front, rest, hsegs, hend, ?_, ?_, hne, hnotMem⟩
  · rw [split, List.head?_map, hhead]
    rfl
  · have hback := (g.segments_flatten text _ _ hsegs).2
    exact (g.segments_flatten _ _ _ hback).1

/-- What stands in front of the first separator is the first part. -/
theorem head?_split {front back : List (List α)} (h : g.segments text = front ++ sep :: back)
    (hne : front ≠ []) (hsep : sep ∉ front) : (g.split sep text).head? = some front.flatten := by
  rw [split, h, List.splitOn_append_cons_self_of_not_mem hsep, List.filter_cons_of_pos (by simpa),
    List.map_cons]
  rfl

end Segmentation
