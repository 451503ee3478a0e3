import LanScan.ForStd.Buffer
import Mathlib.Algebra.GroupWithZero.Nat

/-!
# Length-prefixed labels

A sequence of labels as bytes, each label behind its length, and the walk that reads
it from a buffer: label by label, up to a zero byte or to a given position.

Key results:
- `labelsAt_encodeLabels`: the walk finds the labels that were written
- `encodeLabels_injective`: so the bytes determine the labels
- `LabelsAt.congr`: labels that end before `stop` depend on nothing behind it
- `LabelsAt.set_of_overrun`: the last byte of a label that does not may be any other
-/

/-- The bytes of a label: its length and its content. -/
def encodeLabel (label : List UInt8) : List UInt8 := UInt8.ofNat label.length :: label

/-- The bytes of a sequence of labels. -/
def encodeLabels (labels : List (List UInt8)) : List UInt8 := labels.flatMap encodeLabel

/-- Walking through `data` from position `i` on finds `labels`, each whole, before it
    meets a zero byte or the position `stop`. -/
inductive LabelsAt (data : List UInt8) (stop : Nat) : Nat → List (List UInt8) → Prop
  | stop {i} (hstop : stop ≤ i) : LabelsAt data stop i []
  | zero {i} (hlt : i < stop) (hzero : data[i]? = some 0) : LabelsAt data stop i []
  | label {i len label labels} (hlt : i < stop) (hlen : data[i]? = some len) (hne : len ≠ 0)
      (hlabel : (data.drop (i + 1)).take len.toNat = label) (hwhole : label.length = len.toNat)
      (hrest : LabelsAt data stop (i + 1 + len.toNat) labels) :
      LabelsAt data stop i (label :: labels)

section Walk

variable {data : List UInt8} {stop i : Nat} {labels : List (List UInt8)}

/-- A walk that finds a label has not yet come to its end. -/
theorem LabelsAt.lt_stop (h : LabelsAt data stop i labels) (hne : labels ≠ []) : i < stop := by
  cases h with
  | stop | zero => exact absurd rfl hne
  | label hlt => exact hlt

/-- The walk is determined by the buffer. -/
theorem LabelsAt.unique {labels' : List (List UInt8)} (h : LabelsAt data stop i labels)
    (h' : LabelsAt data stop i labels') : labels = labels' := by
  induction h generalizing labels' with
  | stop hstop =>
    cases h' with
    -- both walks end where the data ends
    | stop | zero => rfl
    | label hlt => omega
  | zero hlt hzero =>
    cases h' with
    | stop | zero => rfl
    | label _ hlen hne =>
      rw [hzero, Option.some.injEq] at hlen
      exact absurd hlen.symm hne
  | label hlt hlen hne hlabel _ _ ih =>
    cases h' with
    | stop hstop => omega
    | zero _ hzero =>
      rw [hlen, Option.some.injEq] at hzero
      exact absurd hzero hne
    | label _ hlen' _ hlabel' _ hrest' =>
      -- both read the same length, so the same label, and go on at the same place
      rw [hlen, Option.some.injEq] at hlen'
      subst hlen'
      rw [← hlabel, hlabel', ih hrest']

/-- A label is written with one byte for its length. -/
@[simp] theorem length_encodeLabel (label : List UInt8) :
    (encodeLabel label).length = label.length + 1 := rfl

/-- Labels are written one behind the other. -/
theorem encodeLabels_cons (label : List UInt8) (labels : List (List UInt8)) :
    encodeLabels (label :: labels) = encodeLabel label ++ encodeLabels labels := rfl

/-- The labels are written with one byte more for each of them. -/
theorem length_encodeLabels (labels : List (List UInt8)) :
    (encodeLabels labels).length = (labels.map fun label => label.length + 1).sum := by
  simp [encodeLabels, List.length_flatMap]

/-- Labels of 1 to 255 bytes that were written, with a zero byte behind them, are found. -/
theorem labelsAt_encodeLabels {before after : List UInt8}
    (hlabels : ∀ label ∈ labels, label ≠ [] ∧ label.length < 256)
    (hstop : before.length + (encodeLabels labels).length < stop) :
    LabelsAt (before ++ (encodeLabels labels ++ 0 :: after)) stop before.length labels := by
  induction labels generalizing before with
  | nil => exact .zero (by simpa [encodeLabels] using hstop) (by simp [encodeLabels])
  | cons label labels ih =>
    obtain ⟨hne, hlt⟩ := hlabels label List.mem_cons_self
    have hlen : (UInt8.ofNat label.length).toNat = label.length := by
      simp only [UInt8.toNat_ofNat']
      omega
    have hpos : 0 < label.length := List.length_pos_iff.mpr hne
    rw [encodeLabels_cons] at hstop ⊢
    simp only [List.length_append, length_encodeLabel] at hstop
    have hget : (before ++ (encodeLabel label ++ encodeLabels labels ++
        0 :: after))[before.length]? = some (UInt8.ofNat label.length) := by simp [encodeLabel]
    have hzero : UInt8.ofNat label.length ≠ 0 := by
      intro hzero
      rw [hzero] at hlen
      simp at hlen
      omega
    have hlabel : ((before ++ (encodeLabel label ++ encodeLabels labels ++ 0 :: after)).drop
        (before.length + 1)).take (UInt8.ofNat label.length).toNat = label := by
      have hbefore : before.drop (before.length + 1) = [] := List.drop_eq_nil_of_le (by omega)
      simp [encodeLabel, List.drop_append, hlen, hbefore]
    -- the walk goes on behind the first label
    have hrest := @ih (before ++ encodeLabel label)
      (fun l hl => hlabels l (List.mem_cons_of_mem label hl))
      (by simp only [List.length_append, length_encodeLabel]; omega)
    refine .label (by omega) hget hzero hlabel hlen.symm ?_
    rw [hlen]
    simpa [Nat.add_comm, Nat.add_left_comm, Nat.add_assoc] using hrest

/-- The bytes of labels, with a zero byte behind them, determine the labels. -/
theorem encodeLabels_injective {labels' : List (List UInt8)}
    (hlabels : ∀ label ∈ labels, label ≠ [] ∧ label.length < 256)
    (hlabels' : ∀ label ∈ labels', label ≠ [] ∧ label.length < 256)
    (h : encodeLabels labels ++ [0] = encodeLabels labels' ++ [0]) : labels = labels' := by
  have hlength : (encodeLabels labels').length = (encodeLabels labels).length := by
    have hcount := congrArg List.length h
    simp only [List.length_append, List.length_singleton] at hcount
    omega
  -- the walk over the bytes finds the labels that were written, and it can find no others
  have hwalk := @labelsAt_encodeLabels ((encodeLabels labels).length + 1) labels [] []
    hlabels (by simp)
  have hwalk' := @labelsAt_encodeLabels ((encodeLabels labels).length + 1) labels' [] []
    hlabels' (by simp [hlength])
  rw [List.nil_append, h] at hwalk
  exact hwalk.unique hwalk'

/-! ### Labels and the position `stop` -/

/-- Labels that end at `stop` at the latest are found in every buffer that agrees up to
    there. -/
theorem LabelsAt.congr {data' : List UInt8} (h : LabelsAt data stop i labels)
    (hagree : data.AgreeUpTo stop data') (hend : i + (encodeLabels labels).length ≤ stop) :
    LabelsAt data' stop i labels := by
  induction h with
  | stop hstop => exact .stop hstop
  | zero hlt hzero => exact .zero hlt ((hagree.getElem? hlt).symm.trans hzero)
  | @label i len label labels hlt hlen hne hlabel hwhole hrest ih =>
    simp only [encodeLabels_cons, List.length_append, length_encodeLabel] at hend
    have hlabel' : (data'.drop (i + 1)).take len.toNat = label :=
      (hagree.drop (by omega)).symm.trans hlabel
    exact .label hlt ((hagree.getElem? hlt).symm.trans hlen) hne hlabel' hwhole (ih (by omega))

/-- When the last label goes beyond `stop`, its last byte is not among the first `stop`
    ones, and whatever stands there is taken for it. -/
theorem LabelsAt.set_of_overrun (h : LabelsAt data stop i labels) (hi : i ≤ stop)
    (hend : stop < i + (encodeLabels labels).length) : ∃ front body b k,
    labels = front ++ [body ++ [b]] ∧ stop ≤ k ∧
      ∀ x, LabelsAt (data.set k x) stop i (front ++ [body ++ [x]]) := by
  induction h with
  | stop hstop =>
    simp only [encodeLabels, List.flatMap_nil, List.length_nil] at hend
    omega
  | zero hlt hzero =>
    simp only [encodeLabels, List.flatMap_nil, List.length_nil] at hend
    omega
  | @label i len label labels hlt hlen hne hlabel hwhole hrest ih =>
    simp only [encodeLabels_cons, List.length_append, length_encodeLabel] at hend
    by_cases hover : stop < i + 1 + len.toNat
    · -- this label is the last one
      have hlabels : labels = [] := by
        cases hrest with
        | stop | zero => rfl
        | label hlt' => omega
      have hne' : label ≠ [] := by
        rintro rfl
        exact hne (UInt8.toNat_inj.mp hwhole.symm)
      obtain ⟨body, b, rfl⟩ := (List.eq_nil_or_concat label).resolve_left hne'
      rw [List.concat_eq_append] at hlabel hwhole ⊢
      have hlength : len.toNat = body.length + 1 := by simpa using hwhole.symm
      refine ⟨[], body, b, i + 1 + body.length, by rw [hlabels]; rfl, by omega, fun x => ?_⟩
      have hlabel' : ((data.set (i + 1 + body.length) x).drop (i + 1)).take len.toNat =
          body ++ [x] := by
        rw [← List.set_drop, List.take_set, hlabel, List.set_append_right _ _ (Nat.le_refl _)]
        simp
      have hget := (List.agreeUpTo_set data
        (show i + 1 ≤ i + 1 + body.length by omega) x).getElem? (Nat.lt_succ_self i)
      exact .label hlt (hget.symm.trans hlen) hne hlabel' (by simp [hlength]) (.stop (by omega))
    · obtain ⟨front, body, b, k, rfl, hk, hset⟩ := ih (by omega) (by omega)
      refine ⟨label :: front, body, b, k, rfl, hk, fun x => ?_⟩
      have hagree := List.agreeUpTo_set data hk x
      have hlabel' : ((data.set k x).drop (i + 1)).take len.toNat = label :=
        (hagree.drop (by omega)).symm.trans hlabel
      exact .label hlt ((hagree.getElem? hlt).symm.trans hlen) hne hlabel' hwhole (hset x)

end Walk
