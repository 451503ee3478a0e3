import Mathlib.Data.List.Basic

/-!
# Records that begin with their own length

Formats in which memory holds one record behind the other.  A record begins with a header
that gives its length, and is padded before the next one begins.  Programs read such
records in a loop with a pointer and the length that is left, which may become negative at
the last record when its padding is missing.

Key results:
- `induction`: what holds when the loop stops, and is handed back by each record, holds
- `pointers_take`: the loop depends on nothing behind the length
- `exists_drop_of_mem_pointers`: the pointers lead to records that lie inside
- `records_of_layout`, `layout_records`: the loop finds some records, with no remnant, exactly
  in their layouts
- `mem_records_iff`: of other bytes it finds the records that stand behind a layout
-/

universe u v

/-- A format of records. -/
structure RecordFormat (α : Type u) where
  /-- the length of the header -/
  header : Nat
  /-- the length that the header at the front of memory gives -/
  lengthOf : List α → Nat
  /-- a length with its padding -/
  padded : Nat → Nat
  header_pos : 0 < header
  lengthOf_take : ∀ mem, lengthOf (mem.take header) = lengthOf mem
  le_padded : ∀ n, n ≤ padded n

namespace RecordFormat

variable {α : Type u} (F : RecordFormat α) {mem : List α} {len : Int}

/-- The length field stands in the header. -/
theorem lengthOf_take_of_le {k : Nat} (h : F.header ≤ k) (mem : List α) :
    F.lengthOf (mem.take k) = F.lengthOf mem := by
  rw [← F.lengthOf_take (mem.take k), List.take_take, Nat.min_eq_left h, F.lengthOf_take]

/-- What stands behind the header does not change the length field. -/
theorem lengthOf_append {front : List α} (h : F.header ≤ front.length) (back : List α) :
    F.lengthOf (front ++ back) = F.lengthOf front := by
  rw [← F.lengthOf_take_of_le h, List.take_left]

/-! ## The loop -/

/-- The record at the front of memory lies inside of the next `len` bytes. -/
def Ok (mem : List α) (len : Int) : Prop :=
  F.header ≤ len ∧ F.header ≤ F.lengthOf mem ∧ F.lengthOf mem ≤ len

instance (mem : List α) (len : Int) : Decidable (F.Ok mem len) :=
  inferInstanceAs (Decidable (_ ∧ _ ∧ _))

/-- The pointer behind the record at the front. -/
def next (mem : List α) : List α := mem.drop (F.padded (F.lengthOf mem))

/-- The length that is left behind it. -/
def left (mem : List α) (len : Int) : Int := len - F.padded (F.lengthOf mem)

/-- Each record takes something off the length that is left. -/
theorem left_lt (h : F.Ok mem len) : F.left mem len < len := by
  have hlen := F.le_padded (F.lengthOf mem)
  have hheader := F.header_pos
  have hok := h.2.1
  rw [left]
  omega

/-- Where nothing is left there is no record. -/
theorem not_ok_of_nonpos (h : len ≤ 0) : ¬ F.Ok mem len := by
  intro hok
  have hheader := F.header_pos
  have hlen := hok.1
  omega

/-- A loop that has at least as many turns as there are elements comes to its end. -/
theorem toNat_left_le {fuel : Nat} (h : F.Ok mem len) (hfuel : len.toNat ≤ fuel + 1) :
    (F.left mem len).toNat ≤ fuel := by
  have hleft := F.left_lt h
  omega

/-- The length that is left does not lead out of memory. -/
theorem left_le_length_next (h : len ≤ mem.length) : F.left mem len ≤ (F.next mem).length := by
  rw [left, next, List.length_drop]
  omega

/-- What holds when the loop stops, and is handed back by each record, holds. -/
theorem induction {P : List α → Int → Prop}
    (ok : ∀ mem len, F.Ok mem len → P (F.next mem) (F.left mem len) → P mem len)
    (stop : ∀ mem len, ¬ F.Ok mem len → P mem len) (mem : List α) (len : Int) : P mem len := by
  -- the fuel is a bound on the length
  suffices h : ∀ fuel mem len, len.toNat ≤ fuel → P mem len from h _ mem len (Nat.le_refl _)
  intro fuel
  induction fuel with
  | zero =>
    intro mem len hfuel
    exact stop mem len (F.not_ok_of_nonpos (by omega))
  | succ fuel ih =>
    intro mem len hfuel
    by_cases hok : F.Ok mem len
    · exact ok mem len hok (ih _ _ (F.toNat_left_le hok hfuel))
    · exact stop mem len hok

/-- The pointers of the loop, and the length that is left at its end. -/
def split : Nat → List α → Int → List (List α) × Int
  | 0, _, len => ([], len)
  | fuel + 1, mem, len =>
    if F.Ok mem len then
      let (pointers, remnant) := split fuel (F.next mem) (F.left mem len)
      (mem :: pointers, remnant)
    else ([], len)

/-- The pointers to the records in the first `len` bytes of memory. -/
def pointers (mem : List α) (len : Int) : List (List α) := (F.split len.toNat mem len).1

/-- The length that is left behind these records. -/
def remnant (mem : List α) (len : Int) : Int := (F.split len.toNat mem len).2

/-- The record that a pointer leads to. -/
def recordAt (mem : List α) : List α := mem.take (F.lengthOf mem)

/-- The records in the first `len` bytes of memory. -/
def records (mem : List α) (len : Int) : List (List α) := (F.pointers mem len).map F.recordAt

/-- The loop ends where no record is. -/
theorem split_of_not_ok (h : ¬ F.Ok mem len) (fuel : Nat) : F.split fuel mem len = ([], len) := by
  cases fuel with
  | zero => rfl
  | succ fuel => exact if_neg h

/-- Any fuel from the length on finds the same records. -/
theorem split_eq {fuel : Nat} (hfuel : len.toNat ≤ fuel) :
    F.split fuel mem len = (F.pointers mem len, F.remnant mem len) := by
  -- the length that is left falls below both fuels at each step
  suffices h : ∀ fuel' fuel mem len, len.toNat ≤ fuel → len.toNat ≤ fuel' →
      F.split fuel mem len = F.split fuel' mem len from
    h _ fuel mem len hfuel (Nat.le_refl _)
  intro fuel'
  induction fuel' with
  | zero =>
    intro fuel mem len _ hfuel'
    have hstop : ¬ F.Ok mem len := F.not_ok_of_nonpos (by omega)
    rw [F.split_of_not_ok hstop, F.split_of_not_ok hstop]
  | succ fuel' ih =>
    intro fuel mem len hfuel hfuel'
    by_cases hok : F.Ok mem len
    · cases fuel with
      | zero => exact absurd hok (F.not_ok_of_nonpos (by omega))
      | succ fuel =>
        rw [split, if_pos hok, split, if_pos hok,
          ih fuel _ _ (F.toNat_left_le hok hfuel) (F.toNat_left_le hok hfuel')]
    · rw [F.split_of_not_ok hok, F.split_of_not_ok hok]

/-- Where the loop ends there are no pointers. -/
theorem pointers_of_not_ok (h : ¬ F.Ok mem len) : F.pointers mem len = [] := by
  rw [pointers, F.split_of_not_ok h]

/-- Where the loop ends the rest is the remnant. -/
theorem remnant_of_not_ok (h : ¬ F.Ok mem len) : F.remnant mem len = len := by
  rw [remnant, F.split_of_not_ok h]

/-- One turn of the loop. -/
theorem split_of_ok (h : F.Ok mem len) : F.split len.toNat mem len =
    (mem :: F.pointers (F.next mem) (F.left mem len), F.remnant (F.next mem) (F.left mem len)) := by
  obtain ⟨fuel, hfuel⟩ : ∃ fuel, len.toNat = fuel + 1 := by
    have hheader := F.header_pos
    have hlen := h.1
    exact ⟨len.toNat - 1, by omega⟩
  rw [hfuel, split, if_pos h, F.split_eq (F.toNat_left_le h (Nat.le_of_eq hfuel))]

/-- The pointers, by the first record. -/
theorem pointers_of_ok (h : F.Ok mem len) :
    F.pointers mem len = mem :: F.pointers (F.next mem) (F.left mem len) := by
  rw [pointers, F.split_of_ok h]

/-- The remnant, by the first record. -/
theorem remnant_of_ok (h : F.Ok mem len) :
    F.remnant mem len = F.remnant (F.next mem) (F.left mem len) := by
  rw [remnant, F.split_of_ok h]

/-- The records, by the first one. -/
theorem records_of_ok (h : F.Ok mem len) :
    F.records mem len = F.recordAt mem :: F.records (F.next mem) (F.left mem len) := by
  rw [records, F.pointers_of_ok h, List.map_cons, records]

/-- Where the loop ends there are no records. -/
theorem records_of_not_ok (h : ¬ F.Ok mem len) : F.records mem len = [] := by
  rw [records, F.pointers_of_not_ok h, List.map_nil]

/-! ## What the loop depends on -/

/-- The test at a record looks at the length that is left only. -/
theorem ok_take {k : Nat} (h : len ≤ k) : F.Ok (mem.take k) len ↔ F.Ok mem len := by
  by_cases hheader : F.header ≤ len
  · rw [Ok, Ok, F.lengthOf_take_of_le (by omega)]
  · exact iff_of_false (fun hok => hheader hok.1) (fun hok => hheader hok.1)

/-- The next record of a part of the memory is part of the next record. -/
theorem next_take {k : Nat} (h : F.header ≤ k) :
    F.next (mem.take k) = (F.next mem).take (k - F.padded (F.lengthOf mem)) := by
  rw [next, next, F.lengthOf_take_of_le h, List.drop_take]

/-- Of memory that ends behind the length, or goes on, the loop sees the same records. -/
theorem records_take {k : Nat} (h : len ≤ k) :
    F.records (mem.take k) len = F.records mem len ∧
      F.remnant (mem.take k) len = F.remnant mem len := by
  induction mem, len using F.induction generalizing k with
  | ok mem len hok ih =>
    have hheader : F.header ≤ k := by have hlen := hok.1; omega
    have hok' : F.Ok (mem.take k) len := (F.ok_take h).mpr hok
    have hleft : F.left (mem.take k) len = F.left mem len := by
      rw [left, left, F.lengthOf_take_of_le hheader]
    -- the record lies within the part that is kept
    have hrecord : F.recordAt (mem.take k) = F.recordAt mem := by
      have hlen := hok.2.2
      rw [recordAt, recordAt, F.lengthOf_take_of_le hheader, List.take_take,
        Nat.min_eq_left (by omega)]
    -- so does all that is left behind it
    have hrest := ih (k := k - F.padded (F.lengthOf mem)) (by rw [left]; omega)
    rw [F.records_of_ok hok, F.records_of_ok hok', F.remnant_of_ok hok, F.remnant_of_ok hok',
      hrecord, hleft, F.next_take hheader, hrest.1, hrest.2]
    exact ⟨rfl, rfl⟩
  | stop mem len hok =>
    have hok' : ¬ F.Ok (mem.take k) len := fun h' => hok ((F.ok_take h).mp h')
    rw [F.records_of_not_ok hok, F.records_of_not_ok hok', F.remnant_of_not_ok hok,
      F.remnant_of_not_ok hok']
    exact ⟨rfl, rfl⟩

/-- Bytes behind the length do not matter. -/
theorem records_append (bytes back : List α) :
    F.records (bytes ++ back) bytes.length = F.records bytes bytes.length ∧
      F.remnant (bytes ++ back) bytes.length = F.remnant bytes bytes.length := by
  obtain ⟨hrecords, hremnant⟩ :=
    @records_take _ F (bytes ++ back) bytes.length bytes.length (Int.le_refl _)
  rw [List.take_left] at hrecords hremnant
  exact ⟨hrecords.symm, hremnant.symm⟩

/-- A pointer of the loop leads into memory, to a record that lies inside of the length. -/
theorem exists_drop_of_mem_pointers {r : List α} (h : r ∈ F.pointers mem len) :
    ∃ i : Nat, r = mem.drop i ∧ F.header ≤ F.lengthOf r ∧ i + F.lengthOf r ≤ len := by
  induction mem, len using F.induction with
  | ok mem len hok ih =>
    rw [F.pointers_of_ok hok] at h
    -- the pointer is the first one, or one of those behind the first record
    rcases List.mem_cons.mp h with rfl | hrest
    · exact ⟨0, rfl, hok.2.1, by have hlen := hok.2.2; omega⟩
    · obtain ⟨i, rfl, hheader, hlen⟩ := ih hrest
      refine ⟨F.padded (F.lengthOf mem) + i, ?_, hheader, ?_⟩
      · rw [next, List.drop_drop]
      · rw [left] at hlen
        omega
  | stop mem len hok =>
    rw [F.pointers_of_not_ok hok] at h
    cases h

/-- In memory that is long enough a record has the length that its header gives. -/
theorem length_of_mem_records {r : List α} (hmem : len ≤ mem.length) (h : r ∈ F.records mem len) :
    F.header ≤ r.length ∧ F.lengthOf r = r.length := by
  obtain ⟨p, hp, rfl⟩ := List.mem_map.mp h
  obtain ⟨i, rfl, hheader, hlen⟩ := F.exists_drop_of_mem_pointers hp
  have hlength : (F.recordAt (mem.drop i)).length = F.lengthOf (mem.drop i) := by
    rw [recordAt, List.length_take, List.length_drop, Nat.min_eq_left (by omega)]
  refine ⟨by rw [hlength]; exact hheader, ?_⟩
  rw [hlength, recordAt, F.lengthOf_take_of_le hheader]

/-! ## Layouts -/

/-- A record whose header gives its length. -/
def WellFormed (r : List α) : Prop := F.header ≤ r.length ∧ F.lengthOf r = r.length

/-- Some bytes are the records one behind the other, each with its padding. -/
inductive Layout : List (List α) → List α → Prop
  | nil : Layout [] []
  | cons {r padding : List α} {records : List (List α)} {bytes : List α} (hr : F.WellFormed r)
      (hpadding : r.length + padding.length = F.padded r.length) (h : Layout records bytes) :
      Layout (r :: records) (r ++ padding ++ bytes)

/-- Two layouts one behind the other are a layout. -/
theorem Layout.append {F : RecordFormat α} {records records' : List (List α)}
    {bytes bytes' : List α} (h : F.Layout records bytes) (h' : F.Layout records' bytes') :
    F.Layout (records ++ records') (bytes ++ bytes') := by
  induction h with
  | nil => exact h'
  | cons hr hpadding h ih =>
    rw [List.cons_append, List.append_assoc]
    exact .cons hr hpadding ih

/-- A record with padding made of one element. -/
def pad (x : α) (r : List α) : List α := r ++ List.replicate (F.padded r.length - r.length) x

/-- A padded record has the padded length. -/
theorem length_pad (x : α) (r : List α) : (F.pad x r).length = F.padded r.length := by
  have hle := F.le_padded r.length
  rw [pad, List.length_append, List.length_replicate]
  omega

/-- Records that are padded and put one behind the other. -/
theorem layout_flatMap_pad {β : Type v} (x : α) {f : β → List α} {l : List β}
    (hf : ∀ b ∈ l, F.WellFormed (f b)) : F.Layout (l.map f) (l.flatMap fun b => F.pad x (f b)) := by
  induction l with
  | nil => exact .nil
  | cons b l ih =>
    have hlength := F.length_pad x (f b)
    rw [pad, List.length_append] at hlength
    rw [List.map_cons, List.flatMap_cons, pad]
    exact .cons (hf b List.mem_cons_self) hlength
      (ih fun b' hb' => hf b' (List.mem_cons_of_mem b hb'))

/-- The record that stands at the front. -/
theorem ok_append {r : List α} (hr : F.WellFormed r) (back : List α) (hlen : r.length ≤ len) :
    F.Ok (r ++ back) len ∧ F.recordAt (r ++ back) = r := by
  obtain ⟨hheader, hlength⟩ := hr
  have hlengthOf : F.lengthOf (r ++ back) = r.length := by
    rw [F.lengthOf_append hheader, hlength]
  refine ⟨⟨by omega, by omega, by omega⟩, ?_⟩
  rw [recordAt, hlengthOf, List.take_left]

/-- The records of a layout are found in front of those that follow it. -/
theorem records_layout_append {records : List (List α)} {bytes : List α}
    (h : F.Layout records bytes) (back : List α) :
    F.records (bytes ++ back) (bytes ++ back).length = records ++ F.records back back.length ∧
      F.remnant (bytes ++ back) (bytes ++ back).length = F.remnant back back.length := by
  induction h with
  | nil => exact ⟨rfl, rfl⟩
  | @cons r padding records bytes hr hpadding h ih =>
    have hlen : (r.length : Int) ≤ (r ++ (padding ++ (bytes ++ back))).length := by
      rw [List.length_append]
      omega
    rw [List.append_assoc, List.append_assoc]
    -- the record at the front is found whole
    obtain ⟨hok, hrecord⟩ := F.ok_append hr (padding ++ (bytes ++ back)) hlen
    have hlengthOf : F.lengthOf (r ++ (padding ++ (bytes ++ back))) = r.length := by
      rw [F.lengthOf_append hr.1, hr.2]
    -- and the loop goes on behind its padding
    have hnext : F.next (r ++ (padding ++ (bytes ++ back))) = bytes ++ back := by
      rw [next, hlengthOf, ← hpadding, ← List.append_assoc, ← List.length_append, List.drop_left]
    have hleft : F.left (r ++ (padding ++ (bytes ++ back)))
        (r ++ (padding ++ (bytes ++ back))).length = (bytes ++ back).length := by
      rw [left, hlengthOf, ← hpadding]
      simp only [List.length_append]
      omega
    rw [F.records_of_ok hok, F.remnant_of_ok hok, hrecord, hnext, hleft, ih.1, ih.2]
    exact ⟨rfl, rfl⟩

/-- The loop finds the records of a layout, and no remnant. -/
theorem records_of_layout {records : List (List α)} {bytes : List α}
    (h : F.Layout records bytes) :
    F.records bytes bytes.length = records ∧ F.remnant bytes bytes.length = 0 := by
  have hok : ¬ F.Ok ([] : List α) ([] : List α).length := F.not_ok_of_nonpos (Int.le_refl 0)
  have happend := F.records_layout_append h []
  rw [F.records_of_not_ok hok, F.remnant_of_not_ok hok, List.append_nil, List.append_nil] at happend
  exact happend

/-- What stands between a record and the next one. -/
def paddingAt (mem : List α) : List α :=
  (mem.drop (F.lengthOf mem)).take (F.padded (F.lengthOf mem) - F.lengthOf mem)

/-- A record, its padding and the next ones are the memory. -/
theorem recordAt_append_paddingAt (mem : List α) :
    F.recordAt mem ++ F.paddingAt mem ++ F.next mem = mem := by
  have hpadded := Nat.add_sub_of_le (F.le_padded (F.lengthOf mem))
  have hnext : F.next mem = (mem.drop (F.lengthOf mem)).drop
      (F.padded (F.lengthOf mem) - F.lengthOf mem) := by
    rw [next, List.drop_drop, hpadded]
  rw [recordAt, paddingAt, hnext, List.append_assoc, List.take_append_drop, List.take_append_drop]

/-- A record in front of a layout, with what stands between them in memory. -/
theorem layout_cons {mem laid : List α} {records : List (List α)}
    (hheader : F.header ≤ F.lengthOf mem) (hlen : F.padded (F.lengthOf mem) ≤ mem.length)
    (h : F.Layout records laid) :
    F.Layout (F.recordAt mem :: records) (F.recordAt mem ++ F.paddingAt mem ++ laid) := by
  have hle := F.le_padded (F.lengthOf mem)
  have hrecord : (F.recordAt mem).length = F.lengthOf mem := by
    rw [recordAt, List.length_take, Nat.min_eq_left (by omega)]
  have hpadding : (F.paddingAt mem).length = F.padded (F.lengthOf mem) - F.lengthOf mem := by
    rw [paddingAt, List.length_take, List.length_drop, Nat.min_eq_left (by omega)]
  have hlengthOf : F.lengthOf (F.recordAt mem) = F.lengthOf mem :=
    F.lengthOf_take_of_le hheader mem
  exact .cons ⟨by omega, by omega⟩ (by rw [hrecord, hpadding]; omega) h

/-- What is found with no remnant has been laid out. -/
theorem layout_records {bytes : List α} (h : F.remnant bytes bytes.length = 0) :
    F.Layout (F.records bytes bytes.length) bytes := by
  suffices h : ∀ mem len, len = (mem.length : Int) → F.remnant mem len = 0 →
      F.Layout (F.records mem len) mem from h bytes _ rfl ‹_›
  intro mem len hlen hremnant
  induction mem, len using F.induction with
  | ok mem len hok ih =>
    rw [F.remnant_of_ok hok] at hremnant
    rw [F.records_of_ok hok]
    by_cases hpadded : F.padded (F.lengthOf mem) ≤ mem.length
    · have hrest := ih (by rw [left, next, List.length_drop]; omega) hremnant
      have hcons := F.layout_cons hok.2.1 hpadded hrest
      rwa [F.recordAt_append_paddingAt] at hcons
    · -- the padding is missing, so the remnant is negative
      have hstop : ¬ F.Ok (F.next mem) (F.left mem len) :=
        F.not_ok_of_nonpos (by rw [left]; omega)
      rw [F.remnant_of_not_ok hstop, left] at hremnant
      omega
  | stop mem len hok =>
    rw [F.remnant_of_not_ok hok] at hremnant
    rw [F.records_of_not_ok hok, List.length_eq_zero_iff.mp (by omega : mem.length = 0)]
    exact .nil

/-! ## Records inside of some bytes -/

/-- A record stands in the bytes behind the layout of some others. -/
def Inside (r bytes : List α) : Prop :=
  F.WellFormed r ∧ ∃ records laid back, F.Layout records laid ∧ bytes = laid ++ (r ++ back)

/-- A record that is found stands behind the layout of those that are found before it. -/
theorem exists_layout_of_records {front back : List (List α)} {r bytes : List α}
    (h : F.records bytes bytes.length = front ++ r :: back) :
    F.WellFormed r ∧ ∃ laid rest, F.Layout front laid ∧ bytes = laid ++ (r ++ rest) := by
  have hmem : r ∈ F.records bytes bytes.length := by simp [h]
  refine ⟨F.length_of_mem_records (Int.le_refl _) hmem, ?_⟩
  clear hmem
  induction front generalizing bytes with
  | nil =>
    by_cases hok : F.Ok bytes bytes.length
    · rw [F.records_of_ok hok] at h
      refine ⟨[], bytes.drop (F.lengthOf bytes), .nil, ?_⟩
      rw [← (List.cons.inj h).1, recordAt, List.take_append_drop, List.nil_append]
    · rw [F.records_of_not_ok hok] at h
      cases h
  | cons r' front ih =>
    by_cases hok : F.Ok bytes bytes.length
    · rw [F.records_of_ok hok, List.cons_append] at h
      obtain ⟨rfl, hrest⟩ := List.cons.inj h
      by_cases hpadded : F.padded (F.lengthOf bytes) ≤ bytes.length
      · have hleft : F.left bytes bytes.length = (F.next bytes).length := by
          rw [left, next, List.length_drop]
          omega
        rw [hleft] at hrest
        obtain ⟨laid, rest, hlaid, hnext⟩ := ih hrest
        refine ⟨_, rest, F.layout_cons hok.2.1 hpadded hlaid, ?_⟩
        rw [List.append_assoc, ← hnext, F.recordAt_append_paddingAt]
      · -- without its padding the record would be the last one
        have hstop : ¬ F.Ok (F.next bytes) (F.left bytes bytes.length) :=
          F.not_ok_of_nonpos (by rw [left]; omega)
        rw [F.records_of_not_ok hstop] at hrest
        simp at hrest
    · rw [F.records_of_not_ok hok] at h
      cases h

/-- The loop finds a record behind the layout of some others. -/
theorem exists_records_of_layout {records : List (List α)} {r laid : List α}
    (hr : F.WellFormed r) (h : F.Layout records laid) (back : List α) :
    ∃ records', F.records (laid ++ (r ++ back)) (laid ++ (r ++ back)).length =
      records ++ r :: records' := by
  have hlen : (r.length : Int) ≤ (r ++ back).length := by
    rw [List.length_append]
    omega
  obtain ⟨hok, hrecord⟩ := F.ok_append hr back hlen
  rw [(F.records_layout_append h (r ++ back)).1, F.records_of_ok hok, hrecord]
  exact ⟨_, rfl⟩

/-- What the loop finds stands behind whole records. -/
theorem mem_records_iff {r bytes : List α} :
    r ∈ F.records bytes bytes.length ↔ F.Inside r bytes := by
  constructor
  · intro h
    -- What was read splits at `r`; the records before it give the layout.
    obtain ⟨front, back, hsplit⟩ := List.append_of_mem h
    obtain ⟨hr, laid, rest, hlaid, hbytes⟩ := F.exists_layout_of_records hsplit
    exact ⟨hr, front, laid, rest, hlaid, hbytes⟩
  · rintro ⟨hr, records, laid, back, hlaid, rfl⟩
    obtain ⟨records', hrecords⟩ := F.exists_records_of_layout hr hlaid back
    rw [hrecords]
    simp

end RecordFormat
