import LanScan.Spec.LookupCorrect

/-!
# Both platforms ask the same question

The bytes of a request for a dotted name, and what both decoders make of them.  Android
measures a label in UTF-16 units and iOS in characters, which is not the same for a label
with CR LF.

## Key results

- `dnsRequest_eq_query` (twice): what each platform writes
- `requests_agree_iff`: when both write the same bytes, and read the name back
-/

namespace LanScan

open List (utf8Bytes asciiText)

variable {id : Nat} {labels : List DnsLabel}

/-! ## Names -/

/-- The dotted name of some labels. -/
def dottedName (labels : List DnsLabel) : List Char :=
  ['.'].intercalate (labels.map DnsLabel.text)

/-- A dotted name is split into the texts of its labels. -/
theorem splitOn_dottedName (hne : labels ≠ []) :
    (dottedName labels).splitOn '.' = labels.map DnsLabel.text := by
  apply List.splitOn_intercalate
  · intro part hpart
    obtain ⟨l, -, rfl⟩ := List.mem_map.mp hpart
    exact l.dot_notMem_text
  · simpa using hne

/-- A query for a name: the id, the counts of a message with one question, the labels, the
    type PTR and the class IN. -/
def nameQuery (id : Nat) (labels : List DnsLabel) : List UInt8 :=
  [UInt8.ofNat (id / 256), UInt8.ofNat (id % 256), 0, 0, 0, 1, 0, 0, 0, 0, 0, 0] ++
    (encodeLabels (labels.map DnsLabel.bytes) ++ 0 :: [0, 12, 0, 1])

/-- The length of a query. -/
theorem length_nameQuery (id : Nat) (hne : labels ≠ []) :
    (nameQuery id labels).length = 12 + (dottedName labels).length + 2 + 4 := by
  have hne' : labels.map DnsLabel.text ≠ [] := by simpa using hne
  have hname := List.length_intercalate_singleton '.' hne'
  have hsum : (labels.map fun l => l.bytes.length + 1) = labels.map fun l => l.text.length + 1 :=
    List.map_congr_left fun l _ => by rw [l.length_text]
  simp only [List.map_map, Function.comp_def] at hname
  simp only [nameQuery, List.length_append, length_encodeLabels, List.map_map, Function.comp_def,
    hsum, dottedName, List.length_cons, List.length_nil]
  omega

/-- The labels stand at position 12. -/
theorem labelsAt_nameQuery (id : Nat) (labels : List DnsLabel) :
    LabelsAt (nameQuery id labels) (nameQuery id labels).length 12
      (labels.map DnsLabel.bytes) := by
  have hlabels : ∀ label ∈ labels.map DnsLabel.bytes, label ≠ [] ∧ label.length < 256 := by
    intro label hlabel
    obtain ⟨l, -, rfl⟩ := List.mem_map.mp hlabel
    have hle := l.length_le
    exact ⟨l.ne_nil, by omega⟩
  refine labelsAt_encodeLabels hlabels ?_
  simp only [nameQuery, List.length_append, List.length_cons, List.length_nil]
  omega

/-! ## Android -/

namespace Android.MDNSResolver

/-- `writeShort` writes an id in two bytes. -/
theorem writeShort_ofNat (hid : id < 65536) :
    writeShort (Int32.ofNat id) = [UInt8.ofNat (id / 256), UInt8.ofNat (id % 256)] := by
  have hnat : (Int32.ofNat id).toUInt32.toNat = id := by
    rw [show (Int32.ofNat id).toUInt32 = UInt32.ofNat id from rfl, UInt32.toNat_ofNat']
    omega
  -- The high byte first, as `DataOutputStream` writes it.
  have hhigh : ((Int32.ofNat id).toUInt32 >>> 8).toUInt8 = UInt8.ofNat (id / 256) := by
    apply UInt8.toNat_inj.mp
    rw [UInt32.toNat_toUInt8, UInt32.toNat_shiftRight, hnat, UInt8.toNat_ofNat',
      Nat.shiftRight_eq_div_pow]
    rfl
  have hlow : (Int32.ofNat id).toUInt32.toUInt8 = UInt8.ofNat (id % 256) := by
    apply UInt8.toNat_inj.mp
    rw [UInt32.toNat_toUInt8, hnat, UInt8.toNat_ofNat']
    omega
  rw [writeShort, hhigh, hlow]

/-- The loop writes the labels of the name. -/
theorem writeName_dottedName (hne : labels ≠ []) :
    writeName (dottedName labels) = encodeLabels (labels.map DnsLabel.bytes) ++ [0] := by
  rw [writeName_eq, splitOn_dottedName hne, encodeLabels, List.flatMap_map, List.flatMap_map]
  congr 1
  apply List.flatMap_congr
  intro l _
  rw [l.utf8Bytes_text, l.length_text, encodeLabel]

/-- Android's request for a name is its query. -/
theorem dnsRequest_eq_query (hid : id < 65536) (hne : labels ≠ []) :
    dnsRequest (Int32.ofNat id) (dottedName labels) = nameQuery id labels := by
  rw [dnsRequest, writeShort_ofNat hid, writeName_dottedName hne, nameQuery]
  simp

/-- The name is read back. -/
theorem decodeName_nameQuery (malformed : List UInt8 → List Char) (id : Nat) (hne : labels ≠ []) :
    decodeName malformed (nameQuery id labels) 12 ((nameQuery id labels).length - 12) =
      .ok (dottedName labels) := by
  -- A label has at most 63 bytes, so no length reads as negative.
  have hshort : ∀ label ∈ labels.map DnsLabel.bytes, label.length < 128 := by
    intro label hlabel
    obtain ⟨l, -, rfl⟩ := List.mem_map.mp hlabel
    have hle := l.length_le
    omega
  have htext : (labels.map DnsLabel.bytes).map (labelText malformed) =
      labels.map DnsLabel.text := by
    rw [List.map_map]
    exact List.map_congr_left fun l _ => labelText_eq_text malformed l
  rw [dottedName, ← htext]
  exact decodeName_of_labelsAt (by simpa using hne) (labelsAt_nameQuery id labels) hshort

end Android.MDNSResolver

/-! ## iOS -/

namespace Ios.MDNSResolver

/-- A dotted name is split into the texts of its labels. -/
theorem split_dottedName (hne : labels ≠ []) :
    split (dottedName labels) = labels.map DnsLabel.text := by
  rw [split, splitOn_dottedName hne, List.filter_eq_self]
  intro part hpart
  obtain ⟨l, -, rfl⟩ := List.mem_map.mp hpart
  exact decide_eq_true l.text_ne_nil

/-- A label with the length that iOS writes in front of it. -/
def countedLabel (l : DnsLabel) : List UInt8 := UInt8.ofNat (count l.text) :: l.bytes

/-- A label is written with its length unless CR and LF count as one. -/
theorem countedLabel_eq_iff (l : DnsLabel) :
    countedLabel l = encodeLabel l.bytes ↔ ¬ ['\r', '\n'] <:+: l.text := by
  have hle := l.length_le
  have hcount := count_le_length l.text
  have hlength := l.length_text
  rw [countedLabel, encodeLabel, List.cons.injEq, and_iff_left rfl, ← count_eq_length_iff,
    ← UInt8.toNat_inj, UInt8.toNat_ofNat', UInt8.toNat_ofNat']
  omega

/-- The request of iOS, with the counts of its labels. -/
theorem dnsRequest_dottedName (hid : id < 65536) (hne : labels ≠ []) :
    dnsRequest (Int64.ofNat id) (dottedName labels) =
      some ([UInt8.ofNat (id / 256), UInt8.ofNat (id % 256), 0, 0, 0, 1, 0, 0, 0, 0, 0, 0] ++
        (labels.flatMap countedLabel ++ 0 :: [0, 12, 0, 1])) := by
  have hid' : (Int64.ofNat id).toInt = id := toInt_ofInt (x := id) (by omega) (by omega)
  -- no count of a label traps
  have hlabels : (labels.map DnsLabel.text).mapM writeLabel = some (labels.map countedLabel) := by
    rw [List.mapM_map]
    apply List.mapM_eq_some_map
    intro l _
    have hle := l.length_le
    have hcount := count_le_length l.text
    rw [l.length_text] at hcount
    rw [Function.comp_apply, writeLabel, uint8_of_lt (by omega), l.utf8Bytes_text]
    rfl
  have hhigh : uint8 ((id : Int) / 256) = some (UInt8.ofNat (id / 256)) :=
    uint8_of_lt (n := id / 256) (by omega)
  have hlow : uint8 ((id : Int) % 256) = some (UInt8.ofNat (id % 256)) :=
    uint8_of_lt (n := id % 256) (by omega)
  unfold dnsRequest
  simp only [hid', hhigh, hlow, split_dottedName hne, hlabels, bind, Option.bind]
  rw [List.flatMap_def]
  simp

/-- The query is written unless a label is measured as shorter than it is. -/
theorem dnsRequest_eq_query_iff (hid : id < 65536) (hne : labels ≠ []) :
    dnsRequest (Int64.ofNat id) (dottedName labels) = some (nameQuery id labels) ↔
      ∀ l ∈ labels, ¬ ['\r', '\n'] <:+: l.text := by
  have hquery : nameQuery id labels = [UInt8.ofNat (id / 256), UInt8.ofNat (id % 256), 0, 0, 0, 1,
      0, 0, 0, 0, 0, 0] ++
        (labels.flatMap (fun l => encodeLabel l.bytes) ++ 0 :: [0, 12, 0, 1]) := by
    rw [nameQuery, encodeLabels, List.flatMap_map]
  rw [dnsRequest_dottedName hid hne, hquery, Option.some.injEq, List.append_cancel_left_eq,
    List.append_cancel_right_eq]
  constructor
  · intro h l hl
    -- Label by label the two have the same length, so they agree one by one.
    have hlength : ∀ l ∈ labels, (countedLabel l).length = (encodeLabel l.bytes).length :=
      fun _ _ => rfl
    exact (countedLabel_eq_iff l).mp (List.eq_of_flatMap_eq hlength h l hl)
  · intro h
    exact List.flatMap_congr fun l hl => (countedLabel_eq_iff l).mpr (h l hl)

/-- The name is read back, with a dot behind it. -/
theorem decodeName_nameQuery (id : Nat) (hne : labels ≠ []) :
    decodeName (nameQuery id labels) 12 ((nameQuery id labels).length - 12) =
      some (dottedName labels ++ ['.']) := by
  have hascii : ∀ label ∈ labels.map DnsLabel.bytes, ∀ b ∈ label, b < 128 := by
    intro label hlabel
    obtain ⟨l, -, rfl⟩ := List.mem_map.mp hlabel
    exact l.ascii
  -- The name may be read up to the end of the request.
  have hstop : ((12 : Nat) : Int) + ((nameQuery id labels).length - 12) =
      (nameQuery id labels).length := by omega
  have htext : (labels.map DnsLabel.text).flatMap (fun part => part ++ ['.']) =
      dottedName labels ++ ['.'] := List.flatMap_append_singleton '.' (by simpa using hne)
  rw [decodeName, hstop, decodeLoop_of_labelsAt (labelsAt_nameQuery id labels) hascii (by omega),
    ← htext, List.flatMap_map, List.flatMap_map]
  rfl

end Ios.MDNSResolver

/-! ## Both -/

/-- **Requests.** For every id of 16 bits and every dotted name, both platforms write the
    same bytes, those of the query with its length, and both read the name back from them,
    if and only if no label holds CR LF. -/
theorem requests_agree_iff (malformed : List UInt8 → List Char) (hid : id < 65536)
    (hne : labels ≠ []) :
    (∃ bytes, Android.MDNSResolver.dnsRequest (Int32.ofNat id) (dottedName labels) = bytes ∧
      Ios.MDNSResolver.dnsRequest (Int64.ofNat id) (dottedName labels) = some bytes ∧
      bytes = nameQuery id labels ∧
      bytes.length = 12 + (dottedName labels).length + 2 + 4 ∧
      Android.MDNSResolver.decodeName malformed bytes 12 (bytes.length - 12) =
        .ok (dottedName labels) ∧
      Ios.MDNSResolver.decodeName bytes 12 (bytes.length - 12) =
        some (dottedName labels ++ ['.'])) ↔
    ∀ l ∈ labels, ¬ ['\r', '\n'] <:+: l.text := by
  rw [← Ios.MDNSResolver.dnsRequest_eq_query_iff hid hne]
  constructor
  -- the request of iOS is the only part that depends on the labels
  · rintro ⟨bytes, -, hios, rfl, -⟩
    exact hios
  · intro hios
    exact ⟨_, Android.MDNSResolver.dnsRequest_eq_query hid hne, hios, rfl, length_nameQuery id hne,
      Android.MDNSResolver.decodeName_nameQuery malformed id hne,
      Ios.MDNSResolver.decodeName_nameQuery id hne⟩

/-- The labels of `tv.local`. -/
def tvLocal : List DnsLabel := tvResponse.target

/-- The requests for `tv.local`. -/
theorem requests_agree_tvLocal :
    ∃ bytes, Android.MDNSResolver.dnsRequest 5 (dottedName tvLocal) = bytes ∧
      Ios.MDNSResolver.dnsRequest 5 (dottedName tvLocal) = some bytes ∧
      bytes = nameQuery 5 tvLocal ∧ bytes.length = 12 + 8 + 2 + 4 ∧
      Android.MDNSResolver.decodeName (fun _ => []) bytes 12 (bytes.length - 12) =
        .ok (dottedName tvLocal) ∧
      Ios.MDNSResolver.decodeName bytes 12 (bytes.length - 12) =
        some (dottedName tvLocal ++ ['.']) :=
  (requests_agree_iff (fun _ => []) (show 5 < 65536 by decide) (show tvLocal ≠ [] by decide)).mpr
    (by decide)

/-- A label of CR LF has two bytes and one `Character`: iOS writes the length 1. -/
theorem requests_differ : ¬ ∀ malformed id labels, id < 65536 → labels ≠ [] →
    ∃ bytes, Android.MDNSResolver.dnsRequest (Int32.ofNat id) (dottedName labels) = bytes ∧
      Ios.MDNSResolver.dnsRequest (Int64.ofNat id) (dottedName labels) = some bytes ∧
      bytes = nameQuery id labels ∧
      bytes.length = 12 + (dottedName labels).length + 2 + 4 ∧
      Android.MDNSResolver.decodeName malformed bytes 12 (bytes.length - 12) =
        .ok (dottedName labels) ∧
      Ios.MDNSResolver.decodeName bytes 12 (bytes.length - 12) =
        some (dottedName labels ++ ['.']) := by
  intro h
  obtain ⟨bytes, -, hios, rfl, -⟩ := h (fun _ => []) 0
    [⟨[13, 10], by decide, by decide, by simp, by decide⟩] (by decide) (by simp)
  have hlabels := (Ios.MDNSResolver.dnsRequest_eq_query_iff (by decide) (by simp)).mp hios
  exact hlabels _ List.mem_cons_self ⟨[], [], rfl⟩

end LanScan
