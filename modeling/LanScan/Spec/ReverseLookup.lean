import LanScan.ForStd.Labels
import LanScan.ForStd.Utf8
import LanScan.Spec.Ipv4

/-!
# Reverse lookups

What both platforms ask for and what they are answered: the question for the name of an
address, and the responses in the two shapes that the resolvers provide for.

## Key results

- `splitOn_reverseName`: the labels of the name that is asked for
- `owner_injective`: different addresses have different names
- `labelsAt_answer`: where the labels of a response lie
-/

namespace LanScan

open List (utf8Bytes asciiText)

namespace Ipv4

variable (a : Ipv4)

/-! ## The reverse name -/

/-- The labels of the name under which the name of the address is found. -/
def reverseParts : List (List Char) :=
  [octet a.b₃, octet a.b₂, octet a.b₁, octet a.b₀, "in-addr".toList, "arpa".toList]

/-- That name with dots. -/
def reverseName : List Char := ['.'].intercalate a.reverseParts

/-- The reverse name is split into its parts. -/
theorem splitOn_reverseName : a.reverseName.splitOn '.' = a.reverseParts := by
  apply List.splitOn_intercalate
  · simp [reverseParts, dot_notMem_octet]
  · simp [reverseParts]

variable {a}

/-- No part is empty. -/
theorem ne_nil_of_mem_reverseParts {part : List Char} (h : part ∈ a.reverseParts) : part ≠ [] := by
  simp only [reverseParts, List.mem_cons, List.not_mem_nil, or_false] at h
  rcases h with rfl | rfl | rfl | rfl | rfl | rfl <;> first | exact octet_ne_nil _ | decide

/-- No part is longer than `in-addr`. -/
theorem length_le_of_mem_reverseParts {part : List Char} (h : part ∈ a.reverseParts) :
    part.length ≤ 7 := by
  simp only [reverseParts, List.mem_cons, List.not_mem_nil, or_false] at h
  rcases h with rfl | rfl | rfl | rfl | rfl | rfl <;>
    first | exact Nat.le_trans (length_octet_le _) (by omega) | decide

/-- Digits are ASCII. -/
theorem ascii_of_mem_octet {b : UInt8} {c : Char} (h : c ∈ octet b) : c.val ≤ 127 := by
  have hdigit := isDigit_of_mem_octet h
  simp only [Char.isDigit, Bool.and_eq_true, decide_eq_true_eq] at hdigit
  exact Nat.le_trans hdigit.2 (by decide)

/-- The parts are ASCII. -/
theorem ascii_of_mem_reverseParts {part : List Char} {c : Char} (h : part ∈ a.reverseParts)
    (hc : c ∈ part) : c.val ≤ 127 := by
  simp only [reverseParts, List.mem_cons, List.not_mem_nil, or_false] at h
  -- Four octets in decimal, and the two labels of the zone.
  rcases h with rfl | rfl | rfl | rfl | rfl | rfl
  · exact ascii_of_mem_octet hc
  · exact ascii_of_mem_octet hc
  · exact ascii_of_mem_octet hc
  · exact ascii_of_mem_octet hc
  · have hall : "in-addr".toList.all (·.val ≤ 127) = true := by decide
    simpa using List.all_eq_true.mp hall c hc
  · have hall : "arpa".toList.all (·.val ≤ 127) = true := by decide
    simpa using List.all_eq_true.mp hall c hc

/-- No part has a CR. -/
theorem cr_notMem_of_mem_reverseParts {part : List Char} (h : part ∈ a.reverseParts) :
    '\r' ∉ part := by
  have hoctet (b : UInt8) : '\r' ∉ octet b := fun hcr =>
    absurd (isDigit_of_mem_octet hcr) (by decide)
  simp only [reverseParts, List.mem_cons, List.not_mem_nil, or_false] at h
  rcases h with rfl | rfl | rfl | rfl | rfl | rfl <;> first | exact hoctet _ | decide

/-- The reverse name has no CR. -/
theorem cr_notMem_reverseName (a : Ipv4) : '\r' ∉ a.reverseName := by
  intro hcr
  rw [reverseName, ← List.dropLast_flatMap_append_singleton] at hcr
  obtain ⟨part, hmem, hcr⟩ := List.mem_flatMap.mp (List.dropLast_subset _ hcr)
  rcases List.mem_append.mp hcr with hcr | hcr
  · exact cr_notMem_of_mem_reverseParts hmem hcr
  · exact absurd hcr (by decide)

/-- A part has as many bytes as characters. -/
theorem length_utf8Bytes_of_mem_reverseParts {part : List Char} (h : part ∈ a.reverseParts) :
    (utf8Bytes part).length = part.length :=
  List.length_utf8Bytes_of_ascii fun _ hc => ascii_of_mem_reverseParts h hc

variable (a)

/-! ## The question -/

/-- The owner name of the records that are asked for. -/
def owner : List UInt8 := encodeLabels (a.reverseParts.map utf8Bytes) ++ [0]

/-- The question: the owner name, the type PTR and the class IN. -/
def question : List UInt8 := a.owner ++ [0, 12, 0, 1]

/-- A query with the id `[id₀, id₁]`. -/
def query (id₀ id₁ : UInt8) : List UInt8 := [id₀, id₁, 0, 0, 0, 1, 0, 0, 0, 0, 0, 0] ++ a.question

/-- A reverse name has 28 characters at most. -/
theorem length_reverseName_le : a.reverseName.length ≤ 28 := by
  have hne : a.reverseParts ≠ [] := by simp [reverseParts]
  have hname := List.length_intercalate_singleton '.' hne
  simp only [reverseParts, List.map_cons, List.map_nil, List.sum_cons, List.sum_nil] at hname
  -- Three digits an octet, four of them, eleven letters and five dots.
  have h₀ := length_octet_le a.b₀
  have h₁ := length_octet_le a.b₁
  have h₂ := length_octet_le a.b₂
  have h₃ := length_octet_le a.b₃
  have hinAddr : "in-addr".toList.length = 7 := rfl
  have harpa : "arpa".toList.length = 4 := rfl
  rw [reverseName, reverseParts]
  omega

/-- The owner takes two bytes more than the name. -/
theorem length_owner : a.owner.length = a.reverseName.length + 2 := by
  have hne : a.reverseParts ≠ [] := by simp [reverseParts]
  have hname := List.length_intercalate_singleton '.' hne
  -- Every label takes its length byte, where the text has a dot; the end takes one.
  have hsum : (a.reverseParts.map fun part => (utf8Bytes part).length + 1) =
      a.reverseParts.map fun part => part.length + 1 :=
    List.map_congr_left fun part hpart => by
      rw [length_utf8Bytes_of_mem_reverseParts hpart]
  rw [owner, List.length_append, length_encodeLabels, List.map_map, reverseName]
  simp only [Function.comp_def, hsum]
  simp only [List.length_cons, List.length_nil]
  omega

/-- The parts are labels. -/
theorem ne_nil_of_mem_map_utf8Bytes {label : List UInt8}
    (h : label ∈ a.reverseParts.map utf8Bytes) : label ≠ [] ∧ label.length < 256 := by
  obtain ⟨part, hpart, rfl⟩ := List.mem_map.mp h
  have hlength := length_utf8Bytes_of_mem_reverseParts hpart
  have hle := length_le_of_mem_reverseParts hpart
  have hpos := List.length_pos_iff.mpr (ne_nil_of_mem_reverseParts hpart)
  exact ⟨List.ne_nil_of_length_pos (by omega), by omega⟩

variable {a}

/-- Different addresses have different names. -/
theorem owner_injective {a' : Ipv4} (h : a.owner = a'.owner) : a = a' := by
  -- No label is empty, so the encoding gives the labels back, and they the octets.
  have hlabels := encodeLabels_injective (fun _ => a.ne_nil_of_mem_map_utf8Bytes)
    (fun _ => a'.ne_nil_of_mem_map_utf8Bytes) h
  have hparts : a.reverseParts = a'.reverseParts :=
    List.map_injective_iff.mpr (fun _ _ => List.utf8Bytes_injective) hlabels
  obtain ⟨b₀, b₁, b₂, b₃⟩ := a
  obtain ⟨b₀', b₁', b₂', b₃'⟩ := a'
  simp only [reverseParts, List.cons.injEq, and_true] at hparts
  obtain ⟨h₃, h₂, h₁, h₀⟩ := hparts
  rw [octet_injective h₀, octet_injective h₁, octet_injective h₂, octet_injective h₃]

end Ipv4

/-! ## Responses -/

/-- A label of 1 to 63 ASCII bytes without a dot. -/
structure DnsLabel where
  bytes : List UInt8
  ne_nil : bytes ≠ []
  length_le : bytes.length ≤ 63
  ascii : ∀ b ∈ bytes, b < 128
  no_dot : '.'.toNat.toUInt8 ∉ bytes

/-- The label as text. -/
def DnsLabel.text (l : DnsLabel) : List Char := asciiText l.bytes

/-- The text of a label is encoded as its bytes. -/
theorem DnsLabel.utf8Bytes_text (l : DnsLabel) : utf8Bytes l.text = l.bytes :=
  List.utf8Bytes_asciiText l.ascii

/-- The text of a label has as many characters as bytes. -/
theorem DnsLabel.length_text (l : DnsLabel) : l.text.length = l.bytes.length := List.length_map _

/-- The text of a label is not empty. -/
theorem DnsLabel.text_ne_nil (l : DnsLabel) : l.text ≠ [] := by
  intro h
  exact l.ne_nil (List.map_eq_nil_iff.mp h)

/-- The text of a label has no dot. -/
theorem DnsLabel.dot_notMem_text (l : DnsLabel) : '.' ∉ l.text := by
  intro h
  obtain ⟨b, hb, hdot⟩ := List.mem_map.mp h
  have hchar : ∀ n < 128, Char.ofNat n = '.' → n = '.'.toNat := by decide
  have hnat := hchar b.toNat (UInt8.lt_iff_toNat_lt.mp (l.ascii b hb)) hdot
  apply l.no_dot
  rw [← hnat, Nat.toUInt8_eq, UInt8.ofNat_toNat]
  exact hb

/-- How a response names the owner of its record. -/
inductive Shape where
  /-- QDCOUNT is 0, and the owner is written out -/
  | plain
  /-- QDCOUNT is 1, the question is echoed, and a compression pointer to it is the owner -/
  | echoed (pointer : Vector UInt8 2)

/-- The low byte of QDCOUNT. -/
def Shape.qdcount : Shape → UInt8
  | plain => 0
  | echoed _ => 1

/-- A response to a query. -/
structure DnsResponse where
  flags : Vector UInt8 2
  /-- ANCOUNT, NSCOUNT and ARCOUNT -/
  counts : Vector UInt8 6
  shape : Shape
  /-- type, class, ttl and rdlength -/
  recordHead : Vector UInt8 10
  target : List DnsLabel
  target_ne_nil : target ≠ []
  trailing : List UInt8

namespace DnsResponse

/-- The part that depends on the shape. -/
def middle (r : DnsResponse) (a : Ipv4) (request : List UInt8) : List UInt8 :=
  match r.shape with
  | .plain => [0, 0] ++ r.counts.toList ++ a.owner
  | .echoed pointer => [0, 1] ++ r.counts.toList ++ request.drop 12 ++ pointer.toList

/-- What stands before the target: the id of the request, the rest of the header, and
    the record up to its data. -/
def front (r : DnsResponse) (a : Ipv4) (request : List UInt8) : List UInt8 :=
  request.take 2 ++ r.flags.toList ++ r.middle a request ++ r.recordHead.toList

/-- The labels of the target. -/
def labels (r : DnsResponse) : List (List UInt8) := r.target.map DnsLabel.bytes

/-- The target as text: the labels with dots between them. -/
def name (r : DnsResponse) : List Char := ['.'].intercalate (r.target.map DnsLabel.text)

/-- The first label of the target. -/
def hostLabel (r : DnsResponse) : DnsLabel := r.target.head r.target_ne_nil

/-- The bytes of the response to a request for the name of `a`. -/
def bytes (r : DnsResponse) (a : Ipv4) (request : List UInt8) : List UInt8 :=
  r.front a request ++ (encodeLabels r.labels ++ 0 :: r.trailing)

/-- The same with other labels in place of those of the target. -/
def answer (r : DnsResponse) (a : Ipv4) (request : List UInt8) (labels : List (List UInt8)) :
    List UInt8 := r.front a request ++ (encodeLabels labels ++ 0 :: r.trailing)

/-- Where the target begins. -/
def targetOffset (r : DnsResponse) (a : Ipv4) : Nat :=
  match r.shape with
  | .plain => a.reverseName.length + 24
  | .echoed _ => a.reverseName.length + 30

variable (r : DnsResponse) (a : Ipv4) (id₀ id₁ : UInt8)

/-! ### The layout -/

/-- The target stands behind the front of the response. -/
theorem length_front : (r.front a (a.query id₀ id₁)).length = r.targetOffset a := by
  have howner := a.length_owner
  unfold front middle targetOffset
  cases r.shape with
  | plain =>
    simp [Ipv4.query]
    omega
  -- The pointer stands for the owner name of the answer.
  | echoed pointer =>
    simp [Ipv4.query, Ipv4.question]
    omega

/-- The response answers with its labels. -/
theorem bytes_eq_answer (request : List UInt8) :
    r.bytes a request = r.answer a request r.labels := rfl

/-- A response begins with the id of the request, and byte 5 tells the shapes apart. -/
theorem answer_eq_cons (labels : List (List UInt8)) : ∃ f₀ f₁ rest,
    r.answer a (a.query id₀ id₁) labels =
      id₀ :: id₁ :: f₀ :: f₁ :: 0 :: r.shape.qdcount :: rest := by
  obtain ⟨f₀, f₁, hflags⟩ := List.length_eq_two.mp r.flags.length_toList
  unfold answer front middle
  rw [hflags]
  cases r.shape with
  | plain => exact ⟨f₀, f₁, _, rfl⟩
  | echoed pointer => exact ⟨f₀, f₁, _, rfl⟩

/-- A response has a label. -/
theorem labels_ne_nil : r.labels ≠ [] := by
  simpa [labels] using r.target_ne_nil

variable {r} in
/-- Each of its labels is one. -/
theorem exists_of_mem_labels {label : List UInt8} (h : label ∈ r.labels) :
    ∃ l : DnsLabel, l.bytes = label := by
  obtain ⟨l, -, rfl⟩ := List.mem_map.mp h
  exact ⟨l, rfl⟩

/-- No label is empty, and each length is a positive `Byte`. -/
theorem mem_labels_bounds {label : List UInt8} (h : label ∈ r.labels) :
    label ≠ [] ∧ label.length < 128 := by
  obtain ⟨l, rfl⟩ := exists_of_mem_labels h
  have hle := l.length_le
  exact ⟨l.ne_nil, by omega⟩

/-- The labels are found at their place, whatever follows the response in the buffer. -/
theorem labelsAt_answer {labels : List (List UInt8)}
    (hlabels : ∀ label ∈ labels, label ≠ [] ∧ label.length < 256) {stop : Nat}
    (hstop : r.targetOffset a + (encodeLabels labels).length < stop) (after : List UInt8) :
    LabelsAt (r.front a (a.query id₀ id₁) ++ (encodeLabels labels ++ 0 :: after)) stop
      (r.targetOffset a) labels := by
  rw [← r.length_front a id₀ id₁] at hstop ⊢
  exact labelsAt_encodeLabels hlabels hstop

end DnsResponse

end LanScan
