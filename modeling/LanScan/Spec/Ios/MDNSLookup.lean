import LanScan.Native.Ios.MDNSResolver
import LanScan.Spec.Ios.SubnetCorrect
import LanScan.Spec.ReverseLookup

/-!
# Lookups that are answered (iOS)

What `MDNSResolver` sends for an address that is given as a dotted quad, and what
`ChatMessageDecoder` makes of the datagrams that come back.

## Key results

- `writeRequest_text`: the request is the query for the name of the address
- `channelReadWith_answer`: the promise is fulfilled with the first part of the name
- `channelRead_bytes`: a well-formed response yields the first label of its target
-/

namespace LanScan.Ios.MDNSResolver

open List (utf8Bytes asciiText)

/-! ## Characters -/

/-- A text has no more `Character`s than characters. -/
theorem count_le_length (text : List Char) : count text ≤ text.length := by
  fun_induction count text with
  | case1 text ih =>
    simp only [List.length_cons]
    omega
  | case2 c text _ ih =>
    simp only [List.length_cons]
    omega
  | case3 => exact Nat.le_refl _

/-- Only CR and LF are counted as one. -/
theorem count_eq_length_iff {text : List Char} :
    count text = text.length ↔ ¬ ['\r', '\n'] <:+: text := by
  fun_induction count text with
  | case1 text ih =>
    have hle := count_le_length text
    -- CR LF is one character of the two scalars, so the count falls behind.
    have hcrlf : ['\r', '\n'] <:+: '\r' :: '\n' :: text := ⟨[], text, rfl⟩
    simp only [List.length_cons, hcrlf, not_true_eq_false, iff_false]
    omega
  | case2 c text hne ih =>
    have hhead : ¬ ['\r', '\n'] <+: c :: text := by
      rintro ⟨rest, hrest⟩
      cases hrest
      exact hne _ rfl rfl
    rw [List.length_cons, Nat.add_right_cancel_iff, ih, List.infix_cons_iff]
    simp only [hhead, false_or]
  | case3 => simp

/-- Without CR each character counts. -/
theorem count_of_notMem {text : List Char} (h : '\r' ∉ text) : count text = text.length :=
  count_eq_length_iff.mpr fun hcrlf => h (hcrlf.subset List.mem_cons_self)

/-! ## The request -/

/-- A byte in decimal is read back. -/
theorem int_octet (b : UInt8) : int (octet b) = some (Int64.ofInt b.toNat) := by
  have hdigits : digits (octet b) = some b.toNat := by
    have hall : (octet b).all Char.isDigit = true :=
      List.all_eq_true.mpr fun c hc => isDigit_of_mem_octet hc
    rw [digits, if_pos ⟨octet_ne_nil b, hall⟩, ofDigitChars_octet]
  have hlt := b.toNat_lt
  have hvalue : (digits (octet b)).bind (fun n => checked n) = some (Int64.ofInt b.toNat) := by
    rw [hdigits, Option.bind_some, checked_eq_some (by omega) (by omega)]
  -- no sign stands before a digit
  cases htext : octet b with
  | nil => exact absurd htext (octet_ne_nil b)
  | cons c rest =>
    have hc : c.isDigit = true := isDigit_of_mem_octet (htext ▸ List.mem_cons_self)
    rw [htext] at hvalue
    unfold int
    split
    · rename_i heq
      cases heq
      cases hc
    · rename_i heq
      cases heq
      cases hc
    · exact hvalue

/-- A byte is the same `Int`. -/
theorem toInt_ofInt_toNat (b : UInt8) : (Int64.ofInt b.toNat).toInt = b.toNat := by
  have hlt := b.toNat_lt
  exact toInt_ofInt (by omega) (by omega)

variable (a : Ipv4)

/-- The parts of an address. -/
theorem split_text : split a.text.toList = a.parts := by
  rw [split, a.splitOn_text, List.filter_eq_self]
  intro part hpart
  exact decide_eq_true (Ipv4.ne_nil_of_mem_parts hpart)

/-- The parts of its reverse name. -/
theorem split_reverseName : split a.reverseName = a.reverseParts := by
  rw [split, a.splitOn_reverseName, List.filter_eq_self]
  intro part hpart
  exact decide_eq_true (Ipv4.ne_nil_of_mem_reverseParts hpart)

/-- The parts are the four numbers. -/
theorem filterMap_int_text : (split a.text.toList).filterMap int = [Int64.ofInt a.b₀.toNat,
    Int64.ofInt a.b₁.toNat, Int64.ofInt a.b₂.toNat, Int64.ofInt a.b₃.toNat] := by
  rw [split_text]
  simp [Ipv4.parts, int_octet]

/-- The id of the request for an address. -/
def requestID : Nat := a.b₂.toNat * 255 + a.b₃.toNat

/-- The id fits in two bytes. -/
theorem requestID_lt : requestID a < 65281 := by
  have h₂ := a.b₂.toNat_lt
  have h₃ := a.b₃.toNat_lt
  unfold requestID
  omega

/-- `calculateRequestID` of an address. -/
theorem calculateRequestID_text :
    calculateRequestID a.text.toList = some (some (Int64.ofInt (requestID a))) := by
  have h₂ := a.b₂.toNat_lt
  have hlt := requestID_lt a
  -- Neither the product nor the sum leaves 64 bits, so nothing traps.
  have hproduct : (Int64.ofInt (a.b₂.toNat * 255)).toInt = a.b₂.toNat * 255 :=
    toInt_ofInt (by omega) (by omega)
  unfold calculateRequestID
  rw [filterMap_int_text]
  simp only [toInt_ofInt_toNat, checked_eq_some (show -2 ^ 63 ≤ (a.b₂.toNat : Int) * 255 by omega)
    (by omega), bind, Option.bind, hproduct]
  have hsum : (a.b₂.toNat : Int) * 255 + a.b₃.toNat = (requestID a : Nat) := by
    unfold requestID
    omega
  rw [hsum, checked_eq_some (by omega) (by omega)]
  rfl

/-- `reverseName` of an address. -/
theorem reverseName_text : reverseName a.text.toList = some a.reverseName := by
  unfold reverseName
  rw [split_text]
  simp [Ipv4.parts, Ipv4.reverseName, Ipv4.reverseParts]

/-- The higher byte of the id. -/
def idHigh : UInt8 := UInt8.ofNat (requestID a / 256)

/-- The lower byte of the id. -/
def idLow : UInt8 := UInt8.ofNat (requestID a % 256)

/-- `UInt8` of a byte does not trap. -/
theorem uint8_of_lt {n : Nat} (h : n < 256) : uint8 n = some (UInt8.ofNat n) := by
  rw [uint8, if_pos ⟨by omega, by omega⟩]
  rfl

/-- The request for an address is its query. -/
theorem dnsRequest_reverseName :
    dnsRequest (Int64.ofInt (requestID a)) a.reverseName = some (a.query (idHigh a) (idLow a)) := by
  have hlt := requestID_lt a
  have hid : (Int64.ofInt (requestID a)).toInt = requestID a := toInt_ofInt (by omega) (by omega)
  -- each part is ASCII, so its count is its number of bytes
  have hlabels : a.reverseParts.mapM writeLabel =
      some (a.reverseParts.map fun part => encodeLabel (utf8Bytes part)) := by
    apply List.mapM_eq_some_map
    intro part hpart
    have hle := Ipv4.length_le_of_mem_reverseParts hpart
    rw [writeLabel, count_of_notMem (Ipv4.cr_notMem_of_mem_reverseParts hpart),
      uint8_of_lt (by omega), encodeLabel,
      Ipv4.length_utf8Bytes_of_mem_reverseParts hpart]
    rfl
  have hhigh : uint8 ((requestID a : Int) / 256) = some (idHigh a) :=
    uint8_of_lt (n := requestID a / 256) (by omega)
  have hlow : uint8 ((requestID a : Int) % 256) = some (idLow a) :=
    uint8_of_lt (n := requestID a % 256) (by omega)
  unfold dnsRequest
  simp only [hid, hhigh, hlow, split_reverseName, hlabels, bind, Option.bind]
  rw [Ipv4.query, Ipv4.question, Ipv4.owner, encodeLabels, List.flatMap_map, List.flatMap_def]
  simp

/-- The request for an address is the query for its name. -/
theorem writeRequest_text : writeRequest a.text = some (some (a.query (idHigh a) (idLow a))) := by
  unfold writeRequest
  simp only [calculateRequestID_text, reverseName_text, dnsRequest_reverseName, bind, Option.bind]
  rfl

/-- The port is that of the last byte. -/
theorem getBindPort_text : getBindPort a.text = some (Int64.ofInt (a.b₃.toNat + 7654)) := by
  have hlt := a.b₃.toNat_lt
  unfold getBindPort
  rw [split_text]
  simp only [Ipv4.parts, List.getLast?_cons_cons, List.getLast?_singleton, Option.bind_some,
    int_octet, toInt_ofInt_toNat]
  rw [show (7654 : Int64).toInt = 7654 by decide]
  exact checked_eq_some (by omega) (by omega)

/-! ## The response -/

variable {a} {bytes : List UInt8} {labels : List (List UInt8)}

/-- The loop appends the texts of the labels that it meets, each with a dot. -/
theorem decodeLoop_of_texts {texts : List (List Char)} {stop i fuel : Nat}
    (h : LabelsAt bytes stop i (texts.map utf8Bytes)) (hfuel : bytes.length < i + fuel)
    (name : List Char) : decodeLoop bytes stop fuel i name =
      some (name ++ texts.flatMap fun text => text ++ ['.']) := by
  generalize hlabels : texts.map utf8Bytes = labels at h
  induction h generalizing fuel name texts with
  -- at the end, at a zero, or at the next text
  | @stop i hstop =>
    obtain rfl := List.map_eq_nil_iff.mp hlabels
    cases fuel with
    | zero => simp [decodeLoop]
    | succ fuel =>
      rw [decodeLoop, if_neg (by omega)]
      simp
  | @zero i hlt hzero =>
    obtain rfl := List.map_eq_nil_iff.mp hlabels
    have hi := (List.getElem?_eq_some_iff.mp hzero).1
    obtain ⟨fuel, rfl⟩ := Nat.exists_eq_add_of_le' (show 1 ≤ fuel by omega)
    rw [decodeLoop, if_pos (by omega), hzero]
    simp
  | @label i len label labels hlt hlen hne hlabel hwhole hrest ih =>
    obtain ⟨text, texts, rfl, rfl, rfl⟩ := List.map_eq_cons_iff.mp hlabels
    have hi := (List.getElem?_eq_some_iff.mp hlen).1
    obtain ⟨fuel, rfl⟩ := Nat.exists_eq_add_of_le' (show 1 ≤ fuel by omega)
    -- the label is whole, so its slice does not trap
    have hbound : i + 1 + len.toNat ≤ bytes.length := by
      rw [← hlabel, List.length_take, List.length_drop] at hwhole
      omega
    have hih := ih (show bytes.length < i + 1 + len.toNat + fuel by omega) (name ++ text ++ ['.'])
      rfl
    rw [decodeLoop, if_pos (by omega), hlen]
    simp only [if_neg hne, slice, if_pos hbound, hlabel, List.utf8Text?_utf8Bytes]
    rw [hih]
    simp

/-- ASCII labels are texts. -/
theorem decodeLoop_of_labelsAt {stop i fuel : Nat} (h : LabelsAt bytes stop i labels)
    (hascii : ∀ label ∈ labels, ∀ b ∈ label, b < 128) (hfuel : bytes.length < i + fuel)
    (name : List Char) : decodeLoop bytes stop fuel i name =
      some (name ++ labels.flatMap fun label => asciiText label ++ ['.']) := by
  have htexts : labels = (labels.map asciiText).map utf8Bytes := by
    rw [List.map_map]
    exact (List.map_congr_left fun label hlabel =>
      List.utf8Bytes_asciiText (hascii label hlabel)).trans (List.map_id _) |>.symm
  rw [htexts] at h
  rw [decodeLoop_of_texts h hfuel, List.flatMap_map]

/-- The position where `channelRead` expects the name in a response. -/
def answerOffset (a : Ipv4) (bytes : List UInt8) : Nat :=
  (if bytes.getD 5 0 = 0 then 12 + a.reverseName.length
    else (a.query (idHigh a) (idLow a)).length) + 2 + 2 + 2 + 4 + 2

variable {firstPart : List Char → Option String}

/-- What is done for an address, from the check of the id on. -/
theorem channelReadWith_text (h : 6 ≤ bytes.length) : channelReadWith firstPart a.text bytes =
    if bytes.getD 0 0 ≠ idHigh a ∧ bytes.getD 1 0 ≠ idLow a then some none
    else (decodeName bytes (answerOffset a bytes) (bytes.length - answerOffset a bytes)).map
      firstPart := by
  have hbyte (k : Nat) (hk : k < 6) : bytes[k]? = some (bytes.getD k 0) := by
    rw [List.getD_eq_getElem?_getD, List.getElem?_eq_getElem (by omega), Option.getD_some]
  -- the id bytes of the request, which the code builds again
  have hquery₀ : (a.query (idHigh a) (idLow a))[0]? = some (idHigh a) := rfl
  have hquery₁ : (a.query (idHigh a) (idLow a))[1]? = some (idLow a) := rfl
  unfold channelReadWith
  simp only [calculateRequestID_text, reverseName_text, dnsRequest_reverseName, bind, Option.bind,
    count_of_notMem a.cr_notMem_reverseName, hbyte 0 (by omega), hbyte 1 (by omega),
    hbyte 5 (by omega), hquery₀, hquery₁]
  rw [← answerOffset]
  -- the check needs both bytes to differ
  by_cases h₀ : bytes.getD 0 0 = idHigh a
  · rw [if_neg (fun hne => hne h₀), if_neg (fun hne => hne.1 h₀)]
    cases decodeName bytes (answerOffset a bytes) (bytes.length - answerOffset a bytes) <;> rfl
  · rw [if_pos h₀]
    by_cases h₁ : bytes.getD 1 0 = idLow a
    · rw [if_neg (fun hne => hne h₁), if_neg (fun hne => hne.2 h₁)]
      cases decodeName bytes (answerOffset a bytes) (bytes.length - answerOffset a bytes) <;> rfl
    · rw [if_pos h₁, if_pos ⟨h₀, h₁⟩]
      rfl

/-- What `channelRead` does for an address, from the check of the id on. -/
theorem channelRead_text (h : 6 ≤ bytes.length) : channelRead a.text bytes =
    if bytes.getD 0 0 ≠ idHigh a ∧ bytes.getD 1 0 ≠ idLow a then some none
    else (decodeName bytes (answerOffset a bytes) (bytes.length - answerOffset a bytes)).map
      fun hostName => (split hostName).head?.map String.ofList :=
  channelReadWith_text h

/-- The first part of a name whose labels are texts, if one byte of the id agrees. -/
theorem channelReadWith_of_texts {texts : List (List Char)} (hlength : 6 ≤ bytes.length)
    (hid : bytes.getD 0 0 = idHigh a ∨ bytes.getD 1 0 = idLow a)
    (h : LabelsAt bytes bytes.length (answerOffset a bytes) (texts.map utf8Bytes)) :
    channelReadWith firstPart a.text bytes =
      some (firstPart (texts.flatMap fun text => text ++ ['.'])) := by
  have hid' : ¬ (bytes.getD 0 0 ≠ idHigh a ∧ bytes.getD 1 0 ≠ idLow a) := by
    rintro ⟨h₀, h₁⟩
    exact hid.elim h₀ h₁
  have hstop : ((answerOffset a bytes : Int) + (bytes.length - answerOffset a bytes)) =
      bytes.length := by omega
  rw [channelReadWith_text hlength, if_neg hid', decodeName, hstop,
    decodeLoop_of_texts h (by omega)]
  rfl

/-- The first part of dotted text that begins with a label. -/
theorem head?_split_append {label rest : List Char} (hne : label ≠ []) (hdot : '.' ∉ label) :
    (split (label ++ '.' :: rest)).head? = some label := by
  rw [split, List.splitOn_append_cons_self_of_not_mem hdot, List.filter_cons_of_pos]
  · rfl
  · exact decide_eq_true hne

/-- The position depends on the length of the reverse name alone. -/
theorem answerOffset_answer {b : Ipv4} (hname : a.reverseName.length = b.reverseName.length)
    (r : DnsResponse) (id₀ id₁ : UInt8) (labels : List (List UInt8)) :
    answerOffset a (r.answer b (b.query id₀ id₁) labels) = r.targetOffset b := by
  obtain ⟨f₀, f₁, rest, hbytes⟩ := r.answer_eq_cons b id₀ id₁ labels
  have howner := a.length_owner
  rw [answerOffset, hbytes, DnsResponse.targetOffset, ← hname]
  cases hshape : r.shape with
  -- Without a question the answer follows the header.
  | plain =>
    simp [Shape.qdcount]
    omega
  -- With the question echoed it follows that.
  | echoed pointer =>
    simp [Shape.qdcount, Ipv4.query, Ipv4.question]
    omega

/-- The first part of the name in a response for any address with a reverse name of the
    same length, if one byte of the id agrees. -/
theorem channelReadWith_answer {b : Ipv4} (hname : a.reverseName.length = b.reverseName.length)
    (r : DnsResponse) {id₀ id₁ : UInt8} (hid : idHigh a = id₀ ∨ idLow a = id₁)
    {texts : List (List Char)}
    (htexts : ∀ text ∈ texts, text ≠ [] ∧ (utf8Bytes text).length < 256) :
    channelReadWith firstPart a.text (r.answer b (b.query id₀ id₁) (texts.map utf8Bytes)) =
      some (firstPart (texts.flatMap fun text => text ++ ['.'])) := by
  obtain ⟨f₀, f₁, rest, hbytes⟩ := r.answer_eq_cons b id₀ id₁ (texts.map utf8Bytes)
  apply channelReadWith_of_texts
  · rw [hbytes]
    simp
  · rw [hbytes]
    exact hid.imp Eq.symm Eq.symm
  -- the name stands where the target is, and its labels are found there
  · rw [answerOffset_answer hname]
    apply r.labelsAt_answer b id₀ id₁
    · intro label hlabel
      obtain ⟨text, htext, rfl⟩ := List.mem_map.mp hlabel
      obtain ⟨hne, hlt⟩ := htexts text htext
      have hpos := List.length_pos_iff.mpr hne
      have hle := List.length_le_length_utf8Bytes text
      exact ⟨List.ne_nil_of_length_pos (by omega), hlt⟩
    · have hfront := r.length_front b id₀ id₁
      simp only [DnsResponse.answer, List.length_append, List.length_cons]
      omega

/-- A response for any address with a reverse name of the same length yields the first
    label of its target, if one byte of the id agrees. -/
theorem channelRead_bytes_of_id {b : Ipv4} (hname : a.reverseName.length = b.reverseName.length)
    (r : DnsResponse) {id₀ id₁ : UInt8} (hid : idHigh a = id₀ ∨ idLow a = id₁) :
    channelRead a.text (r.bytes b (b.query id₀ id₁)) =
      some (some (String.ofList r.hostLabel.text)) := by
  -- The target is read as UTF-8, and its first label ends at the first dot.
  have hlabels : r.labels = (r.target.map DnsLabel.text).map utf8Bytes := by
    rw [DnsResponse.labels, List.map_map]
    exact List.map_congr_left fun l _ => l.utf8Bytes_text.symm
  have htexts : ∀ text ∈ r.target.map DnsLabel.text, text ≠ [] ∧ (utf8Bytes text).length < 256 := by
    intro text hmem
    obtain ⟨l, -, rfl⟩ := List.mem_map.mp hmem
    have hle := l.length_le
    exact ⟨l.text_ne_nil, by rw [l.utf8Bytes_text]; omega⟩
  rw [channelRead, r.bytes_eq_answer, hlabels,
    channelReadWith_answer hname r hid htexts, ← List.cons_head_tail r.target_ne_nil,
    List.map_cons, List.flatMap_cons, List.append_assoc, List.singleton_append,
    head?_split_append (DnsLabel.text_ne_nil _) (DnsLabel.dot_notMem_text _)]
  rfl

/-- A response to the request yields the first label of its target. -/
theorem channelRead_bytes (r : DnsResponse) (a : Ipv4) :
    channelRead a.text (r.bytes a (a.query (idHigh a) (idLow a))) =
      some (some (String.ofList r.hostLabel.text)) := channelRead_bytes_of_id rfl r (.inl rfl)

end LanScan.Ios.MDNSResolver
