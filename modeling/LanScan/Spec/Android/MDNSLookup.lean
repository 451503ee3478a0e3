import LanScan.Spec.Android.MDNSDecode
import LanScan.Spec.ReverseLookup

/-!
# Lookups that are answered (Android)

The request of `MDNSResolver.resolve` is the query for the name of the address, and a
well-formed response is read for what it says.

## Key results

- `request_eq_query`: what is asked
- `resolve_answer`, `resolve_bytes`: a response yields the name of its target
-/

namespace LanScan.Android.MDNSResolver

open List (utf8Bytes)

variable (a : Ipv4)

/-- The address as `InetAddress`. -/
def inet : InetAddress := .inet4 a.b₀ a.b₁ a.b₂ a.b₃

/-! ## The request -/

/-- The loop of `writeName` writes the labels from its position on. -/
theorem writeLoop_eq (name : List Char) {fuel s : Nat} (hfuel : name.length < s + fuel)
    (hs : s ≤ name.length) : writeLoop name fuel s =
      ((name.drop s).splitOn '.').flatMap fun label =>
        UInt8.ofNat label.length :: utf8Bytes label := by
  induction fuel generalizing s with
  | zero => omega
  | succ fuel ih =>
    have hlength : (name.drop s).length = name.length - s := List.length_drop
    cases hdot : (name.drop s).findIdx? (· == '.') with
    | none =>
      -- the last label
      have hnotMem : '.' ∉ name.drop s := by
        intro hmem
        simpa using List.findIdx?_eq_none_iff.mp hdot '.' hmem
      rw [writeLoop, indexOfDot, hdot, List.splitOn_eq_singleton hnotMem, List.flatMap_singleton,
        hlength]
      rfl
    | some j =>
      obtain ⟨hj, hat, hbefore⟩ := List.findIdx?_eq_some_iff_getElem.mp hdot
      have hlabel : ((name.drop s).take j).length = j := by
        rw [List.length_take]
        omega
      have hnotMem : '.' ∉ (name.drop s).take j := by
        intro hmem
        obtain ⟨k, hk, heq⟩ := List.getElem_of_mem hmem
        rw [List.getElem_take] at heq
        exact hbefore k (by omega) (beq_iff_eq.mpr heq)
      have hdrop : name.drop s = (name.drop s).take j ++ '.' :: name.drop (s + j + 1) := by
        rw [← beq_iff_eq.mp hat, Nat.add_assoc, ← List.drop_drop, ← List.drop_eq_getElem_cons hj,
          List.take_append_drop]
      have hindex : indexOfDot name s = some (s + j) := by rw [indexOfDot, hdot]; rfl
      have hsplit : (name.drop s).splitOn '.' =
          (name.drop s).take j :: (name.drop (s + j + 1)).splitOn '.' := by
        rw [← List.splitOn_append_cons_self_of_not_mem hnotMem, ← hdrop]
      rw [writeLoop, hindex, hsplit, List.flatMap_cons, ← ih (by omega) (by omega), hlabel]
      simp only [Nat.add_sub_cancel_left]

/-- `writeName` writes each label of the name behind its length, and a zero byte. -/
theorem writeName_eq (name : List Char) : writeName name = (name.splitOn '.').flatMap
    (fun label => UInt8.ofNat label.length :: utf8Bytes label) ++ [0] := by
  rw [writeName, writeLoop_eq name (by omega) (Nat.zero_le _), List.drop_zero]

/-- `reverseName` of an IPv4 address. -/
theorem reverseName_inet : reverseName (inet a).address = a.reverseName := by
  simp only [reverseName, inet, InetAddress.address, octetText, toList_toString_toNat,
    Ipv4.reverseName, Ipv4.reverseParts]
  simp

/-- Its labels are written as the owner of the record. -/
theorem writeName_reverseName : writeName a.reverseName = a.owner := by
  have hlabels : ∀ part ∈ a.reverseParts,
      UInt8.ofNat part.length :: utf8Bytes part = encodeLabel (utf8Bytes part) := by
    intro part hpart
    rw [encodeLabel, Ipv4.length_utf8Bytes_of_mem_reverseParts hpart]
  rw [writeName_eq, a.splitOn_reverseName, Ipv4.owner, encodeLabels, List.flatMap_map]
  exact congrArg (· ++ [0]) (List.flatMap_congr hlabels)

/-- `resolve` sends a query for the name of the address. -/
theorem request_eq_query : ∃ id₀ id₁, request (inet a).address = a.query id₀ id₁ := by
  refine ⟨((requestId (inet a).address).toUInt32 >>> 8).toUInt8,
    (requestId (inet a).address).toUInt32.toUInt8, ?_⟩
  rw [request, dnsRequest, reverseName_inet, writeName_reverseName, Ipv4.query, Ipv4.question]
  simp [writeShort]

/-! ## The response -/

variable {a}

/-- The position of the name depends on the shape alone. -/
theorem answerOffset_answer (r : DnsResponse) (id₀ id₁ : UInt8) (labels : List (List UInt8))
    (after : List UInt8) (h : request (inet a).address = a.query id₀ id₁) :
    answerOffset (inet a).address (r.answer a (a.query id₀ id₁) labels ++ after) =
      r.targetOffset a := by
  obtain ⟨f₀, f₁, rest, hbytes⟩ := r.answer_eq_cons a id₀ id₁ labels
  have howner := a.length_owner
  rw [answerOffset, reverseName_inet, h, hbytes, DnsResponse.targetOffset]
  cases hshape : r.shape with
  -- Without a question the answer follows the header.
  | plain =>
    simp [Shape.qdcount]
    omega
  -- With the question echoed it follows that.
  | echoed pointer =>
    simp [Shape.qdcount, Ipv4.query, Ipv4.question]
    omega

/-- A label is read as its text. -/
theorem labelText_eq_text (malformed : List UInt8 → List Char) (l : DnsLabel) :
    labelText malformed l.bytes = l.text := by
  rw [labelText, List.utf8Text?_of_ascii l.ascii]
  rfl

/-- The labels of the target are read as their texts. -/
theorem map_labelText (malformed : List UInt8 → List Char) (r : DnsResponse) :
    r.labels.map (labelText malformed) = r.target.map DnsLabel.text := by
  rw [DnsResponse.labels, List.map_map]
  exact List.map_congr_left fun l _ => labelText_eq_text malformed l

/-- What a buffer of 512 bytes keeps of a response whose labels fit. -/
theorem received_answer (r : DnsResponse) (id₀ id₁ : UInt8) {labels : List (List UInt8)}
    (hfits : r.targetOffset a + (encodeLabels labels).length < 512) :
    r.targetOffset a + (encodeLabels labels).length <
        (DatagramPacket.received (r.answer a (a.query id₀ id₁) labels)).length ∧
      ∃ rest, (DatagramPacket.received (r.answer a (a.query id₀ id₁) labels)).data =
        r.front a (a.query id₀ id₁) ++ (encodeLabels labels ++ 0 :: rest) := by
  have hfront := r.length_front a id₀ id₁
  -- what is left of the 512 bytes behind the name and its zero
  obtain ⟨room, hroom⟩ : ∃ room,
      512 = (r.front a (a.query id₀ id₁)).length + (encodeLabels labels).length + (room + 1) :=
    ⟨511 - r.targetOffset a - (encodeLabels labels).length, by omega⟩
  constructor
  · simp only [DatagramPacket.received, DnsResponse.answer, List.length_append, List.length_cons,
      hfront]
    omega
  · refine ⟨r.trailing.take room ++
      List.replicate (512 - (r.answer a (a.query id₀ id₁) labels).length) 0, ?_⟩
    -- the trailing bytes are cut off there
    have htake : (r.answer a (a.query id₀ id₁) labels).take 512 =
        r.front a (a.query id₀ id₁) ++ (encodeLabels labels ++ 0 :: r.trailing.take room) := by
      rw [hroom, Nat.add_assoc, DnsResponse.answer, List.take_length_add_append,
        List.take_length_add_append, List.take_succ_cons]
    rw [DatagramPacket.received, htake]
    simp

/-- A response whose labels fit yields their texts, joined by dots. -/
theorem resolve_answer (malformed : List UInt8 → List Char) (r : DnsResponse) (a : Ipv4)
    {labels : List (List UInt8)} (hne : labels ≠ [])
    (hlabels : ∀ label ∈ labels, label ≠ [] ∧ label.length < 128)
    (hfits : r.targetOffset a + (encodeLabels labels).length < 512) :
    resolve malformed (fun request => some (r.answer a request labels)) (inet a) =
      .ok (some [some (String.ofList
        (['.'].intercalate (labels.map (labelText malformed))))]) := by
  obtain ⟨id₀, id₁, hrequest⟩ := request_eq_query a
  obtain ⟨hlength, rest, hdata⟩ := received_answer r id₀ id₁ hfits
  -- the name is looked for where the target stands
  have hoffset : answerOffset (inet a).address
      (DatagramPacket.received (r.answer a (a.query id₀ id₁) labels)).data = r.targetOffset a := by
    have h := answerOffset_answer { r with trailing := rest } id₀ id₁ labels [] hrequest
    rw [List.append_nil] at h
    rw [hdata]
    exact h
  -- there the labels are found, up to the zero
  have hwalk : LabelsAt (DatagramPacket.received (r.answer a (a.query id₀ id₁) labels)).data
      (DatagramPacket.received (r.answer a (a.query id₀ id₁) labels)).length
      (answerOffset (inet a).address
        (DatagramPacket.received (r.answer a (a.query id₀ id₁) labels)).data) labels := by
    rw [hoffset, hdata]
    apply r.labelsAt_answer a id₀ id₁ _ hlength
    intro label hlabel
    have hbounds := hlabels label hlabel
    exact ⟨hbounds.1, by omega⟩
  -- and the response has the id of the request
  have hid : AgreesAt (inet a) (r.answer a (a.query id₀ id₁) labels) 0 := by
    obtain ⟨f₀, f₁, rest, hbytes⟩ := r.answer_eq_cons a id₀ id₁ labels
    rw [agreesAt_iff (by omega), hrequest, hbytes]
    rfl
  show resolve malformed (fun _ => some (r.answer a (request (inet a).address) labels)) (inet a) = _
  rw [hrequest, resolve_of_labelsAt (.inl hid) hne hwalk fun label h => (hlabels label h).2]

/-- A response of at most 512 bytes yields the name of its target. -/
theorem resolve_bytes (malformed : List UInt8 → List Char) (r : DnsResponse) (a : Ipv4)
    (h : (r.bytes a (request (inet a).address)).length ≤ 512) :
    resolve malformed (fun request => some (r.bytes a request)) (inet a) =
      .ok (some [some (String.ofList r.name)]) := by
  obtain ⟨id₀, id₁, hrequest⟩ := request_eq_query a
  -- The labels end inside the buffer, since the whole datagram fits.
  have hfits : r.targetOffset a + (encodeLabels r.labels).length < 512 := by
    rw [hrequest, DnsResponse.bytes] at h
    simp only [List.length_append, List.length_cons, r.length_front a id₀ id₁] at h
    omega
  have hanswer := resolve_answer malformed r a r.labels_ne_nil
    (fun _ => DnsResponse.mem_labels_bounds r) hfits
  rw [map_labelText] at hanswer
  exact hanswer

end LanScan.Android.MDNSResolver
