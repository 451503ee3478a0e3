import LanScan.Spec.Android.MDNSDecode

/-!
# Names from bytes that were not received (Android)

The loop of `decodeName` compares the position of a label with the length of the
datagram, but not the end of the label, which may lie anywhere in the buffer.

## Key results

- `labelText_append_ascii`: the last byte of a label shows in its text
- `name_received_iff`: when only bytes that were received are read
-/

namespace LanScan.Android.MDNSResolver

variable {malformed : List UInt8 → List Char} {labels : List (List UInt8)}

/-- A decoder that takes an ASCII byte for itself, also behind bytes that are not UTF-8. -/
def ReadsAscii (malformed : List UInt8 → List Char) : Prop :=
  ∀ bytes b, bytes.utf8Text? = none → b < 128 →
    malformed (bytes ++ [b]) = malformed bytes ++ [Char.ofNat b.toNat]

/-- A byte of ASCII behind a label is one more character. -/
theorem labelText_append_ascii (hmalformed : ReadsAscii malformed) (bytes : List UInt8) {b : UInt8}
    (hb : b < 128) :
    labelText malformed (bytes ++ [b]) = labelText malformed bytes ++ [Char.ofNat b.toNat] := by
  rw [labelText, labelText, List.utf8Text?_append_ascii bytes hb]
  cases htext : bytes.utf8Text? with
  | some text => rfl
  | none => exact hmalformed bytes b htext hb

/-- All labels that the walk meets end within the bytes received. -/
def NameReceived (ip : InetAddress) (packet : DatagramPacket) : Prop :=
  ∀ labels, LabelsAt packet.data packet.length (answerOffset ip.address packet.data) labels →
    answerOffset ip.address packet.data + (encodeLabels labels).length ≤ packet.length

/-- The id and the position of the name depend on the first six bytes. -/
theorem answerOffset_congr {data data' : List UInt8} {n : Nat} (h : data.AgreeUpTo n data')
    (hn : 6 ≤ n) (addr : List UInt8) : answerOffset addr data = answerOffset addr data' := by
  simp only [answerOffset, h.getD (show 5 < n by omega)]

/-- The check of the id looks at the first bytes only. -/
theorem idAgrees_congr {data' : List UInt8} {packet : DatagramPacket} {n : Nat}
    (h : packet.data.AgreeUpTo n data') (hn : 6 ≤ n) (ip : InetAddress) :
    DatagramPacket.IdAgrees ip { packet with data := data' } ↔ packet.IdAgrees ip := by
  simp only [DatagramPacket.IdAgrees, h.getD (show 0 < n by omega), h.getD (show 1 < n by omega)]

/-- What is read from a buffer with the same first bytes and the labels `labels`. -/
theorem readResponse_of_agreeUpTo {ip : InetAddress} {packet : DatagramPacket}
    (hid : packet.IdAgrees ip) (hsix : 6 ≤ packet.length) {data' : List UInt8}
    {labels : List (List UInt8)} (hagree : packet.data.AgreeUpTo packet.length data')
    (hne : labels ≠ [])
    (h : LabelsAt data' packet.length (answerOffset ip.address packet.data) labels)
    (hshort : ∀ label ∈ labels, label.length < 128) :
    readResponse malformed ip { packet with data := data' } =
      .ok (some [some (String.ofList (['.'].intercalate (labels.map (labelText malformed))))]) :=
  readResponse_of_labelsAt ((idAgrees_congr hagree hsix ip).mpr hid) hne
    (answerOffset_congr hagree hsix ip.address ▸ h) hshort

/-- A name depends only on bytes that were received, if and only if all its labels end
    within them. -/
theorem name_received_iff (hmalformed : ReadsAscii malformed) (ip : InetAddress)
    {packet : DatagramPacket} {names : List (Option String)} (h : packet.Received 512)
    (hnames : readResponse malformed ip packet = .ok (some names)) :
    (∀ data', data'.length = 512 → packet.data.AgreeUpTo packet.length data' →
      readResponse malformed ip { packet with data := data' } =
        readResponse malformed ip packet) ↔ NameReceived ip packet := by
  obtain ⟨hid, labels, hne, hlabels, hshort⟩ :=
    labelsAt_of_readResponse h.length_le_length_data hnames
  have hoffset := hlabels.lt_stop hne
  have hsix : 6 ≤ packet.length := by
    simp only [answerOffset] at hoffset
    omega
  constructor
  · intro hsame labels' hlabels'
    obtain rfl := hlabels.unique hlabels'
    by_contra hend
    -- the last byte of the last label was not received: it may be an `a` or a `b`
    obtain ⟨front, body, b, k, rfl, hk, hset⟩ :=
      hlabels.set_of_overrun (Nat.le_of_lt hoffset) (Nat.lt_of_not_le hend)
    have hname (x : UInt8) (hx : x < 128) : readResponse malformed ip packet =
        .ok (some [some (String.ofList (['.'].intercalate (front.map (labelText malformed) ++
          [labelText malformed body]) ++ [Char.ofNat x.toNat]))]) := by
      have hshort' : ∀ label ∈ front ++ [body ++ [x]], label.length < 128 := by
        intro label hlabel
        rcases List.mem_append.mp hlabel with hfront | hlast
        · exact hshort label (List.mem_append_left _ hfront)
        · have hb := hshort (body ++ [b]) (List.mem_append_right _ List.mem_cons_self)
          rw [List.mem_singleton.mp hlast]
          simpa using hb
      have hagree := List.agreeUpTo_set packet.data hk x
      rw [← hsame _ (by rw [List.length_set]; exact h.length_data) hagree,
        readResponse_of_agreeUpTo hid hsix hagree (by simp) (hset x) hshort', List.map_append,
        List.map_singleton, labelText_append_ascii hmalformed body hx,
        List.intercalate_append_concat]
    have heq := (hname 97 (by decide)).symm.trans (hname 98 (by decide))
    simp only [Except.ok.injEq, Option.some.injEq, List.cons.injEq, and_true, String.ofList_inj,
      List.append_cancel_left_eq] at heq
    exact absurd heq (by decide)
  · intro hend data' _ hagree
    have hlabels' := hlabels.congr hagree (hend labels hlabels)
    rw [readResponse_of_agreeUpTo hid hsix hagree hne hlabels' hshort]
    exact (readResponse_of_labelsAt hid hne hlabels hshort).symm

/-- A decoder that replaces the other bytes. -/
def replacing (bytes : List UInt8) : List Char :=
  bytes.map fun b => if b < 128 then Char.ofNat b.toNat else '\uFFFD'

/-- ASCII bytes are never replaced. -/
theorem readsAscii_replacing : ReadsAscii replacing := by
  intro bytes b _ hb
  rw [replacing, List.map_append, List.map_singleton, if_pos hb]
  rfl

/-- The packet with the name `x` for 10.0.0.5. -/
theorem labelsAt_foreignResponse : LabelsAt (DatagramPacket.received foreignResponse).data
    (DatagramPacket.received foreignResponse).length
    (answerOffset (InetAddress.inet4 10 0 0 5).address
      (DatagramPacket.received foreignResponse).data) [[120]] :=
  .label (by decide) (show (DatagramPacket.received foreignResponse).data[45]? = some 1 by decide)
    (by decide) (by decide) (by decide) (.zero (by decide) (by decide))

/-- The name of the response lies within what was received. -/
theorem name_received_foreign :
    NameReceived (.inet4 10 0 0 5) (DatagramPacket.received foreignResponse) ∧
    ∀ data', data'.length = 512 →
      (DatagramPacket.received foreignResponse).data.AgreeUpTo 48 data' →
      readResponse replacing (.inet4 10 0 0 5) { data := data', length := 48 } =
        readResponse replacing (.inet4 10 0 0 5) (DatagramPacket.received foreignResponse) := by
  have hreceived : NameReceived (.inet4 10 0 0 5) (DatagramPacket.received foreignResponse) := by
    intro labels hlabels
    rw [← labelsAt_foreignResponse.unique hlabels]
    decide
  exact ⟨hreceived, (name_received_iff readsAscii_replacing (.inet4 10 0 0 5)
    (received_received foreignResponse)
    (readResponse_of_labelsAt (by decide) (by simp) labelsAt_foreignResponse (by decide))).mpr
      hreceived⟩

/-- That packet, cut off behind the length of the label, with `x` behind its end. -/
def cutPacket (x : UInt8) : DatagramPacket where
  data := (DatagramPacket.received (foreignResponse.take 46)).data.set 46 x
  length := 46

/-- The packet is one that `receive` can fill. -/
theorem received_cutPacket (x : UInt8) : (cutPacket x).Received 512 where
  length_data := by rw [cutPacket, List.length_set, (received_received _).length_data]
  length_le := show 46 ≤ 512 by decide

/-- The name is the byte behind the end. -/
theorem readResponse_cutPacket (malformed : List UInt8 → List Char) {x : UInt8} (hx : x < 128) :
    readResponse malformed (.inet4 10 0 0 5) (cutPacket x) =
      .ok (some [some (String.ofList [Char.ofNat x.toNat])]) := by
  -- The one label is read from the last byte and a stale byte behind it.
  have hlabels : LabelsAt (cutPacket x).data 46 45 [[x]] :=
    .label (by decide) (show (cutPacket x).data[45]? = some 1 from rfl) (by decide) rfl rfl
      (.stop (by decide))
  have htext : labelText malformed [x] = [Char.ofNat x.toNat] := by
    rw [labelText, List.utf8Text?_of_ascii (by simpa using hx)]
    rfl
  have hid : (cutPacket x).IdAgrees (.inet4 10 0 0 5) := .inl rfl
  rw [readResponse_of_labelsAt hid (by simp) hlabels (by simp), List.map_singleton, htext]
  rfl

/-- What stands behind the end of the datagram is taken for the name. -/
theorem name_not_received : ¬ ∀ malformed ip (packet : DatagramPacket) names,
    packet.Received 512 → readResponse malformed ip packet = .ok (some names) →
    ∀ data', data'.length = 512 → packet.data.AgreeUpTo packet.length data' →
    readResponse malformed ip { packet with data := data' } = readResponse malformed ip packet := by
  intro h
  have h₀ := readResponse_cutPacket (fun _ => []) (show (0 : UInt8) < 128 by decide)
  have hx := readResponse_cutPacket (fun _ => []) (show (120 : UInt8) < 128 by decide)
  have hsame := h _ _ _ _ (received_cutPacket 0) h₀ (cutPacket 120).data
    (received_cutPacket 120).length_data (List.agreeUpTo_set _ (Nat.le_refl 46) 120)
  rw [h₀] at hsame
  exact absurd (hx.symm.trans hsame) (by decide)

end LanScan.Android.MDNSResolver
