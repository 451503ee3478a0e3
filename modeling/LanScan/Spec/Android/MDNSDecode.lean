import LanScan.ForStd.Labels
import LanScan.ForStd.List
import LanScan.Native.Android.MDNSResolver

/-!
# Reading mDNS responses (Android)

For which datagrams `MDNSResolver.resolve` returns a name, `null` or raises.
`HasName` says that the walk over the labels, from the position that `resolve`
computes, meets whole labels only; the loop of `decodeName` is that walk.

## Key results

- `resolve_of_labelsAt`, `resolve_of_not_hasName`: what `resolve` does
- `accepts_own_id_iff`: when a name is returned for the right id only
- `raises_only_ioException_iff`: when nothing but an `IOException` is raised
-/

namespace LanScan.Android.MDNSResolver

variable {malformed : List UInt8 → List Char} {data : List UInt8} {labels : List (List UInt8)}

/-! ## Labels -/

/-- The text of a label. -/
def labelText (malformed : List UInt8 → List Char) (label : List UInt8) : List Char :=
  label.utf8Text?.getD (malformed label)

/-- As a number, a byte of 0x80 or more is negative. -/
theorem toInt_toInt8 (b : UInt8) :
    b.toInt8.toInt = if b.toNat < 128 then (b.toNat : Int) else b.toNat - 256 := by
  have hb : b.toInt8.toInt = b.toBitVec.toInt := rfl
  have hnat : b.toBitVec.toNat = b.toNat := rfl
  rw [hb, BitVec.toInt_eq_toNat_cond, hnat]
  split <;> split <;> omega

/-- A label that lies in the buffer is decoded. -/
theorem string_of_whole {i : Nat} {len : UInt8} {label : List UInt8} (hlt : len.toNat < 128)
    (hlabel : (data.drop i).take len.toNat = label) (hwhole : label.length = len.toNat)
    (hi : i ≤ data.length) :
    string malformed data i len.toInt8.toInt = .ok (labelText malformed label) := by
  have hbound : i + len.toNat ≤ data.length := by
    rw [← hlabel, List.length_take, List.length_drop] at hwhole
    omega
  unfold string
  rw [toInt_toInt8, if_pos hlt, if_neg (by omega)]
  simp only [Int.toNat_natCast, hlabel]
  rfl

/-- A label that does not lie in the buffer, or whose length is negative, raises. -/
theorem string_eq_ok_imp {i : Nat} {len : UInt8} {text : List Char}
    (h : string malformed data i len.toInt8.toInt = .ok text) :
    len.toNat < 128 ∧ ((data.drop i).take len.toNat).length = len.toNat := by
  unfold string at h
  split at h
  · cases h
  · rename_i hbounds
    have hlt : len.toNat < 256 := len.toNat_lt
    rw [toInt_toInt8] at hbounds
    rw [List.length_take, List.length_drop]
    split at hbounds <;> omega

/-! ## The loop of decodeName -/

/-- The loop appends the labels that it meets, each with a dot. -/
theorem decodeLoop_of_labelsAt {stop i fuel : Nat} (h : LabelsAt data stop i labels)
    (hshort : ∀ label ∈ labels, label.length < 128) (hfuel : data.length < i + fuel)
    (s : List Char) : decodeLoop malformed data stop fuel i s =
      .ok (s ++ labels.flatMap fun label => labelText malformed label ++ ['.']) := by
  induction h generalizing fuel s with
  | @stop i hstop =>
    cases fuel with
    -- at the end of the response
    | zero => simp [decodeLoop]; rfl
    | succ fuel =>
      rw [decodeLoop, if_neg (by omega)]
      simp; rfl
  | @zero i hlt hzero =>
    have hi := (List.getElem?_eq_some_iff.mp hzero).1
    -- at a zero
    obtain ⟨fuel, rfl⟩ := Nat.exists_eq_add_of_le' (show 1 ≤ fuel by omega)
    rw [decodeLoop, if_pos (by omega), hzero]
    simp; rfl
  | @label i len label labels hlt hlen hne hlabel hwhole hrest ih =>
    have hi := (List.getElem?_eq_some_iff.mp hlen).1
    obtain ⟨fuel, rfl⟩ := Nat.exists_eq_add_of_le' (show 1 ≤ fuel by omega)
    -- a label: its length is a positive `Byte`, and its bytes are there
    have hsmall : len.toNat < 128 := by
      rw [← hwhole]
      exact hshort label List.mem_cons_self
    have hpos : 0 < len.toNat := by
      apply Nat.pos_of_ne_zero
      intro hzero
      exact hne (UInt8.toNat_inj.mp hzero)
    rw [decodeLoop, if_pos (by omega), hlen]
    simp only [if_neg hne, string_of_whole hsmall hlabel hwhole (Nat.succ_le_of_lt hi)]
    have hfuel' : data.length < i + 1 + len.toNat + fuel := by omega
    have hih := ih (fun l hl => hshort l (List.mem_cons_of_mem label hl)) hfuel'
      (s ++ labelText malformed label ++ ['.'])
    show decodeLoop malformed data stop fuel (i + 1 + len.toNat) _ = _
    rw [hih]
    simp

/-- When the loop does not raise, it has met whole labels only. -/
theorem labelsAt_of_decodeLoop {stop i fuel : Nat} {s t : List Char} (hstop : stop ≤ data.length)
    (hfuel : data.length < i + fuel) (h : decodeLoop malformed data stop fuel i s = .ok t) :
    ∃ labels, LabelsAt data stop i labels ∧ ∀ label ∈ labels, label.length < 128 := by
  induction fuel generalizing i s with
  | zero => exact ⟨[], .stop (by omega), by simp⟩
  | succ fuel ih =>
    rw [decodeLoop] at h
    -- the loop ends behind the response, at a zero, or goes on behind a label
    by_cases hi : stop ≤ i
    · exact ⟨[], .stop hi, by simp⟩
    · rw [if_pos (by omega)] at h
      cases hlen : data[i]? with
      | none =>
        rw [hlen] at h
        cases h
      | some len =>
        rw [hlen] at h
        simp only at h
        by_cases hzero : len = 0
        · subst hzero
          exact ⟨[], .zero (by omega) hlen, by simp⟩
        · rw [if_neg hzero] at h
          cases hstring : string malformed data (i + 1) len.toInt8.toInt with
          | error e =>
            rw [hstring] at h
            cases h
          | ok text =>
            -- the label has been read, so its length is no negative `Byte` and its bytes are
            -- there
            obtain ⟨hlt, hwhole⟩ := string_eq_ok_imp hstring
            rw [hstring] at h
            obtain ⟨labels, hlabels, hshort⟩ := ih (by omega) h
            refine ⟨_ :: labels, .label (by omega) hlen hzero rfl hwhole hlabels, ?_⟩
            simp only [List.forall_mem_cons]
            exact ⟨by omega, hshort⟩

/-- What `String` raises at a bad offset or length is not an `IOException`. -/
theorem string_ne_ioException (i : Nat) (length : Int) :
    string malformed data i length ≠ .error .ioException := by
  unfold string
  split
  · nofun
  · nofun

/-- The loop raises index errors, never an `IOException`. -/
theorem decodeLoop_ne_ioException (stop : Int) (fuel i : Nat) (s : List Char) :
    decodeLoop malformed data stop fuel i s ≠ .error .ioException := by
  induction fuel generalizing i s with
  | zero => nofun
  | succ fuel ih =>
    rw [decodeLoop]
    split
    · split
      · nofun
      · rename_i len hlen
        split
        · nofun
        · intro h
          -- the exception is that of the label, or of a later turn
          cases hstring : string malformed data (i + 1) len.toInt8.toInt with
          | error e =>
            rw [hstring] at h
            cases h
            exact string_ne_ioException _ _ hstring
          | ok text =>
            rw [hstring] at h
            exact ih _ _ h
    · nofun

/-! ## decodeName -/

/-- Whole labels are decoded to their texts, joined by dots. -/
theorem decodeName_of_labelsAt {stop offset : Nat} (hne : labels ≠ [])
    (h : LabelsAt data stop offset labels) (hshort : ∀ label ∈ labels, label.length < 128) :
    decodeName malformed data offset (stop - offset) =
      .ok (['.'].intercalate (labels.map (labelText malformed))) := by
  have hlt := h.lt_stop hne
  have hstop : (offset : Int) + (stop - offset) = stop := by omega
  unfold decodeName
  rw [if_neg (by omega), hstop,
    decodeLoop_of_labelsAt h hshort (show data.length < offset + (data.length + 1) by omega)]
  -- at least one label has been read, so there is a last dot to take off
  have hlength : ([] ++ labels.flatMap fun label =>
      labelText malformed label ++ ['.']).length ≠ 0 := by
    cases labels with
    | nil => exact absurd rfl hne
    | cons label labels => simp
  simp only [bind, Except.bind, if_neg hlength]
  rw [← List.dropLast_flatMap_append_singleton, List.flatMap_map]
  rfl

/-- When `decodeName` does not raise, there are labels, and all are whole. -/
theorem labelsAt_of_decodeName {stop offset : Nat} {name : List Char} (hstop : stop ≤ data.length)
    (h : decodeName malformed data offset (stop - offset) = .ok name) :
    ∃ labels, labels ≠ [] ∧ LabelsAt data stop offset labels ∧
      ∀ label ∈ labels, label.length < 128 := by
  unfold decodeName at h
  by_cases hlength : (stop : Int) - offset < 0
  · rw [if_pos hlength] at h
    cases h
  · rw [if_neg hlength, show (offset : Int) + (stop - offset) = stop by omega] at h
    have hfuel : data.length < offset + (data.length + 1) := by omega
    cases hloop : decodeLoop malformed data stop (data.length + 1) offset [] with
    | error e =>
      rw [hloop] at h
      cases h
    | ok s =>
      obtain ⟨labels, hlabels, hshort⟩ := labelsAt_of_decodeLoop hstop hfuel hloop
      refine ⟨labels, ?_, hlabels, hshort⟩
      -- without a label nothing is appended, and `setLength(-1)` raises
      rintro rfl
      have hnil : decodeLoop malformed data stop _ offset [] = _ :=
        decodeLoop_of_labelsAt hlabels hshort hfuel []
      rw [hnil] at h
      cases h

/-- `decodeName` raises no `IOException`. -/
theorem decodeName_ne_ioException (offset : Nat) (length : Int) :
    decodeName malformed data offset length ≠ .error .ioException := by
  unfold decodeName
  split
  · nofun
  · intro h
    -- Any error is one of the loop, which reads bytes and performs no I/O.
    cases hloop : decodeLoop malformed data (offset + length) (data.length + 1) offset [] with
    | error e =>
      rw [hloop] at h
      cases h
      exact decodeLoop_ne_ioException _ _ _ _ hloop
    | ok s =>
      rw [hloop] at h
      simp only [bind, Except.bind] at h
      split at h <;> cases h

/-! ## resolve -/

/-- The datagram holds a name where `resolve` expects one: at least one label, and
    all labels with 1 to 127 bytes that lie in the buffer. -/
def HasName (ip : InetAddress) (datagram : List UInt8) : Prop :=
  let packet := DatagramPacket.received datagram
  ∃ labels, labels ≠ [] ∧
    LabelsAt packet.data packet.length (answerOffset ip.address packet.data) labels ∧
    ∀ label ∈ labels, label.length < 128

/-- Byte `k` of the datagram, as `resolve` sees it, is that of its request. -/
def AgreesAt (ip : InetAddress) (datagram : List UInt8) (k : Nat) : Prop :=
  (DatagramPacket.received datagram).data.getD k 0 = (request ip.address).getD k 0

instance (ip : InetAddress) (datagram : List UInt8) (k : Nat) :
    Decidable (AgreesAt ip datagram k) := inferInstanceAs (Decidable (_ = _))

/-- A packet with a buffer of `size` bytes. -/
structure DatagramPacket.Received (size : Nat) (packet : DatagramPacket) : Prop where
  length_data : packet.data.length = size
  length_le : packet.length ≤ size

/-- `receive` fills the buffer up to its size. -/
theorem received_received (datagram : List UInt8) :
    (DatagramPacket.received datagram).Received 512 where
  length_data := by simp [DatagramPacket.received]; omega
  length_le := Nat.min_le_right _ _

/-- The length of a packet is no more than its buffer. -/
theorem DatagramPacket.Received.length_le_length_data {size : Nat} {packet : DatagramPacket}
    (h : packet.Received size) : packet.length ≤ packet.data.length := by
  rw [h.length_data]
  exact h.length_le

/-- `resolve`, from `socket.receive` on. -/
def readResponse (malformed : List UInt8 → List Char) (ip : InetAddress)
    (respPacket : DatagramPacket) : Except Throwable (Option (List (Option String))) := do
  let request := request ip.address
  let response := respPacket.data
  if response.getD 0 0 ≠ request.getD 0 0 ∧ response.getD 1 0 ≠ request.getD 1 0 then
    return none
  let offset := answerOffset ip.address response
  let name ← decodeName malformed response offset (respPacket.length - offset)
  return some [some (String.ofList name)]

/-- Of a datagram, `resolve` reads what the packet holds. -/
theorem resolve_eq_readResponse (malformed : List UInt8 → List Char) (ip : InetAddress)
    (datagram : List UInt8) : resolve malformed (fun _ => some datagram) ip =
      readResponse malformed ip (DatagramPacket.received datagram) := rfl

/-- One byte of the id of a packet is that of the request. -/
def DatagramPacket.IdAgrees (ip : InetAddress) (packet : DatagramPacket) : Prop :=
  packet.data.getD 0 0 = (request ip.address).getD 0 0 ∨
    packet.data.getD 1 0 = (request ip.address).getD 1 0

instance (ip : InetAddress) (packet : DatagramPacket) : Decidable (packet.IdAgrees ip) :=
  inferInstanceAs (Decidable (_ ∨ _))

/-- A packet is decoded when one byte of its id agrees. -/
theorem readResponse_eq (malformed : List UInt8 → List Char) (ip : InetAddress)
    (packet : DatagramPacket) : readResponse malformed ip packet =
      if packet.IdAgrees ip then
        (decodeName malformed packet.data (answerOffset ip.address packet.data)
          (packet.length - answerOffset ip.address packet.data)).map
            fun name => some [some (String.ofList name)]
      else .ok none := by
  unfold readResponse
  by_cases hid : packet.IdAgrees ip
  · rw [if_pos hid, if_neg fun hne => hid.elim hne.1 hne.2]
    exact bind_pure_comp _ _
  · rw [if_neg hid, if_pos (not_or.mp hid)]
    rfl

/-- A packet with labels is answered with them, unless both bytes of its id differ. -/
theorem readResponse_of_labelsAt {ip : InetAddress} {packet : DatagramPacket}
    (hid : packet.IdAgrees ip) (hne : labels ≠ [])
    (h : LabelsAt packet.data packet.length (answerOffset ip.address packet.data) labels)
    (hshort : ∀ label ∈ labels, label.length < 128) :
    readResponse malformed ip packet =
      .ok (some [some (String.ofList (['.'].intercalate (labels.map (labelText malformed))))]) := by
  rw [readResponse_eq, if_pos hid, decodeName_of_labelsAt hne h hshort]
  rfl

/-- Only packets with labels are answered. -/
theorem labelsAt_of_readResponse {ip : InetAddress} {packet : DatagramPacket}
    {names : List (Option String)} (hlength : packet.length ≤ packet.data.length)
    (h : readResponse malformed ip packet = .ok (some names)) :
    packet.IdAgrees ip ∧ ∃ labels, labels ≠ [] ∧
      LabelsAt packet.data packet.length (answerOffset ip.address packet.data) labels ∧
      ∀ label ∈ labels, label.length < 128 := by
  rw [readResponse_eq] at h
  split at h
  · rename_i hid
    -- A name was read, so the answer holds labels where it was read.
    cases hname : decodeName malformed packet.data (answerOffset ip.address packet.data)
        (packet.length - answerOffset ip.address packet.data) with
    | error e =>
      rw [hname] at h
      cases h
    | ok name => exact ⟨hid, labelsAt_of_decodeName hlength hname⟩
  · cases h

/-- A datagram with another id is not decoded. -/
theorem resolve_of_not_agreesAt (malformed : List UInt8 → List Char) {ip : InetAddress}
    {datagram : List UInt8} (hid : ¬ AgreesAt ip datagram 0 ∧ ¬ AgreesAt ip datagram 1) :
    resolve malformed (fun _ => some datagram) ip = .ok none := by
  rw [resolve_eq_readResponse, readResponse_eq]
  exact if_neg (not_or.mpr hid)

/-- One byte of the id is enough for the datagram to be decoded. -/
theorem resolve_of_agreesAt (malformed : List UInt8 → List Char) {ip : InetAddress}
    {datagram : List UInt8} (hid : AgreesAt ip datagram 0 ∨ AgreesAt ip datagram 1) :
    resolve malformed (fun _ => some datagram) ip =
      (decodeName malformed (DatagramPacket.received datagram).data
        (answerOffset ip.address (DatagramPacket.received datagram).data)
        ((DatagramPacket.received datagram).length -
          answerOffset ip.address (DatagramPacket.received datagram).data)).map
            fun name => some [some (String.ofList name)] := by
  rw [resolve_eq_readResponse, readResponse_eq]
  exact if_pos hid

/-- A datagram with a name is answered with it, unless both bytes of its id differ. -/
theorem resolve_of_labelsAt {ip : InetAddress} {datagram : List UInt8}
    (hid : AgreesAt ip datagram 0 ∨ AgreesAt ip datagram 1) (hne : labels ≠ [])
    (h : LabelsAt (DatagramPacket.received datagram).data (DatagramPacket.received datagram).length
      (answerOffset ip.address (DatagramPacket.received datagram).data) labels)
    (hshort : ∀ label ∈ labels, label.length < 128) :
    resolve malformed (fun _ => some datagram) ip =
      .ok (some [some (String.ofList (['.'].intercalate (labels.map (labelText malformed))))]) :=
  readResponse_of_labelsAt hid hne h hshort

/-- Without a name in the datagram, and without the check of the id, `resolve` raises
    something that is no `IOException`. -/
theorem resolve_of_not_hasName (malformed : List UInt8 → List Char) {ip : InetAddress}
    {datagram : List UInt8} (hid : AgreesAt ip datagram 0 ∨ AgreesAt ip datagram 1)
    (h : ¬ HasName ip datagram) :
    ∃ e, e ≠ .ioException ∧ resolve malformed (fun _ => some datagram) ip = .error e := by
  rw [resolve_of_agreesAt malformed hid]
  cases hname : decodeName malformed (DatagramPacket.received datagram).data
      (answerOffset ip.address (DatagramPacket.received datagram).data)
      ((DatagramPacket.received datagram).length -
        answerOffset ip.address (DatagramPacket.received datagram).data) with
  -- Whatever the loop raised, the caller does not catch it.
  | error e =>
    refine ⟨e, ?_, rfl⟩
    rintro rfl
    exact decodeName_ne_ioException _ _ hname
  | ok name =>
    have hlength := (received_received datagram).length_le_length_data
    exact absurd (labelsAt_of_decodeName hlength hname) h

/-! ## The id of the response -/

/-- The padding of the buffer does not show in the comparison of the ids. -/
theorem agreesAt_iff {ip : InetAddress} {datagram : List UInt8} {k : Nat} (hk : k < 512) :
    AgreesAt ip datagram k ↔ datagram.getD k 0 = (request ip.address).getD k 0 := by
  have hdata : (DatagramPacket.received datagram).data.getD k 0 = datagram.getD k 0 := by
    simp only [DatagramPacket.received, List.getD_eq_getElem?_getD, List.getElem?_append,
      List.length_take, List.getElem?_take, List.getElem?_replicate]
    by_cases hlt : k < datagram.length
    · rw [if_pos (by omega), if_pos hk]
    · rw [if_neg (by omega), List.getElem?_eq_none (by omega)]
      split <;> rfl
  rw [AgreesAt, hdata]

/-- The two bytes of the id are those of the request when both comparisons say so. -/
theorem take_two_eq_iff {ip : InetAddress} {datagram : List UInt8} (h : 2 ≤ datagram.length) :
    datagram.take 2 = (request ip.address).take 2 ↔
      AgreesAt ip datagram 0 ∧ AgreesAt ip datagram 1 := by
  obtain ⟨b₀, b₁, rest, rfl⟩ : ∃ b₀ b₁ rest, datagram = b₀ :: b₁ :: rest := by
    match datagram, h with
    | b₀ :: b₁ :: rest, _ => exact ⟨b₀, b₁, rest, rfl⟩
  rw [agreesAt_iff (by omega), agreesAt_iff (by omega)]
  simp [request, dnsRequest, writeShort]

/-- A datagram that is long enough for a name has an id. -/
theorem HasName.two_le_length {ip : InetAddress} {datagram : List UInt8}
    (h : HasName ip datagram) : 2 ≤ datagram.length := by
  obtain ⟨labels, hne, hlabels, -⟩ := h
  have hlt := hlabels.lt_stop hne
  simp only [answerOffset, DatagramPacket.received] at hlt
  omega

/-- A name is returned only for the id of the request, if and only if no datagram with a
    name agrees with the request in one of the two bytes of the id alone. -/
theorem accepts_own_id_iff (malformed : List UInt8 → List Char) (ip : InetAddress)
    (datagram : List UInt8) :
    (∀ names, resolve malformed (fun _ => some datagram) ip = .ok (some names) →
      datagram.take 2 = (request ip.address).take 2) ↔
    (HasName ip datagram → (AgreesAt ip datagram 0 ↔ AgreesAt ip datagram 1)) := by
  constructor
  · intro h hname
    have hboth : AgreesAt ip datagram 0 ∨ AgreesAt ip datagram 1 →
        AgreesAt ip datagram 0 ∧ AgreesAt ip datagram 1 := by
      intro hid
      have htwo := hname.two_le_length
      obtain ⟨labels, hne, hlabels, hshort⟩ := hname
      exact (take_two_eq_iff htwo).mp (h _ (resolve_of_labelsAt hid hne hlabels hshort))
    exact ⟨fun h₀ => (hboth (.inl h₀)).2, fun h₁ => (hboth (.inr h₁)).1⟩
  · intro h names hresolve
    -- a name is returned only when one of the bytes agrees and the labels are whole
    obtain ⟨hid, (hname : HasName ip datagram)⟩ :=
      labelsAt_of_readResponse (received_received datagram).length_le_length_data hresolve
    have hiff := h hname
    exact (take_two_eq_iff hname.two_le_length).mpr
      (hid.elim (fun h₀ => ⟨h₀, hiff.mp h₀⟩) fun h₁ => ⟨hiff.mpr h₁, h₁⟩)

/-- A response with the id `[0, 6]` and the name `x` where the answer to a request for
    10.0.0.5 has it. -/
def foreignResponse : List UInt8 := [0, 6] ++ List.replicate 43 0 ++ [1, 120, 0]

/-- For 10.0.0.5, with the id `[0, 5]`, the name in a response with the id `[0, 6]` is
    returned. -/
theorem accepts_foreign_id :
    resolve (fun _ => []) (fun _ => some foreignResponse) (.inet4 10 0 0 5) =
      .ok (some [some "x"]) ∧
    foreignResponse.take 2 ≠ (request (InetAddress.inet4 10 0 0 5).address).take 2 := by
  -- the name at the answer is one label, `x`
  have hlabels : LabelsAt (DatagramPacket.received foreignResponse).data
      (DatagramPacket.received foreignResponse).length
      (answerOffset (InetAddress.inet4 10 0 0 5).address
        (DatagramPacket.received foreignResponse).data) [[120]] :=
    .label (by decide)
      (show (DatagramPacket.received foreignResponse).data[45]? = some 1 by decide)
      (by decide) (by decide) (by decide) (.zero (by decide) (by decide))
  have htext : labelText (fun _ => []) [120] = ['x'] := by
    rw [labelText, List.utf8Text?_of_ascii (by simp)]
    rfl
  refine ⟨?_, by decide⟩
  rw [resolve_of_labelsAt (by decide) (by simp) hlabels (by decide), List.map_singleton, htext]
  rfl

/-! ## Exceptions -/

/-- Nothing but an `IOException` is raised if and only if the datagram holds a name, or
    both bytes of its id differ from those of the request. -/
theorem raises_only_ioException_iff (malformed : List UInt8 → List Char) (ip : InetAddress)
    (datagram : List UInt8) :
    (∀ e, resolve malformed (fun _ => some datagram) ip = .error e → e = .ioException) ↔
    HasName ip datagram ∨ (¬ AgreesAt ip datagram 0 ∧ ¬ AgreesAt ip datagram 1) := by
  by_cases hid : AgreesAt ip datagram 0 ∨ AgreesAt ip datagram 1
  · by_cases hname : HasName ip datagram
    -- a name is returned
    · obtain ⟨labels, hne, hlabels, hshort⟩ := hname
      rw [resolve_of_labelsAt hid hne hlabels hshort]
      exact ⟨fun _ => .inl ⟨labels, hne, hlabels, hshort⟩, fun _ e he => by cases he⟩
    -- without one an index error is raised
    · obtain ⟨e, he, hresolve⟩ := resolve_of_not_hasName malformed hid hname
      constructor
      · intro h
        exact absurd (h e hresolve) he
      · rintro (h | ⟨h₀, h₁⟩)
        · exact absurd h hname
        · exact (hid.elim h₀ h₁).elim
  -- a response with neither byte of the id is refused with an `IOException`
  · have hid' : ¬ AgreesAt ip datagram 0 ∧ ¬ AgreesAt ip datagram 1 := not_or.mp hid
    rw [resolve_of_not_agreesAt malformed hid']
    exact ⟨fun _ => .inr hid', fun _ e he => by cases he⟩

/-- An empty datagram has the first byte of the id for 10.0.0.5, and it is decoded. -/
theorem empty_response_raises :
    resolve (fun _ => []) (fun _ => some []) (.inet4 10 0 0 5) =
      .error .negativeArraySizeException := by
  decide

end LanScan.Android.MDNSResolver
