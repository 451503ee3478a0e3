import LanScan.Spec.Ios.MDNSLookup

/-!
# Datagrams that trap (iOS)

For which datagrams `ChatMessageDecoder.channelRead` runs to its end.  It reads bytes 0, 1
and 5 without a look at the length of the datagram, and slices out labels by the lengths
that it finds in it.

## Key results

- `decodeLoop_ne_none_iff`: the slices stay in range exactly when the labels do
- `channelRead_ne_none_iff`: which datagrams do not trap
-/

namespace LanScan.Ios.MDNSResolver

/-- Every label from position `i` on lies in the datagram, up to a zero byte, the end, or
    a label that is not UTF-8. -/
inductive LabelsInRange (bytes : List UInt8) : Nat → Prop
  | stop {i} (hstop : bytes.length ≤ i) : LabelsInRange bytes i
  | zero {i} (hzero : bytes[i]? = some 0) : LabelsInRange bytes i
  | malformed {i len} (hlen : bytes[i]? = some len) (hne : len ≠ 0)
      (hwhole : i + 1 + len.toNat ≤ bytes.length)
      (htext : ((bytes.drop (i + 1)).take len.toNat).utf8Text? = none) : LabelsInRange bytes i
  | label {i len text} (hlen : bytes[i]? = some len) (hne : len ≠ 0)
      (hwhole : i + 1 + len.toNat ≤ bytes.length)
      (htext : ((bytes.drop (i + 1)).take len.toNat).utf8Text? = some text)
      (hrest : LabelsInRange bytes (i + 1 + len.toNat)) : LabelsInRange bytes i

variable {bytes : List UInt8} {i : Nat}

/-- The loop of `decodeName` does not trap on labels that lie in the datagram. -/
theorem decodeLoop_ne_none (h : LabelsInRange bytes i) {fuel : Nat}
    (hfuel : bytes.length < i + fuel)
    (name : List Char) : decodeLoop bytes bytes.length fuel i name ≠ none := by
  induction h generalizing fuel name with
  | @stop i hstop =>
    cases fuel with
    | zero => exact Option.some_ne_none name
    | succ fuel =>
      rw [decodeLoop, if_neg (by omega)]
      exact Option.some_ne_none name
  | @zero i hzero =>
    have hi := (List.getElem?_eq_some_iff.mp hzero).1
    obtain ⟨fuel, rfl⟩ := Nat.exists_eq_add_of_le' (show 1 ≤ fuel by omega)
    rw [decodeLoop, if_pos (by omega), hzero]
    simp
  -- bytes that are no UTF-8 end the loop, and other labels let it go on
  | @malformed i len hlen hne hwhole htext =>
    obtain ⟨fuel, rfl⟩ := Nat.exists_eq_add_of_le' (show 1 ≤ fuel by omega)
    rw [decodeLoop, if_pos (by omega), hlen]
    simp [hne, slice, hwhole, htext]
  | @label i len text hlen hne hwhole htext hrest ih =>
    obtain ⟨fuel, rfl⟩ := Nat.exists_eq_add_of_le' (show 1 ≤ fuel by omega)
    rw [decodeLoop, if_pos (by omega), hlen]
    simp only [if_neg hne, slice, if_pos hwhole, htext]
    exact ih (by omega) _

/-- When the loop does not trap, the labels lie in the datagram. -/
theorem labelsInRange_of_decodeLoop {fuel : Nat} (hfuel : bytes.length < i + fuel)
    {name : List Char} (h : decodeLoop bytes bytes.length fuel i name ≠ none) :
    LabelsInRange bytes i := by
  induction fuel generalizing i name with
  | zero => exact .stop (by omega)
  | succ fuel ih =>
    -- the loop ends behind the bytes, at a zero, or at a label that is no UTF-8
    by_cases hi : bytes.length ≤ i
    · exact .stop hi
    · rw [decodeLoop, if_pos (by omega)] at h
      cases hlen : bytes[i]? with
      | none =>
        rw [hlen] at h
        exact absurd rfl h
      | some len =>
        rw [hlen] at h
        simp only at h
        by_cases hzero : len = 0
        · exact .zero (hzero ▸ hlen)
        · rw [if_neg hzero] at h
          by_cases hwhole : i + 1 + len.toNat ≤ bytes.length
          · cases htext : ((bytes.drop (i + 1)).take len.toNat).utf8Text? with
            | none => exact .malformed hlen hzero hwhole htext
            | some text =>
              simp only [slice, if_pos hwhole, htext] at h
              exact .label hlen hzero hwhole htext (ih (by omega) h)
          -- a slice past the end traps
          · simp only [slice, if_neg hwhole] at h
            exact absurd rfl h

/-- The datagram is not for the address: both bytes of its id differ. -/
def IdDiffers (a : Ipv4) (bytes : List UInt8) : Prop :=
  2 ≤ bytes.length ∧ bytes.getD 0 0 ≠ idHigh a ∧ bytes.getD 1 0 ≠ idLow a

/-- The datagram has a byte 5 and all its labels. -/
def Whole (a : Ipv4) (bytes : List UInt8) : Prop :=
  6 ≤ bytes.length ∧ LabelsInRange bytes (answerOffset a bytes)

/-- Fewer than six bytes are enough only for an id that differs. -/
theorem channelRead_of_length_lt (a : Ipv4) (h : bytes.length < 6) :
    channelRead a.text bytes ≠ none ↔ IdDiffers a bytes := by
  have hquery₀ : (a.query (idHigh a) (idLow a))[0]? = some (idHigh a) := rfl
  have hquery₁ : (a.query (idHigh a) (idLow a))[1]? = some (idLow a) := rfl
  have hfive : bytes[5]? = none := List.getElem?_eq_none (by omega)
  unfold channelRead channelReadWith IdDiffers
  simp only [calculateRequestID_text, reverseName_text, dnsRequest_reverseName, bind, Option.bind,
    hquery₀, hquery₁, hfive]
  -- Byte 5 is missing; the id check can only answer before if both bytes differ.
  match bytes with
  | [] => simp
  | [b₀] => by_cases h₀ : b₀ = idHigh a <;> simp [h₀]
  | b₀ :: b₁ :: rest =>
    by_cases h₀ : b₀ = idHigh a
    · simp [h₀]
    · by_cases h₁ : b₁ = idLow a <;> simp [h₀, h₁]

/-- `channelRead` does not trap on datagrams for others, and on whole ones. -/
theorem channelRead_text_ne_none_iff (a : Ipv4) (bytes : List UInt8) :
    channelRead a.text bytes ≠ none ↔ IdDiffers a bytes ∨ Whole a bytes := by
  by_cases hlength : bytes.length < 6
  -- the first six bytes are read without a check
  · have hwhole : ¬ Whole a bytes := fun h => absurd h.1 (by omega)
    rw [channelRead_of_length_lt a hlength, or_iff_left hwhole]
  · have hsix : 6 ≤ bytes.length := Nat.le_of_not_lt hlength
    -- the name is decoded as long as its labels are in range
    have hdecode : (decodeName bytes (answerOffset a bytes)
        (bytes.length - answerOffset a bytes)) ≠ none ↔ Whole a bytes := by
      have hstop : ((answerOffset a bytes : Int) + (bytes.length - answerOffset a bytes)) =
          bytes.length := by omega
      rw [decodeName, hstop]
      exact ⟨fun h => ⟨hsix, labelsInRange_of_decodeLoop (by omega) h⟩,
        fun h => decodeLoop_ne_none h.2 (by omega) []⟩
    rw [channelRead_text hsix]
    by_cases hid : bytes.getD 0 0 ≠ idHigh a ∧ bytes.getD 1 0 ≠ idLow a
    · have hdiffers : IdDiffers a bytes := ⟨by omega, hid⟩
      rw [if_pos hid]
      exact ⟨fun _ => .inl hdiffers, fun _ => Option.some_ne_none none⟩
    · have hdiffers : ¬ IdDiffers a bytes := fun h => hid h.2
      rw [if_neg hid, or_iff_right hdiffers, ← hdecode, Ne, Option.map_eq_none_iff]

/-- **No trap.** For every address that `getIPAddress` writes and every datagram,
    `channelRead` runs to its end if and only if both bytes of the id differ, or the
    datagram has at least six bytes and all its labels lie in it. -/
theorem channelRead_ne_none_iff (index : Int64) (bytes : List UInt8) :
    channelRead (getIPAddress index) bytes ≠ none ↔
      IdDiffers (Ipv4.ofInt index.toInt) bytes ∨ Whole (Ipv4.ofInt index.toInt) bytes :=
  channelRead_text_ne_none_iff (Ipv4.ofInt index.toInt) bytes

/-- A datagram of one byte, the first one of the id, traps at byte 5. -/
theorem channelRead_traps : ¬ ∀ index bytes, channelRead (getIPAddress index) bytes ≠ none := by
  intro h
  -- 10.0.0.5, whose id is `[0, 5]`
  have hends := (channelRead_text_ne_none_iff (Ipv4.ofInt 0x0A000005) [0]).mp (h 0x0A000005 [0])
  rcases hends with ⟨hlength, -⟩ | ⟨hlength, -⟩
  · exact absurd hlength (by decide)
  · exact absurd hlength (by decide)

end LanScan.Ios.MDNSResolver
