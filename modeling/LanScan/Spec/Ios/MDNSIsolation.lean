import LanScan.Spec.Ios.MDNSLookup

/-!
# Whose answer is it? (iOS)

The sockets of addresses with the same last byte are bound to the same port, and the
id of the request is all that tells their answers apart.

## Key results

- `idLow_eq_iff`, `idHigh_eq_iff`: when two addresses share a byte of their ids
- `isolated_iff`: when no answer for one address is taken for the other one
-/

namespace LanScan.Ios.MDNSResolver

variable {a b : Ipv4}

/-! ## Ids -/

/-- Equal ports mean equal last bytes. -/
theorem eq_of_getBindPort_eq (h : getBindPort a.text = getBindPort b.text) : a.b₃ = b.b₃ := by
  have ha := a.b₃.toNat_lt
  have hb := b.b₃.toNat_lt
  rw [getBindPort_text, getBindPort_text, Option.some.injEq] at h
  have hint := congrArg Int64.toInt h
  rw [toInt_ofInt (by omega) (by omega), toInt_ofInt (by omega) (by omega)] at hint
  apply UInt8.toNat_inj.mp
  omega

/-- The lower byte of the id. -/
theorem toNat_idLow (a : Ipv4) : (idLow a).toNat = requestID a % 256 := by
  rw [idLow, UInt8.toNat_ofNat']
  omega

/-- The id is taken from the last two bytes to the base 255, not 256. -/
theorem toNat_idHigh (a : Ipv4) : (idHigh a).toNat =
    if a.b₂.toNat ≤ a.b₃.toNat then a.b₂.toNat else a.b₂.toNat - 1 := by
  have h₂ := a.b₂.toNat_lt
  have h₃ := a.b₃.toNat_lt
  -- The id is `256 * b₂ + (b₃ - b₂)`, so the high byte borrows one if `b₃ < b₂`.
  have hdiv : requestID a / 256 =
      if a.b₂.toNat ≤ a.b₃.toNat then a.b₂.toNat else a.b₂.toNat - 1 := by
    rw [requestID]
    split
    · exact Nat.div_eq_of_lt_le (by omega) (by omega)
    · exact Nat.div_eq_of_lt_le (by omega) (by omega)
  rw [idHigh, UInt8.toNat_ofNat', hdiv]
  split <;> omega

/-- Among addresses with the same last byte, the third byte decides on the low byte of
    the id. -/
theorem idLow_eq_iff (h : a.b₃ = b.b₃) : idLow a = idLow b ↔ a.b₂ = b.b₂ := by
  have ha₂ := a.b₂.toNat_lt
  have hb₂ := b.b₂.toNat_lt
  rw [← UInt8.toNat_inj, toNat_idLow, toNat_idLow, ← UInt8.toNat_inj]
  simp only [requestID, h]
  omega

/-- The high byte is the third byte, or one less where that is above the last byte. -/
theorem idHigh_eq_iff (h : a.b₃ = b.b₃) : idHigh a = idHigh b ↔ a.b₂ = b.b₂ ∨
    (a.b₂ = a.b₃ ∧ b.b₂.toNat = a.b₃.toNat + 1) ∨
    (b.b₂ = a.b₃ ∧ a.b₂.toNat = a.b₃.toNat + 1) := by
  have ha₂ := a.b₂.toNat_lt
  have hb₂ := b.b₂.toNat_lt
  have hb₃ := b.b₃.toNat_lt
  rw [← UInt8.toNat_inj, toNat_idHigh, toNat_idHigh, ← h]
  simp only [← UInt8.toNat_inj]
  split <;> split <;> omega

/-! ## Responses -/

/-- A response whose id differs in both bytes is dropped. -/
theorem channelRead_of_ne {b₀ b₁ : UInt8} {rest : List UInt8} (h₀ : b₀ ≠ idHigh a)
    (h₁ : b₁ ≠ idLow a) : channelRead a.text (b₀ :: b₁ :: rest) = some none := by
  have hquery₀ : (a.query (idHigh a) (idLow a))[0]? = some (idHigh a) := rfl
  have hquery₁ : (a.query (idHigh a) (idLow a))[1]? = some (idLow a) := rfl
  unfold channelRead channelReadWith
  simp only [calculateRequestID_text, reverseName_text, dnsRequest_reverseName, bind, Option.bind,
    hquery₀, hquery₁, List.getElem?_cons_zero, List.getElem?_cons_succ]
  rw [if_pos h₀, if_pos h₁]
  rfl

/-- A response with the name `x` and nothing else. -/
def namedX : DnsResponse where
  flags := #v[0x84, 0]
  counts := #v[0, 1, 0, 0, 0, 0]
  shape := .plain
  recordHead := #v[0, 12, 0, 1, 0, 0, 0, 120, 0, 3]
  target := [⟨[120], by decide, by decide, by simp, by decide⟩]
  target_ne_nil := by decide
  trailing := []

/-- **Isolation.** Of two addresses with the same port, the first one never takes a
    datagram with the id of the second one for its own answer, if and only if their third
    bytes differ, and are not the last byte and its successor. -/
theorem isolated_iff (hport : getBindPort a.text = getBindPort b.text) :
    (∀ request datagram, writeRequest b.text = some (some request) →
      datagram.take 2 = request.take 2 → ∀ name, channelRead a.text datagram ≠ some (some name)) ↔
    a.b₂ ≠ b.b₂ ∧ ¬ (a.b₂ = a.b₃ ∧ b.b₂.toNat = a.b₃.toNat + 1) ∧
      ¬ (b.b₂ = a.b₃ ∧ a.b₂.toNat = a.b₃.toNat + 1) := by
  have hlast := eq_of_getBindPort_eq hport
  have hboth : (a.b₂ ≠ b.b₂ ∧ ¬ (a.b₂ = a.b₃ ∧ b.b₂.toNat = a.b₃.toNat + 1) ∧
      ¬ (b.b₂ = a.b₃ ∧ a.b₂.toNat = a.b₃.toNat + 1)) ↔
      ¬ idHigh a = idHigh b ∧ ¬ idLow a = idLow b := by
    rw [idHigh_eq_iff hlast, idLow_eq_iff hlast]
    grind -ring -linarith
  rw [hboth]
  constructor
  · intro h
    -- an answer in the layout for `a` with the id of `b` is taken when a byte agrees
    have htaken : ¬ (idHigh a = idHigh b ∨ idLow a = idLow b) := fun hid =>
      h _ (namedX.bytes a (a.query (idHigh b) (idLow b))) (writeRequest_text b) rfl _
        (channelRead_bytes_of_id rfl namedX hid)
    exact not_or.mp htaken
  · rintro ⟨hhigh, hlow⟩ request datagram hrequest htake name
    rw [writeRequest_text, Option.some.injEq, Option.some.injEq] at hrequest
    have hid : datagram.take 2 = [idHigh b, idLow b] := by
      rw [htake, ← hrequest]
      rfl
    rw [← List.take_append_drop 2 datagram, hid]
    show channelRead a.text (idHigh b :: idLow b :: datagram.drop 2) ≠ _
    rw [channelRead_of_ne (Ne.symm hhigh) (Ne.symm hlow)]
    nofun

/-- 10.0.4.5 never takes an answer for 10.0.6.5 for its own. -/
theorem isolated_iff_apart : ∃ request,
    writeRequest (Ipv4.mk 10 0 6 5).text = some (some request) ∧
      ∀ datagram, datagram.take 2 = request.take 2 →
        ∀ name, channelRead (Ipv4.mk 10 0 4 5).text datagram ≠ some (some name) := by
  have hport : getBindPort (Ipv4.mk 10 0 4 5).text = getBindPort (Ipv4.mk 10 0 6 5).text := by
    rw [getBindPort_text, getBindPort_text]
  have hrequest := writeRequest_text (Ipv4.mk 10 0 6 5)
  have hisolated := (isolated_iff hport).mpr (by decide)
  exact ⟨_, hrequest, fun datagram htake => hisolated _ datagram hrequest htake⟩

/-! ## A name that crosses over -/

/-- In 10.0.4.0/22 the answer for 10.0.6.5, with the id `[5, 255]`, is taken for one for
    10.0.5.5, with the id `[5, 0]`. -/
theorem name_crosses : ¬ ∀ (ipv4 cidrPrefixLength : Int64) (plan : ScanPlan) (i j : Int)
    (x y : String) (request datagram : List UInt8), scanPlan ipv4 cidrPrefixLength = some plan →
    (0 ≤ i ∧ i < plan.numberOfHosts.toInt) → (0 ≤ j ∧ j < plan.numberOfHosts.toInt) →
    plan.ipAddress i = some x → plan.ipAddress j = some y → x ≠ y →
    getBindPort x = getBindPort y → writeRequest y = some (some request) →
    datagram.take 2 = request.take 2 → ∀ name, channelRead x datagram ≠ some (some name) := by
  intro h
  have hrequest := writeRequest_text ⟨10, 0, 6, 5⟩
  -- Two hosts of one subnet whose ids, 1280 and 1535, share the first byte.
  refine h 0x0A000401 22 ⟨1022, 40, 0x0A000401⟩ 260 516 (Ipv4.mk 10 0 5 5).text
    (Ipv4.mk 10 0 6 5).text _ (namedX.bytes ⟨10, 0, 6, 5⟩ _) (by decide) (by decide) (by decide)
    ?_ ?_ ?_ ?_ hrequest rfl _ (channelRead_bytes_of_id (by decide) namedX (.inl (by decide)))
  · exact ipAddress_eq (by decide) (by decide)
  · exact ipAddress_eq (by decide) (by decide)
  · intro htext
    exact absurd (Ipv4.text_injective htext) (by decide)
  · rw [getBindPort_text, getBindPort_text]

end LanScan.Ios.MDNSResolver
