import LanScan.Spec.Android.MDNSLookup
import LanScan.Spec.Ios.MDNSLookup

/-!
# The ids of requests

The id of a request combines the last two bytes of the address to the base 255, where a
byte has 256 values: signed on Android and unsigned on iOS.  The largest byte and the
smallest one behind its successor have the same id.

## Key results

- `combine_eq_iff`: the combination, for both readings of a byte
- `ids_differ_iff`: when two addresses of a subnet have different ids
-/

namespace LanScan

open Android.MDNSResolver (inet)
open Ios.MDNSResolver (writeRequest)

/-! ## Combining bytes -/

/-- The value of a byte without a sign. -/
def unsignedByte (b : UInt8) : Int := b.toNat

/-- The value of a byte with a sign. -/
def signedByte (b : UInt8) : Int := b.toInt8.toInt

/-- The id for a reading `v` of the bytes. -/
def combine (v : UInt8 → Int) (a : Ipv4) : Int := v a.b₂ * 255 + v a.b₃

/-- The third byte of `b` follows that of `a`, and their last bytes are the least and the
    greatest one, for a reading of the bytes from `least` on. -/
def Carry (v : UInt8 → Int) (least : Int) (a b : Ipv4) : Prop :=
  v b.b₂ = v a.b₂ + 1 ∧ v a.b₃ = least + 255 ∧ v b.b₃ = least

instance (v : UInt8 → Int) (least : Int) (a b : Ipv4) : Decidable (Carry v least a b) :=
  inferInstanceAs (Decidable (_ ∧ _ ∧ _))

/-- A reading of the bytes as 256 successive numbers. -/
structure Reading (v : UInt8 → Int) (least : Int) : Prop where
  injective : ∀ b b', v b = v b' → b = b'
  least_le : ∀ b, least ≤ v b
  le_greatest : ∀ b, v b ≤ least + 255

/-- iOS reads bytes without sign. -/
theorem reading_unsignedByte : Reading unsignedByte 0 where
  injective b b' h := UInt8.toNat_inj.mp (Int.ofNat_inj.mp h)
  least_le b := Int.natCast_nonneg _
  le_greatest b := by
    have := b.toNat_lt
    simp only [unsignedByte]
    omega

/-- Android reads bytes with sign. -/
theorem reading_signedByte : Reading signedByte (-128) where
  -- Bytes from 128 on read as 256 less, so two bytes still read differently.
  injective b b' h := by
    have hb := b.toNat_lt
    have hb' := b'.toNat_lt
    simp only [signedByte, Android.MDNSResolver.toInt_toInt8] at h
    apply UInt8.toNat_inj.mp
    split at h <;> split at h <;> omega
  least_le b := by
    have := b.toNat_lt
    simp only [signedByte, Android.MDNSResolver.toInt_toInt8]
    split <;> omega
  le_greatest b := by
    have := b.toNat_lt
    simp only [signedByte, Android.MDNSResolver.toInt_toInt8]
    split <;> omega

section Combine

variable {v : UInt8 → Int} {least : Int} {a b : Ipv4}

/-- Sixteen bits are enough for the id. -/
theorem combine_emod_eq_iff (h : Reading v least) :
    combine v a % 65536 = combine v b % 65536 ↔ combine v a = combine v b := by
  -- The octets read within a range of 256, so ids differ by less than 2¹⁶.
  have ha₂ := h.least_le a.b₂
  have ha₂' := h.le_greatest a.b₂
  have ha₃ := h.least_le a.b₃
  have ha₃' := h.le_greatest a.b₃
  have hb₂ := h.least_le b.b₂
  have hb₂' := h.le_greatest b.b₂
  have hb₃ := h.least_le b.b₃
  have hb₃' := h.le_greatest b.b₃
  simp only [combine]
  omega

/-- Ids are equal for equal bytes, and at the carry. -/
theorem combine_eq_iff (h : Reading v least) : combine v a = combine v b ↔
    (a.b₂ = b.b₂ ∧ a.b₃ = b.b₃) ∨ Carry v least a b ∨ Carry v least b a := by
  have ha₃ := h.least_le a.b₃
  have ha₃' := h.le_greatest a.b₃
  have hb₃ := h.least_le b.b₃
  have hb₃' := h.le_greatest b.b₃
  simp only [combine, Carry]
  constructor
  · intro heq
    -- Fourth octets differ by 255 at most, so third octets differ by one at most.
    obtain h₂ | h₂ | h₂ : v a.b₂ = v b.b₂ ∨ v b.b₂ = v a.b₂ + 1 ∨ v a.b₂ = v b.b₂ + 1 := by omega
    · exact .inl ⟨h.injective _ _ h₂, h.injective _ _ (by omega)⟩
    · exact .inr (.inl ⟨h₂, by omega, by omega⟩)
    · exact .inr (.inr ⟨h₂, by omega, by omega⟩)
  · rintro (⟨h₂, h₃⟩ | ⟨h₂, h₃, h₃'⟩ | ⟨h₂, h₃, h₃'⟩)
    · rw [h₂, h₃]
    · omega
    · omega

end Combine

/-- On iOS 10.0.5.255 and 10.0.6.0 are at the carry. -/
example : Carry unsignedByte 0 ⟨10, 0, 5, 255⟩ ⟨10, 0, 6, 0⟩ := by decide

/-! ## Android -/

namespace Android.MDNSResolver

/-- The bits of an `Int` as a number. -/
theorem toNat_toUInt32 (v : Int32) : (v.toUInt32.toNat : Int) = v.toInt % 2 ^ 32 := by
  have hlt := v.toBitVec.isLt
  have hint : v.toInt = v.toBitVec.toInt := rfl
  have hnat : v.toUInt32.toNat = v.toBitVec.toNat := rfl
  rw [hint, hnat, BitVec.toInt_eq_toNat_cond]
  split <;> omega

/-- `writeShort` keeps the last 16 bits. -/
theorem writeShort_eq_iff (v w : Int32) :
    writeShort v = writeShort w ↔ v.toInt % 65536 = w.toInt % 65536 := by
  have hv := toNat_toUInt32 v
  have hw := toNat_toUInt32 w
  simp only [writeShort, List.cons.injEq, and_true, ← UInt8.toNat_inj, UInt32.toNat_toUInt8,
    UInt32.toNat_shiftRight, Nat.shiftRight_eq_div_pow]
  rw [show ((8 : UInt32).toNat % 32) = 8 from rfl]
  omega

/-- Android's id combines the last bytes with sign. -/
theorem toInt_requestId (a : Ipv4) :
    (requestId (inet a).address).toInt = combine signedByte a := by
  have h₂ := reading_signedByte.least_le a.b₂
  have h₂' := reading_signedByte.le_greatest a.b₂
  have h₃ := reading_signedByte.least_le a.b₃
  have h₃' := reading_signedByte.le_greatest a.b₃
  simp only [signedByte] at h₂ h₂' h₃ h₃'
  -- The product stays inside 32 bits, so `Int` arithmetic does not wrap.
  have hproduct : (a.b₂.toInt8.toInt * 255).bmod (2 ^ 32) = a.b₂.toInt8.toInt * 255 :=
    Int.bmod_eq_of_le (by omega) (by omega)
  show (a.b₂.toInt8.toInt32 * 0xFF + a.b₃.toInt8.toInt32).toInt = _
  rw [Int32.toInt_add, Int32.toInt_mul, Int8.toInt_toInt32, Int8.toInt_toInt32,
    show (0xFF : Int32).toInt = 255 by decide, hproduct, Int.bmod_eq_of_le (by omega) (by omega)]
  rfl

/-- The request starts with the id. -/
theorem take_two_request (a : Ipv4) :
    (request (inet a).address).take 2 = writeShort (requestId (inet a).address) := rfl

end Android.MDNSResolver

/-! ## iOS -/

namespace Ios.MDNSResolver

/-- The id of iOS combines the last bytes without sign. -/
theorem requestID_eq_combine (a : Ipv4) : (requestID a : Int) = combine unsignedByte a := by
  simp [requestID, combine, unsignedByte]

/-- The two bytes of the id tell it. -/
theorem id_eq_iff {a b : Ipv4} :
    [idHigh a, idLow a] = [idHigh b, idLow b] ↔ requestID a = requestID b := by
  have ha := requestID_lt a
  have hb := requestID_lt b
  simp only [List.cons.injEq, and_true, ← UInt8.toNat_inj, idHigh, idLow, UInt8.toNat_ofNat']
  omega

end Ios.MDNSResolver

/-! ## Both -/

/-- **Ids.** Two addresses that differ in their last two bytes have different ids on both
    platforms, if and only if they are not at the carry, of signed bytes or of unsigned
    ones. -/
theorem ids_differ_iff (a b : Ipv4) (hne : a ≠ b) (h₀ : a.b₀ = b.b₀) (h₁ : a.b₁ = b.b₁) :
    ((Android.MDNSResolver.request (inet a).address).take 2 ≠
        (Android.MDNSResolver.request (inet b).address).take 2 ∧
      ∀ requestA requestB, writeRequest a.text = some (some requestA) →
        writeRequest b.text = some (some requestB) → requestA.take 2 ≠ requestB.take 2) ↔
    (¬ Carry signedByte (-128) a b ∧ ¬ Carry signedByte (-128) b a) ∧
      ¬ Carry unsignedByte 0 a b ∧ ¬ Carry unsignedByte 0 b a := by
  -- the addresses differ in their last two bytes
  have hbytes : ¬ (a.b₂ = b.b₂ ∧ a.b₃ = b.b₃) := by
    rintro ⟨h₂, h₃⟩
    obtain ⟨_, _, _, _⟩ := a
    obtain ⟨_, _, _, _⟩ := b
    exact hne (Ipv4.mk.injEq .. ▸ ⟨h₀, h₁, h₂, h₃⟩)
  -- so their ids are equal only by a carry: on Android
  have handroid : (Android.MDNSResolver.request (inet a).address).take 2 ≠
      (Android.MDNSResolver.request (inet b).address).take 2 ↔
      ¬ Carry signedByte (-128) a b ∧ ¬ Carry signedByte (-128) b a := by
    rw [Android.MDNSResolver.take_two_request, Android.MDNSResolver.take_two_request, Ne,
      Android.MDNSResolver.writeShort_eq_iff, Android.MDNSResolver.toInt_requestId,
      Android.MDNSResolver.toInt_requestId, combine_emod_eq_iff reading_signedByte,
      combine_eq_iff reading_signedByte, or_iff_right hbytes, not_or]
  -- and on iOS, where the request can always be written
  have hios : (∀ requestA requestB, writeRequest a.text = some (some requestA) →
      writeRequest b.text = some (some requestB) → requestA.take 2 ≠ requestB.take 2) ↔
      ¬ Carry unsignedByte 0 a b ∧ ¬ Carry unsignedByte 0 b a := by
    rw [← not_or, ← or_iff_right (b := _ ∨ _) hbytes, ← combine_eq_iff reading_unsignedByte,
      ← Ios.MDNSResolver.requestID_eq_combine, ← Ios.MDNSResolver.requestID_eq_combine,
      Int.ofNat_inj, ← Ios.MDNSResolver.id_eq_iff, Ios.MDNSResolver.writeRequest_text,
      Ios.MDNSResolver.writeRequest_text]
    constructor
    · intro h
      exact h _ _ rfl rfl
    · rintro h _ _ ⟨⟩ ⟨⟩
      exact h
  rw [handroid, hios]

/-- The ids of 10.0.5.1 and 10.0.6.1 differ on both platforms. -/
theorem ids_differ_neighbours :
    ((Android.MDNSResolver.request (inet ⟨10, 0, 5, 1⟩).address).take 2 ≠
        (Android.MDNSResolver.request (inet ⟨10, 0, 6, 1⟩).address).take 2 ∧
      ∀ requestA requestB, writeRequest (Ipv4.mk 10 0 5 1).text = some (some requestA) →
        writeRequest (Ipv4.mk 10 0 6 1).text = some (some requestB) →
        requestA.take 2 ≠ requestB.take 2) :=
  (ids_differ_iff ⟨10, 0, 5, 1⟩ ⟨10, 0, 6, 1⟩ (by decide) rfl rfl).mpr (by decide)

/-- 10.0.5.127 and 10.0.6.128 have the same id on Android. -/
theorem ids_collide : ¬ ∀ a b : Ipv4, a ≠ b → a.b₀ = b.b₀ → a.b₁ = b.b₁ →
    (Android.MDNSResolver.request (inet a).address).take 2 ≠
        (Android.MDNSResolver.request (inet b).address).take 2 ∧
      ∀ requestA requestB, writeRequest a.text = some (some requestA) →
        writeRequest b.text = some (some requestB) → requestA.take 2 ≠ requestB.take 2 := by
  intro h
  exact (h ⟨10, 0, 5, 127⟩ ⟨10, 0, 6, 128⟩ (by decide) rfl rfl).1 (by decide)

end LanScan
