/-!
# UTF-16 on lists

The code units of a text.  A character outside the basic plane is a pair of surrogates, and no
character is one of the two alone.

Key results:
- `utf16_injective`: different texts have different code units
-/

/-- A character of the basic plane is one unit, any other one a high and a low surrogate. -/
def Char.utf16 (c : Char) : List UInt16 :=
  if c.toNat < 0x10000 then [UInt16.ofNat c.toNat]
  else
    let n := c.toNat - 0x10000
    [UInt16.ofNat (0xD800 + n / 0x400), UInt16.ofNat (0xDC00 + n % 0x400)]

/-- A character is no surrogate and at most 0x10FFFF. -/
theorem Char.toNat_range (c : Char) :
    c.toNat < 0xD800 ∨ 0xDFFF < c.toNat ∧ c.toNat < 0x110000 :=
  c.valid

/-- Every character takes a unit or two. -/
theorem Char.utf16_ne_nil (c : Char) : c.utf16 ≠ [] := by
  unfold Char.utf16
  split <;> simp

namespace List

/-- The UTF-16 code units of a text. -/
def utf16 (text : List Char) : List UInt16 := text.flatMap Char.utf16

/-- A text is encoded character by character. -/
theorem utf16_cons (c : Char) (text : List Char) : utf16 (c :: text) = c.utf16 ++ utf16 text :=
  rfl

/-- Two numbers below 2 ^ 16 with the same unit are equal. -/
theorem ofNat_inj_of_lt {m n : Nat} (hm : m < 0x10000) (hn : n < 0x10000)
    (h : UInt16.ofNat m = UInt16.ofNat n) : m = n := by
  have htoNat := congrArg UInt16.toNat h
  rwa [UInt16.toNat_ofNat_of_lt' hm, UInt16.toNat_ofNat_of_lt' hn] at htoNat

/-- The units of a character tell where it ends. -/
theorem utf16_append_inj {c d : Char} {us vs : List UInt16}
    (h : c.utf16 ++ us = d.utf16 ++ vs) : c = d ∧ us = vs := by
  have hc := c.toNat_range
  have hd := d.toNat_range
  suffices hnat : c.toNat = d.toNat ∧ us = vs from ⟨Char.toNat_inj.mp hnat.1, hnat.2⟩
  unfold Char.utf16 at h
  split at h <;> split at h <;>
    simp only [cons_append, nil_append, cons.injEq] at h
  · exact ⟨ofNat_inj_of_lt (by omega) (by omega) h.1, h.2⟩
  -- the first unit of a pair is a high surrogate, which no character of the basic plane is
  · have hunit := ofNat_inj_of_lt (by omega) (by omega) h.1
    omega
  · have hunit := ofNat_inj_of_lt (by omega) (by omega) h.1
    omega
  · have hhigh := ofNat_inj_of_lt (by omega) (by omega) h.1
    have hlow := ofNat_inj_of_lt (by omega) (by omega) h.2.1
    exact ⟨by omega, h.2.2⟩

/-- Different texts have different units. -/
theorem utf16_injective {text text' : List Char} (h : utf16 text = utf16 text') :
    text = text' := by
  induction text generalizing text' with
  | nil =>
    cases text' with
    | nil => rfl
    | cons d text' =>
      rw [utf16_cons] at h
      exact absurd (append_eq_nil_iff.mp h.symm).1 (Char.utf16_ne_nil d)
  | cons c text ih =>
    cases text' with
    | nil =>
      rw [utf16_cons] at h
      exact absurd (append_eq_nil_iff.mp h).1 (Char.utf16_ne_nil c)
    | cons d text' =>
      rw [utf16_cons, utf16_cons] at h
      -- the first units tell the first character
      obtain ⟨rfl, hrest⟩ := utf16_append_inj h
      rw [ih hrest]

/-- Texts are equal if their units are. -/
@[simp] theorem utf16_inj {text text' : List Char} : utf16 text = utf16 text' ↔ text = text' :=
  ⟨utf16_injective, fun h => h ▸ rfl⟩

end List
