import LanScan.ForStd.Int
import LanScan.ForStd.List

/-!
# IPv4 addresses

An address as its four bytes: the number it stands for and its dotted quad.

## Key results

- `splitOn_text`: the parts of the dotted quad
- `text_injective`: different addresses have different dotted quads
- `toNat_ofInt`, `ofInt_toNat`: the addresses are the numbers of 32 bits
- `ofInt_eq_ofInt_iff`: two numbers stand for one address when they agree on 32 bits
-/

namespace LanScan

/-- An IPv4 address. -/
structure Ipv4 where
  b₀ : UInt8
  b₁ : UInt8
  b₂ : UInt8
  b₃ : UInt8
  deriving DecidableEq, Repr

/-! ## Decimal bytes -/

/-- A byte in decimal. -/
def octet (b : UInt8) : List Char := Nat.toDigits 10 b.toNat

/-- A byte has a digit at least. -/
theorem octet_ne_nil (b : UInt8) : octet b ≠ [] := Nat.toDigits_ne_nil

/-- The digits of a byte are digits. -/
theorem isDigit_of_mem_octet {b : UInt8} {c : Char} (h : c ∈ octet b) : c.isDigit = true :=
  Nat.isDigit_of_mem_toDigits (by omega) (by omega) h

/-- No digit is a dot. -/
theorem dot_notMem_octet (b : UInt8) : '.' ∉ octet b := by
  intro h
  have hdigit := isDigit_of_mem_octet h
  simp at hdigit

/-- A byte has three digits at most. -/
theorem length_octet_le (b : UInt8) : (octet b).length ≤ 3 := by
  have hlt := b.toNat_lt
  exact (Nat.length_toDigits_le_iff (by omega) (by omega)).mpr (by omega)

/-- The digits of a byte are read back. -/
theorem ofDigitChars_octet (b : UInt8) : Nat.ofDigitChars 10 (octet b) 0 = b.toNat :=
  Nat.ofDigitChars_ten_toDigits

/-- Bytes with the same digits are equal. -/
theorem octet_injective {b b' : UInt8} (h : octet b = octet b') : b = b' := by
  apply UInt8.toNat_inj.mp
  rw [← ofDigitChars_octet, h, ofDigitChars_octet]

/-- `toString` writes the digits of a byte. -/
theorem toList_toString_toNat (b : UInt8) : (toString b.toNat).toList = octet b := by
  rw [Nat.toString_eq_ofList_toDigits, String.toList_ofList]
  rfl

namespace Ipv4

/-! ## Dotted quads -/

/-- The address as a dotted quad. -/
def text (a : Ipv4) : String :=
  toString a.b₀.toNat ++ "." ++ toString a.b₁.toNat ++ "." ++ toString a.b₂.toNat ++ "." ++
    toString a.b₃.toNat

/-- The parts of the dotted quad. -/
def parts (a : Ipv4) : List (List Char) := [octet a.b₀, octet a.b₁, octet a.b₂, octet a.b₃]

/-- The text of an address is its parts with dots between them. -/
theorem toList_text (a : Ipv4) : a.text.toList = ['.'].intercalate a.parts := by
  have hdots : a.text.toList = (toString a.b₀.toNat).toList ++
      '.' :: (toString a.b₁.toNat).toList ++ '.' :: (toString a.b₂.toNat).toList ++
      '.' :: (toString a.b₃.toNat).toList := by simp [text]
  rw [hdots]
  simp only [toList_toString_toNat, parts]
  simp

/-- The text is split into its parts again. -/
theorem splitOn_text (a : Ipv4) : a.text.toList.splitOn '.' = a.parts := by
  rw [toList_text]
  exact List.splitOn_intercalate '.' (by simp [parts, dot_notMem_octet]) (by simp [parts])

/-- No part is empty. -/
theorem ne_nil_of_mem_parts {a : Ipv4} {part : List Char} (h : part ∈ a.parts) : part ≠ [] := by
  simp only [parts, List.mem_cons, List.not_mem_nil, or_false] at h
  rcases h with rfl | rfl | rfl | rfl <;> exact octet_ne_nil _

/-- Different addresses have different dotted quads. -/
theorem text_injective {a a' : Ipv4} (h : a.text = a'.text) : a = a' := by
  have hparts : a.parts = a'.parts := by rw [← splitOn_text, h, splitOn_text]
  obtain ⟨b₀, b₁, b₂, b₃⟩ := a
  obtain ⟨b₀', b₁', b₂', b₃'⟩ := a'
  simp only [parts, List.cons.injEq, and_true] at hparts
  obtain ⟨h₀, h₁, h₂, h₃⟩ := hparts
  rw [octet_injective h₀, octet_injective h₁, octet_injective h₂, octet_injective h₃]

/-! ## Numbers -/

/-- The address that the low 32 bits of a number stand for. -/
def ofInt (x : Int) : Ipv4 where
  b₀ := UInt8.ofNat (x / 2 ^ 24 % 256).toNat
  b₁ := UInt8.ofNat (x / 2 ^ 16 % 256).toNat
  b₂ := UInt8.ofNat (x / 2 ^ 8 % 256).toNat
  b₃ := UInt8.ofNat (x / 2 ^ 0 % 256).toNat

/-- The byte of a number modulo 256. -/
theorem toNat_ofNat_emod (x : Int) : ((UInt8.ofNat (x % 256).toNat).toNat : Int) = x % 256 := by
  rw [UInt8.toNat_ofNat']
  omega

/-- Numbers that agree in their low 32 bits stand for one address. -/
theorem ofInt_eq_ofInt_iff {x y : Int} : ofInt x = ofInt y ↔ x % 2 ^ 32 = y % 2 ^ 32 := by
  have hbyte (u v : Int) : UInt8.ofNat (u % 256).toNat = UInt8.ofNat (v % 256).toNat ↔
      u % 256 = v % 256 := by
    rw [← UInt8.toNat_inj, ← Int.ofNat_inj, toNat_ofNat_emod, toNat_ofNat_emod]
  simp only [ofInt, Ipv4.mk.injEq, hbyte]
  omega

/-- The bytes in the other order. -/
def reverse (a : Ipv4) : Ipv4 := ⟨a.b₃, a.b₂, a.b₁, a.b₀⟩

/-- The number of an address. -/
def toNat (a : Ipv4) : Nat :=
  a.b₀.toNat * 2 ^ 24 + a.b₁.toNat * 2 ^ 16 + a.b₂.toNat * 2 ^ 8 + a.b₃.toNat

/-- An address is a number of 32 bits. -/
theorem toNat_lt (a : Ipv4) : a.toNat < 2 ^ 32 := by
  have h₀ := a.b₀.toNat_lt
  have h₁ := a.b₁.toNat_lt
  have h₂ := a.b₂.toNat_lt
  have h₃ := a.b₃.toNat_lt
  unfold toNat
  omega

/-- The number of the address that a number stands for is its low 32 bits. -/
theorem toNat_ofInt (x : Int) : ((ofInt x).toNat : Int) = x % 2 ^ 32 := by
  have hbyte := toNat_ofNat_emod
  simp only [toNat, ofInt, Int.natCast_add, Int.natCast_mul, hbyte]
  omega

/-- Every number of 32 bits is that of an address. -/
theorem ofInt_toNat (a : Ipv4) : ofInt a.toNat = a := by
  obtain ⟨b₀, b₁, b₂, b₃⟩ := a
  -- Each byte is a digit of the number to base 256.
  have hbyte (b : UInt8) (x : Int) (h : x % 256 = b.toNat) : UInt8.ofNat (x % 256).toNat = b := by
    rw [h, Int.toNat_natCast, UInt8.ofNat_toNat]
  have h₀ := b₀.toNat_lt
  have h₁ := b₁.toNat_lt
  have h₂ := b₂.toNat_lt
  have h₃ := b₃.toNat_lt
  simp only [ofInt, toNat, Ipv4.mk.injEq]
  refine ⟨hbyte _ _ ?_, hbyte _ _ ?_, hbyte _ _ ?_, hbyte _ _ ?_⟩ <;> omega

end Ipv4

end LanScan
