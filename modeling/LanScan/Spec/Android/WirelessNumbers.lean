import LanScan.ForStd.Popcount
import LanScan.Native.Android.Wireless
import LanScan.Spec.Ipv4

/-!
# Numbers and dotted quads (Android)

`Wireless` cuts a signed number into bytes: into the dotted quad of the address, and into
the same bytes in the other order.

## Key results

- `getInternalWifiIpString_eq`: the dotted quad of a number
- `toNat_reverseBytes`: the bytes in the other order
- `toInt_bitCount_eq`: the one bits of a number
-/

namespace LanScan.Android

/-! ## Bytes -/

/-- Masking leaves the lowest byte. -/
theorem toInt_and_255 (x : Int32) : (x &&& 0xFF).toInt = x.toInt % 256 := by
  have hnat : (x &&& 0xFF).toBitVec.toNat = x.toBitVec.toNat % 256 := by
    rw [Int32.toBitVec_and, BitVec.toNat_and]
    exact Nat.and_two_pow_sub_one_eq_mod x.toBitVec.toNat 8
  have hand := BitVec.toInt_eq_toNat_cond (x &&& 0xFF).toBitVec
  have hself := BitVec.toInt_eq_toNat_cond x.toBitVec
  show (x &&& 0xFF).toBitVec.toInt = x.toBitVec.toInt % 256
  split at hand <;> split at hself <;> omega

/-- An arithmetic shift divides, the sign included. -/
theorem toInt_shiftRight (x : Int32) {d : Int32} {s : Nat}
    (hs : (d.toBitVec.smod 32).toNat = s) : (x >>> d).toInt = x.toInt / 2 ^ s := by
  show (x >>> d).toBitVec.toInt = _
  rw [Int32.toBitVec_shiftRight, BitVec.sshiftRight_eq', BitVec.toInt_sshiftRight, hs,
    Int.shiftRight_eq_div_pow]
  exact_mod_cast rfl

/-- A byte of a number. -/
theorem toInt_byte (x : Int32) {d : Int32} {s : Nat}
    (hs : (d.toBitVec.smod 32).toNat = s) :
    (x >>> d &&& 0xFF).toInt = x.toInt / 2 ^ s % 256 := by
  rw [toInt_and_255, toInt_shiftRight x hs]

/-- A byte that is shifted down and masked is that byte of the number. -/
theorem toNat_byte (x : Int32) {d : Int32} {s : Nat}
    (hs : (d.toBitVec.smod 32).toNat = s) :
    (x >>> d &&& 0xFF).toBitVec.toNat = (UInt8.ofNat (x.toInt / 2 ^ s % 256).toNat).toNat := by
  have hint : (x >>> d &&& 0xFF).toBitVec.toInt =
      ((UInt8.ofNat (x.toInt / 2 ^ s % 256).toNat).toNat : Int) := by
    rw [Ipv4.toNat_ofNat_emod]
    exact toInt_byte x hs
  have hcond := BitVec.toInt_eq_toNat_cond (x >>> d &&& 0xFF).toBitVec
  have hlt := (UInt8.ofNat (x.toInt / 2 ^ s % 256).toNat).toNat_lt
  split at hcond <;> omega

/-- The way through a signed byte and back does not change it. -/
theorem toString_byte (x : Int32) {d : Int32} {s : Nat}
    (hs : (d.toBitVec.smod 32).toNat = s) :
    toString ((x >>> d &&& 0xFF).toInt8.toInt32 &&& 0xFF) =
      toString (UInt8.ofNat (x.toInt / 2 ^ s % 256).toNat).toNat := by
  -- The conversion to `Byte` and back with `and 0xFF` gives the unsigned byte.
  have hbyte : ((x >>> d &&& 0xFF).toInt8.toInt32 &&& 0xFF).toInt =
      (UInt8.ofNat (x.toInt / 2 ^ s % 256).toNat).toNat := by
    rw [toInt_and_255, Int8.toInt_toInt32, Int32.toInt_toInt8, toInt_byte x hs,
      Ipv4.toNat_ofNat_emod]
    generalize x.toInt / 2 ^ s = y
    rw [Int.bmod_def]
    split <;> omega
  show toString ((x >>> d &&& 0xFF).toInt8.toInt32 &&& 0xFF).toInt = _
  rw [hbyte]
  rfl

/-! ## The dotted quad -/

/-- The dotted quad of a number, whatever its sign is. -/
theorem getInternalWifiIpString_eq (w : Wireless) :
    w.getInternalWifiIpString = (Ipv4.ofInt w.getInternalWifiIpAddress.toInt).text := by
  have hbyte₀ := toString_byte w.getInternalWifiIpAddress (d := 24) (s := 24) (by decide)
  have hbyte₁ := toString_byte w.getInternalWifiIpAddress (d := 16) (s := 16) (by decide)
  have hbyte₂ := toString_byte w.getInternalWifiIpAddress (d := 8) (s := 8) (by decide)
  have hbyte₃ := toString_byte w.getInternalWifiIpAddress (d := 0) (s := 0) (by decide)
  rw [Ipv4.text, Ipv4.ofInt, ← hbyte₀, ← hbyte₁, ← hbyte₂, ← hbyte₃]
  rfl

/-! ## The other byte order -/

/-- Four bytes that are shifted to their places do not overlap. -/
theorem or_bytes {b₀ b₁ b₂ b₃ : Nat} (h₁ : b₁ < 2 ^ 8) (h₂ : b₂ < 2 ^ 8) (h₃ : b₃ < 2 ^ 8) :
    b₀ * 2 ^ 24 ||| b₁ * 2 ^ 16 ||| b₂ * 2 ^ 8 ||| b₃ =
      b₀ * 2 ^ 24 + b₁ * 2 ^ 16 + b₂ * 2 ^ 8 + b₃ := by
  -- Each byte lies below the bits of those before it, so `or` adds it.
  have hor₁ := Nat.two_pow_add_eq_or_of_lt (show b₁ * 2 ^ 16 < 2 ^ 24 by omega) b₀
  have hor₂ := Nat.two_pow_add_eq_or_of_lt (show b₂ * 2 ^ 8 < 2 ^ 16 by omega) (b₀ * 2 ^ 8 + b₁)
  have hor₃ := Nat.two_pow_add_eq_or_of_lt (show b₃ < 2 ^ 8 from h₃)
    ((b₀ * 2 ^ 8 + b₁) * 2 ^ 8 + b₂)
  calc b₀ * 2 ^ 24 ||| b₁ * 2 ^ 16 ||| b₂ * 2 ^ 8 ||| b₃
      = (b₀ * 2 ^ 24 + b₁ * 2 ^ 16) ||| b₂ * 2 ^ 8 ||| b₃ := by
        rw [Nat.mul_comm b₀, ← hor₁]
    _ = (b₀ * 2 ^ 24 + b₁ * 2 ^ 16 + b₂ * 2 ^ 8) ||| b₃ := by
        rw [show b₀ * 2 ^ 24 + b₁ * 2 ^ 16 = 2 ^ 16 * (b₀ * 2 ^ 8 + b₁) by omega, ← hor₂]
    _ = b₀ * 2 ^ 24 + b₁ * 2 ^ 16 + b₂ * 2 ^ 8 + b₃ := by
        rw [show b₀ * 2 ^ 24 + b₁ * 2 ^ 16 + b₂ * 2 ^ 8 =
          2 ^ 8 * ((b₀ * 2 ^ 8 + b₁) * 2 ^ 8 + b₂) by omega, ← hor₃]

/-- The bytes in the other order. -/
theorem toNat_reverseBytes (x : Int32) :
    (reverseBytes x).toBitVec.toNat = (Ipv4.ofInt x.toInt).reverse.toNat := by
  have hbyte₀ := toNat_byte x (d := 24) (s := 24) (by decide)
  have hbyte₁ := toNat_byte x (d := 16) (s := 16) (by decide)
  have hbyte₂ := toNat_byte x (d := 8) (s := 8) (by decide)
  have hbyte₃ := toNat_byte x (d := 0) (s := 0) (by decide)
  have hlt₀ := (Ipv4.ofInt x.toInt).b₀.toNat_lt
  have hlt₁ := (Ipv4.ofInt x.toInt).b₁.toNat_lt
  have hlt₂ := (Ipv4.ofInt x.toInt).b₂.toNat_lt
  have hlt₃ := (Ipv4.ofInt x.toInt).b₃.toNat_lt
  -- shifting up multiplies, within 32 bits
  have hshift (y : Int32) {d : Int32} {s : Nat} (hs : (d.toBitVec.smod 32).toNat = s) :
      (y <<< d).toBitVec.toNat = y.toBitVec.toNat * 2 ^ s % 2 ^ 32 := by
    rw [Int32.toBitVec_shiftLeft, BitVec.shiftLeft_eq', BitVec.toNat_shiftLeft, hs,
      Nat.shiftLeft_eq]
  simp only [reverseBytes, Int32.toBitVec_or, BitVec.toNat_or]
  rw [hshift _ (d := 24) (s := 24) (by decide), hshift _ (d := 16) (s := 16) (by decide),
    hshift _ (d := 8) (s := 8) (by decide), hbyte₀, hbyte₁, hbyte₂, hbyte₃]
  show (Ipv4.ofInt x.toInt).b₃.toNat * 2 ^ 24 % 2 ^ 32 |||
    (Ipv4.ofInt x.toInt).b₂.toNat * 2 ^ 16 % 2 ^ 32 |||
    (Ipv4.ofInt x.toInt).b₁.toNat * 2 ^ 8 % 2 ^ 32 ||| (Ipv4.ofInt x.toInt).b₀.toNat = _
  -- no byte is shifted out, and the parts do not overlap
  rw [Nat.mod_eq_of_lt (by omega), Nat.mod_eq_of_lt (by omega), Nat.mod_eq_of_lt (by omega),
    or_bytes hlt₂ hlt₁ hlt₀]
  rfl

/-! ## The one bits -/

/-- `Integer.bitCount` counts the one bits. -/
theorem toInt_bitCount_eq (x : Int32) : (bitCount x).toInt = Nat.ones 32 x.toBitVec.toNat := by
  have hle := Nat.ones_le 32 x.toBitVec.toNat
  have hcount : bitCount x = Int32.ofNat (Nat.ones 32 x.toBitVec.toNat) := by
    rw [bitCount, Nat.ones]
    congr 2
  rw [hcount, Int32.toInt_ofNat_of_lt (by omega)]

end LanScan.Android
