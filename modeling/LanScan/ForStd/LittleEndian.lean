import Mathlib.Algebra.GroupWithZero.Nat
import Mathlib.Data.List.Basic

/-!
# Little-endian numbers

Numbers in memory, the least significant byte first.

Key results:
- `toNat_bytes`: the number that was written is read
- `read_append_right`, `read_take`, `read_drop`: where a number is read
-/

namespace LittleEndian

/-! ## Numbers and their bytes -/

/-- The number that some bytes stand for. -/
def toNat : List UInt8 → Nat
  | [] => 0
  | b :: bytes => b.toNat + 256 * toNat bytes

/-- A number in `w` bytes. -/
def bytes : Nat → Nat → List UInt8
  | 0, _ => []
  | w + 1, x => UInt8.ofNat x :: bytes w (x / 256)

/-- A number of `w` bytes is written as `w` bytes. -/
@[simp] theorem length_bytes (w x : Nat) : (bytes w x).length = w := by
  induction w generalizing x with
  | zero => rfl
  | succ w ih => rw [bytes, List.length_cons, ih]

/-- Writing keeps a number modulo the range of its bytes. -/
theorem toNat_bytes (w x : Nat) : toNat (bytes w x) = x % 256 ^ w := by
  induction w generalizing x with
  | zero => rw [bytes, toNat, Nat.pow_zero, Nat.mod_one]
  | succ w ih =>
    have hlow : (UInt8.ofNat x).toNat = x % 256 := UInt8.toNat_ofNat'
    rw [bytes, toNat, ih, hlow, Nat.pow_succ', Nat.mod_mul]

/-- A number in the range of its bytes is read back. -/
theorem toNat_bytes_of_lt {w x : Nat} (h : x < 256 ^ w) : toNat (bytes w x) = x := by
  rw [toNat_bytes, Nat.mod_eq_of_lt h]

/-- A number is zero when all its bytes are. -/
theorem toNat_eq_zero_iff (bytes : List UInt8) : toNat bytes = 0 ↔ ∀ b ∈ bytes, b = 0 := by
  induction bytes with
  | nil => simp [toNat]
  | cons b bytes ih =>
    have hb : b.toNat = 0 ↔ b = 0 := by rw [← UInt8.toNat_inj]; rfl
    simp [toNat, ih, hb]

/-! ## Reading -/

/-- The number of `w` bytes at the position `i` of memory. -/
def read (w : Nat) (mem : List UInt8) (i : Nat) : Nat := toNat ((mem.drop i).take w)

/-- Reading behind a pointer is reading further on. -/
theorem read_drop (w : Nat) (mem : List UInt8) (k i : Nat) :
    read w (mem.drop k) i = read w mem (k + i) := by
  rw [read, List.drop_drop, read]

/-- Only the bytes of the number are read. -/
theorem read_take {w i k : Nat} (h : i + w ≤ k) (mem : List UInt8) :
    read w (mem.take k) i = read w mem i := by
  rw [read, List.drop_take, List.take_take, Nat.min_eq_left (by omega), read]

/-- What is read in front does not depend on the bytes behind. -/
theorem read_append_left {w i : Nat} {front : List UInt8} (h : i + w ≤ front.length)
    (back : List UInt8) : read w (front ++ back) i = read w front i := by
  rw [← read_take h (front ++ back), List.take_left]

/-- What is read behind the front is read from the back. -/
theorem read_append_right {w : Nat} {front : List UInt8} {n : Nat} (h : front.length = n)
    (back : List UInt8) (i : Nat) : read w (front ++ back) (n + i) = read w back i := by
  rw [← read_drop, ← h, List.drop_left]

/-- The number that stands at the front. -/
theorem read_bytes_append {w x : Nat} (h : x < 256 ^ w) (back : List UInt8) :
    read w (bytes w x ++ back) 0 = x := by
  rw [read_append_left (by simp) back, read, List.drop_zero, List.take_of_length_le (by simp),
    toNat_bytes_of_lt h]

/-- What follows the number at the front. -/
theorem read_bytes_append_add (w k x : Nat) (back : List UInt8) (i : Nat) :
    read w (bytes k x ++ back) (k + i) = read w back i :=
  read_append_right (length_bytes k x) back i

/-- What is read behind the first byte is read from the rest. -/
theorem read_cons_add (w : Nat) (b : UInt8) (mem : List UInt8) (i : Nat) :
    read w (b :: mem) (1 + i) = read w mem i :=
  read_append_right (show [b].length = 1 from rfl) mem i

/-- One byte is read as its value. -/
theorem read_cons_zero (b : UInt8) (mem : List UInt8) : read 1 (b :: mem) 0 = b.toNat := by
  simp [read, toNat]

end LittleEndian
