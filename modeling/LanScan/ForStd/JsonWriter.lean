import LanScan.ForStd.JsonCorrect
import Mathlib.Data.List.Nodup

/-!
# Writing JSON objects of strings

A writer is free in how it escapes a character and in the order of the members.  Whatever it
does, the value of a key is found as long as no key is written twice.

## Key results

- `lookup_of_mem`, `lookup_of_not_mem`: the members of an object by their keys
- `value_object_of_escape`: a writer made of an escaping of characters
-/

namespace Json

/-! ## Members by their keys -/

section Lookup

variable {key : List UInt16} {v : Json} {members : List (List UInt16 × Json)}

/-- A key that comes once is looked up with its value. -/
theorem lookup_of_mem (hnodup : (members.map Prod.fst).Nodup) (hmem : (key, v) ∈ members) :
    lookup key members = some v := by
  unfold lookup
  cases hfind : members.reverse.find? (·.1 == key) with
  | none =>
    have hne := List.find?_eq_none.mp hfind (key, v) (List.mem_reverse.mpr hmem)
    simp at hne
  | some m =>
    have hm : m ∈ members := List.mem_reverse.mp (List.mem_of_find?_eq_some hfind)
    have hkey : m.1 = key := by simpa using List.find?_some hfind
    -- there is one member with this key
    have heq : m = (key, v) := List.inj_on_of_nodup_map hnodup hm hmem hkey
    rw [heq, Option.map_some]

/-- A key that does not come is not found. -/
theorem lookup_of_not_mem (hnot : key ∉ members.map Prod.fst) : lookup key members = none := by
  unfold lookup
  rw [Option.map_eq_none_iff, List.find?_eq_none]
  intro m hm hkey
  refine hnot (List.mem_map.mpr ⟨m, List.mem_reverse.mp hm, ?_⟩)
  simpa using hkey

end Lookup

/-! ## Texts -/

/-- A string, with every character as `escape` writes it. -/
def quote (escape : Char → List Char) (s : List Char) : List Char :=
  '"' :: (s.flatMap escape ++ ['"'])

/-- A member whose value is a string. -/
def writeMember (escape : Char → List Char) (m : List Char × List Char) : List Char :=
  quote escape m.1 ++ ':' :: quote escape m.2

/-- Members, separated by commas. -/
def writeMembers (escape : Char → List Char) : List (List Char × List Char) → List Char
  | [] => []
  | [m] => writeMember escape m
  | m :: ms => writeMember escape m ++ ',' :: writeMembers escape ms

/-- An object of strings. -/
def writeObject (escape : Char → List Char) (ms : List (List Char × List Char)) : List Char :=
  '{' :: (writeMembers escape ms ++ ['}'])

/-- The member that `m` is written for. -/
def stringMember (m : List Char × List Char) : List UInt16 × Json :=
  (m.1.utf16, .string m.2.utf16)

section Escape

variable {escape : Char → List Char} (hescape : ∀ c, Letter (escape c) c.utf16)
include hescape

/-- The escaped characters of a string are read as the string. -/
theorem letters_flatMap (s : List Char) : Letters (s.flatMap escape) s.utf16 := by
  induction s with
  | nil => exact .nil
  | cons c s ih => exact .cons (hescape c) ih

/-- What is written for a member is that member. -/
theorem member_writeMember (m : List Char × List Char) :
    Member Value (writeMember escape m) (stringMember m) := by
  have hspace : Space [] := nofun
  have hmember : Member Value _ (stringMember m) :=
    .mk (letters_flatMap hescape m.1) hspace hspace (.string (letters_flatMap hescape m.2))
  simpa [writeMember, quote] using hmember

/-- The members are written with commas between them. -/
theorem items_writeMembers {ms : List (List Char × List Char)} (hne : ms ≠ []) :
    Items (Member Value) (writeMembers escape ms) (ms.map stringMember) := by
  have hspace : Space [] := nofun
  induction ms with
  | nil => exact absurd rfl hne
  | cons m ms ih =>
    have hm := member_writeMember hescape m
    cases ms with
    | nil => simpa [writeMembers] using Items.one hspace hm hspace
    | cons m' ms => simpa [writeMembers] using Items.more hspace hm hspace (ih (by simp))

/-- The text of an object denotes its members. -/
theorem value_object_of_escape {ms : List (List Char × List Char)} (hne : ms ≠ []) :
    Value (writeObject escape ms) (.object (ms.map stringMember)) :=
  .object (.items (items_writeMembers hescape hne))

end Escape

/-! ## Hexadecimal escapes -/

/-- Four hexadecimal digits. -/
def hexDigits (n : Nat) : List Char :=
  [n / 4096, n / 256 % 16, n / 16 % 16, n % 16].map Nat.digitChar

/-- The digits that are written are read back. -/
theorem hexDigit_digitChar {d : Nat} (hd : d < 16) : hexDigit (Nat.digitChar d) = some d := by
  revert d
  decide

/-- Four digits are enough for a code unit. -/
theorem hex4_hexDigits {n : Nat} (hn : n < 65536) : hex4 (hexDigits n) = some n := by
  simp only [hexDigits, List.map_cons, List.map_nil, hex4, hexDigit_digitChar (d := n / 4096)
    (by omega), hexDigit_digitChar (Nat.mod_lt _ (by decide : 0 < 16)), Option.some.injEq]
  omega

/-- Any character of the basic plane can be written with its code. -/
theorem letter_hexDigits {c : Char} (hc : c.toNat < 0x10000) :
    Letter ('\\' :: 'u' :: hexDigits c.toNat) c.utf16 := by
  rw [Char.utf16, if_pos hc]
  exact .unicode (hex4_hexDigits hc)

end Json
