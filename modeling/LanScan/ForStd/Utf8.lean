/-!
# UTF-8 on lists

Texts as lists of characters and their encodings as lists of bytes, on top of the
codec of the core library.

Key results:
- `utf8Text?_utf8Bytes`: decoding inverts encoding
- `utf8Text?_of_ascii`: ASCII bytes stand for themselves
- `utf8Text?_append_ascii`: so does an ASCII byte behind anything
-/

namespace List

/-- The UTF-8 encoding of a text. -/
def utf8Bytes (text : List Char) : List UInt8 := text.flatMap String.utf8EncodeChar

/-- The text that some bytes encode, if they are well-formed UTF-8. -/
def utf8Text? (bytes : List UInt8) : Option (List Char) :=
  bytes.toByteArray.utf8Decode?.map Array.toList

/-- Each byte as the character with that code. -/
def asciiText (bytes : List UInt8) : List Char := bytes.map fun b => Char.ofNat b.toNat

/-- Decoding inverts encoding. -/
theorem utf8Text?_utf8Bytes (text : List Char) : utf8Text? (utf8Bytes text) = some text := by
  have hencode : (utf8Bytes text).toByteArray = text.utf8Encode := rfl
  rw [utf8Text?, hencode, utf8Decode?_utf8Encode]
  rfl

/-- Different texts have different encodings. -/
theorem utf8Bytes_injective {text text' : List Char} (h : utf8Bytes text = utf8Bytes text') :
    text = text' := by
  have hdecode := utf8Text?_utf8Bytes text
  rw [h, utf8Text?_utf8Bytes] at hdecode
  exact (Option.some.inj hdecode).symm

/-- An ASCII character is encoded as one byte. -/
theorem utf8EncodeChar_of_lt {b : UInt8} (h : b < 128) :
    String.utf8EncodeChar (Char.ofNat b.toNat) = [b] := by
  have hbyte : ∀ n < 128, String.utf8EncodeChar (Char.ofNat n) = [UInt8.ofNat n] := by decide
  rw [hbyte b.toNat (UInt8.lt_iff_toNat_lt.mp h), UInt8.ofNat_toNat]

/-- ASCII text is encoded as its bytes. -/
theorem utf8Bytes_asciiText {bytes : List UInt8} (h : ∀ b ∈ bytes, b < 128) :
    utf8Bytes (asciiText bytes) = bytes := by
  induction bytes with
  | nil => rfl
  | cons b bytes ih =>
    have ih' := ih fun x hx => h x (mem_cons_of_mem b hx)
    have hb := utf8EncodeChar_of_lt (h b mem_cons_self)
    simp only [utf8Bytes, asciiText] at ih' ⊢
    rw [map_cons, flatMap_cons, hb, ih']
    rfl

/-- ASCII bytes stand for themselves. -/
theorem utf8Text?_of_ascii {bytes : List UInt8} (h : ∀ b ∈ bytes, b < 128) :
    utf8Text? bytes = some (asciiText bytes) := by
  have hdecode := utf8Text?_utf8Bytes (asciiText bytes)
  rw [utf8Bytes_asciiText h] at hdecode
  exact hdecode

/-- The texts of well-formed UTF-8 are those that it encodes. -/
theorem utf8Text?_eq_some_iff {bytes : List UInt8} {text : List Char} :
    utf8Text? bytes = some text ↔ utf8Bytes text = bytes := by
  constructor
  · intro h
    obtain ⟨chars, hchars, rfl⟩ := Option.map_eq_some_iff.mp h
    have hsome : bytes.toByteArray.utf8Decode?.isSome := by rw [hchars]; rfl
    -- Encoding is the inverse of decoding on byte arrays that decode.
    have hencode := ByteArray.utf8Encode_get_utf8Decode? (h := hsome)
    simp only [hchars, Option.get_some] at hencode
    have hdata := congrArg (fun b : ByteArray => b.data.toList) hencode
    simpa [utf8Encode, utf8Bytes] using hdata
  · rintro rfl
    exact utf8Text?_utf8Bytes text

/-- Only the encoding of an ASCII character ends in an ASCII byte. -/
theorem utf8EncodeChar_eq_singleton_of_getLast? {c : Char} {b : UInt8}
    (h : (String.utf8EncodeChar c).getLast? = some b) (hb : b < 128) :
    String.utf8EncodeChar c = [b] := by
  -- the last byte of a longer encoding
  have hcont : ∀ n < 256, ¬ (UInt8.ofNat n &&& 0x3f ||| 0x80) < 128 := by decide +kernel
  have hlast : c.val.toUInt8 &&& 0x3f ||| 0x80 ≠ b := by
    intro hx
    have hx' := hcont c.val.toUInt8.toNat c.val.toUInt8.toNat_lt
    rw [UInt8.ofNat_toNat, hx] at hx'
    exact hx' hb
  have hpos := c.utf8Size_pos
  have hle := c.utf8Size_le_four
  obtain hsize | hsize | hsize | hsize :
    c.utf8Size = 1 ∨ c.utf8Size = 2 ∨ c.utf8Size = 3 ∨ c.utf8Size = 4 := by omega
  · rw [String.utf8EncodeChar_eq_singleton hsize] at h ⊢
    exact congrArg (fun x => [x]) (Option.some.inj h)
  · rw [String.utf8EncodeChar_eq_cons_cons hsize] at h
    exact absurd (Option.some.inj h) hlast
  · rw [String.utf8EncodeChar_eq_cons_cons_cons hsize] at h
    exact absurd (Option.some.inj h) hlast
  · rw [String.utf8EncodeChar_eq_cons_cons_cons_cons hsize] at h
    exact absurd (Option.some.inj h) hlast

/-- An ASCII byte stands for itself, whatever is in front of it. -/
theorem utf8Text?_append_ascii (bytes : List UInt8) {b : UInt8} (hb : b < 128) :
    utf8Text? (bytes ++ [b]) = (utf8Text? bytes).map (· ++ [Char.ofNat b.toNat]) := by
  cases htext : utf8Text? bytes with
  | some text =>
    have hbytes := utf8Text?_eq_some_iff.mp htext
    refine utf8Text?_eq_some_iff.mpr ?_
    simp only [utf8Bytes] at hbytes ⊢
    rw [flatMap_append, hbytes, flatMap_singleton, utf8EncodeChar_of_lt hb]
  | none =>
    rw [Option.map_none, Option.eq_none_iff_forall_ne_some]
    intro text hsome
    have hbytes := utf8Text?_eq_some_iff.mp hsome
    -- the byte is the encoding of the last character, and the others are in front of it
    rcases eq_nil_or_concat text with rfl | ⟨front, c, rfl⟩
    · simp [utf8Bytes] at hbytes
    · rw [concat_eq_append, utf8Bytes, flatMap_append, flatMap_singleton] at hbytes
      have hlast := congrArg getLast? hbytes
      rw [getLast?_append, getLast?_concat, getLast?_eq_some_getLast String.utf8EncodeChar_ne_nil,
        Option.some_or, ← getLast?_eq_some_getLast] at hlast
      rw [utf8EncodeChar_eq_singleton_of_getLast? hlast hb] at hbytes
      have hfront := utf8Text?_eq_some_iff.mpr (append_cancel_right hbytes)
      rw [htext] at hfront
      cases hfront

/-- A text has at least as many bytes as characters. -/
theorem length_le_length_utf8Bytes (text : List Char) :
    text.length ≤ (utf8Bytes text).length := by
  induction text with
  | nil => exact Nat.le_refl _
  | cons c text ih =>
    have hc := c.utf8Size_pos
    simp only [utf8Bytes] at ih ⊢
    simp only [flatMap_cons, length_append, String.length_utf8EncodeChar, length_cons]
    omega

/-- An ASCII text has one byte for each character. -/
theorem length_utf8Bytes_of_ascii {text : List Char} (h : ∀ c ∈ text, c.val ≤ 127) :
    (utf8Bytes text).length = text.length := by
  induction text with
  | nil => rfl
  | cons c text ih =>
    have hc : c.utf8Size = 1 := Char.utf8Size_eq_one_iff.mpr (h c mem_cons_self)
    have ih' := ih fun x hx => h x (mem_cons_of_mem c hx)
    simp only [utf8Bytes] at ih' ⊢
    simp only [flatMap_cons, length_append, String.length_utf8EncodeChar, length_cons]
    omega

end List
