import LanScan.Native.Android.Netlink

/-!
# Attributes of netlink messages

What the table of `parse_rtattr` holds, in terms of the attributes that stand one behind
the other in the message.

Key results:
- `map_payloadAt_parseRtattrFlags`: the table as a lookup in the list of attributes
- `parseRtattrFlags_law`: so it depends on the bytes of the message alone
- `attributesOf_encodeAttributes`: attributes that are encoded are found again
-/

namespace LanScan.Android.Netlink

open LittleEndian NativeIPNeigh

variable {max : Nat} {flags type : UInt16} {mem rta : Ptr} {len : Int}

/-! ## The table -/

/-- The entry of a type, once it is set, stays; otherwise the first attribute of the type that
    follows sets it. -/
theorem parseRtattrLoop_eq {fuel : Nat} (hfuel : len.toNat ≤ fuel) (tb : Attributes) :
    parseRtattrLoop max flags fuel tb rta len type =
      (tb type).or (if type.toNat ≤ max then
        (rtattr.pointers rta len).find? fun r => rtaType r &&& ~~~flags = type else none) := by
  induction fuel generalizing tb rta len with
  | zero =>
    rw [rtattr.pointers_of_not_ok (rtattr.not_ok_of_nonpos (by omega))]
    simp [parseRtattrLoop]
  | succ fuel ih =>
    rw [parseRtattrLoop]
    by_cases hok : rtattr.Ok rta len
    · rw [if_pos hok, ih (rtattr.toNat_left_le hok hfuel), rtattr.pointers_of_ok hok,
        List.find?_cons]
      generalize rtaType rta &&& ~~~flags = type'
      by_cases htype : type' = type
      · subst htype
        by_cases hmax : type'.toNat ≤ max <;> cases htb : tb type' <;> simp [hmax, htb]
      · -- the entry of another type is not touched
        have hother : (if type'.toNat ≤ max ∧ tb type' = none then
            Function.update tb type' (some rta) else tb) type = tb type := by
          split
          · exact Function.update_of_ne (Ne.symm htype) _ _
          · rfl
        simp [hother, htype]
    · rw [if_neg hok, rtattr.pointers_of_not_ok hok]
      simp

/-- The table holds for each type up to `max` the first attribute of that type, the flags taken
    off. -/
theorem parseRtattrFlags_eq (max : Nat) (rta : Ptr) (len : Int) (flags type : UInt16) :
    parseRtattrFlags max rta len flags type =
      if type.toNat ≤ max then
        (rtattr.pointers rta len).find? fun r => rtaType r &&& ~~~flags = type
      else none := by
  rw [parseRtattrFlags, parseRtattrLoop_eq (Nat.le_refl _), Option.none_or]

/-- The table leads to attributes of the loop only. -/
theorem mem_pointers_of_parseRtattrFlags (h : parseRtattrFlags max mem len flags type = some rta) :
    rta ∈ rtattr.pointers mem len := by
  rw [parseRtattrFlags_eq] at h
  split at h
  · exact List.mem_of_find?_eq_some h
  · cases h

/-! ## Payloads -/

/-- The payload of the attribute that a pointer leads to. -/
def payloadAt (rta : Ptr) : List UInt8 := (rtaData rta).take (rtaPayload rta)

/-- The attributes in the first `len` bytes of memory, with their payloads. -/
def attributesOf (mem : Ptr) (len : Int) : List (UInt16 × List UInt8) :=
  (rtattr.records mem len).map fun a => (rtaType a, rtaData a)

/-- The type stands in the header of an attribute. -/
theorem rtaType_recordAt (h : 4 ≤ rtaLen rta) : rtaType (rtattr.recordAt rta) = rtaType rta :=
  congrArg UInt16.ofNat (read_take h rta)

/-- The data of an attribute alone is its payload. -/
theorem rtaData_recordAt (rta : Ptr) : rtaData (rtattr.recordAt rta) = payloadAt rta :=
  List.drop_take

/-- The table as a lookup in the list of attributes. -/
theorem map_payloadAt_parseRtattrFlags (htype : type.toNat ≤ max) :
    (parseRtattrFlags max rta len flags type).map payloadAt =
      ((attributesOf rta len).map fun a => (a.1 &&& ~~~flags, a.2)).lookup type := by
  rw [parseRtattrFlags_eq, if_pos htype, attributesOf, RecordFormat.records, List.map_map,
    List.map_map]
  have hlen : ∀ r ∈ rtattr.pointers rta len, 4 ≤ rtaLen r := fun r hr =>
    (rtattr.exists_drop_of_mem_pointers hr).elim fun _ h => h.2.1
  generalize rtattr.pointers rta len = pointers at hlen
  induction pointers with
  | nil => rfl
  | cons r rest ih =>
    have hrecord := rtaType_recordAt (hlen r List.mem_cons_self)
    have hrest := ih fun r' hr' => hlen r' (List.mem_cons_of_mem r hr')
    rw [List.map_cons, List.find?_cons, List.lookup_cons]
    -- the attribute is the first of its type, or another one
    by_cases h : rtaType r &&& ~~~flags = type
    · simp [hrecord, h, rtaData_recordAt]
    · have hne : (type == rtaType r &&& ~~~flags) = false := beq_eq_false_iff_ne.mpr (Ne.symm h)
      simpa [hrecord, h, hne] using hrest

/-- `parse_rtattr` finds what the lookup among the attributes finds. -/
theorem map_payloadAt_parseRtattr (htype : type.toNat ≤ max) :
    (parseRtattr max rta len type).map payloadAt =
      Android.parseRtattr (attributesOf rta len) type := by
  rw [parseRtattr, map_payloadAt_parseRtattrFlags htype, Android.parseRtattr]
  simp

/-- **The attribute table.** Whatever the bytes of a message are, and whatever stands behind
    them, `parse_rtattr_flags` comes to an end with a table that holds for each type up to `max`
    the first attribute of that type, the flags taken off; and its pointers lead to attributes
    that lie inside of these bytes. -/
theorem parseRtattrFlags_law (max : Nat) (flags type : UInt16) (bytes back : List UInt8) :
    (parseRtattrFlags max (bytes ++ back) bytes.length flags type).map payloadAt =
        (if type.toNat ≤ max then
          ((attributesOf bytes bytes.length).map fun a => (a.1 &&& ~~~flags, a.2)).lookup type
        else none) ∧
      ∀ rta ∈ parseRtattrFlags max (bytes ++ back) bytes.length flags type,
        ∃ i : Nat, rta = (bytes ++ back).drop i ∧ rtaLength 0 ≤ rtaLen rta ∧
          i + rtaLen rta ≤ bytes.length := by
  -- the loop does not look behind the bytes
  have hbytes : attributesOf (bytes ++ back) bytes.length = attributesOf bytes bytes.length := by
    rw [attributesOf, (rtattr.records_append bytes back).1, attributesOf]
  refine ⟨?_, fun rta hrta => ?_⟩
  · by_cases htype : type.toNat ≤ max
    · rw [map_payloadAt_parseRtattrFlags htype, hbytes, if_pos htype]
    · rw [parseRtattrFlags_eq, if_neg htype, if_neg htype, Option.map_none]
  -- each pointer is one of the loop, which tests header and length
  · obtain ⟨i, hi, hheader, hlen⟩ :=
      rtattr.exists_drop_of_mem_pointers (mem_pointers_of_parseRtattrFlags hrta)
    exact ⟨i, hi, hheader, by exact_mod_cast hlen⟩

/-- In memory that is long enough, the payload has the length that `RTA_PAYLOAD` gives. -/
theorem length_payloadAt (hmem : len ≤ mem.length) (h : rta ∈ rtattr.pointers mem len) :
    (payloadAt rta).length = rtaPayload rta := by
  obtain ⟨i, rfl, hheader, hlen⟩ := rtattr.exists_drop_of_mem_pointers h
  have hrta : i + rtaLen (mem.drop i) ≤ mem.length := by
    have hlen' : i + rtaLen (mem.drop i) ≤ len := hlen
    omega
  have hpayload : rtaPayload (mem.drop i) = rtaLen (mem.drop i) - 4 := rfl
  have hdata : rtaData (mem.drop i) = mem.drop (i + 4) := List.drop_drop ..
  rw [payloadAt, List.length_take, hdata, List.length_drop, hpayload]
  omega

/-! ## Encoding -/

/-- The bytes of an attribute. -/
def encodeAttribute (a : UInt16 × List UInt8) : List UInt8 :=
  bytes 2 (rtaLength a.2.length) ++ (bytes 2 a.1.toNat ++ a.2)

/-- The bytes of the attributes of a message. -/
def encodeAttributes (attributes : List (UInt16 × List UInt8)) : List UInt8 :=
  attributes.flatMap fun a => rtattr.pad 0 (encodeAttribute a)

/-- An attribute has the length that its header counts. -/
theorem length_encodeAttribute (a : UInt16 × List UInt8) :
    (encodeAttribute a).length = rtaLength a.2.length := by
  simp [encodeAttribute, rtaLength, align]
  omega

/-- An attribute whose length fits its field is a whole record. -/
theorem wellFormed_encodeAttribute {a : UInt16 × List UInt8} (h : rtaLength a.2.length < 65536) :
    rtattr.WellFormed (encodeAttribute a) := by
  refine ⟨?_, ?_⟩ <;> rw [length_encodeAttribute]
  · exact Nat.le_add_right _ _
  · exact read_bytes_append h _

/-- Type and payload are read back. -/
theorem decode_encodeAttribute (a : UInt16 × List UInt8) :
    (rtaType (encodeAttribute a), rtaData (encodeAttribute a)) = a := by
  have htype : LittleEndian.read 2 (encodeAttribute a) (2 + 0) = a.1.toNat := by
    rw [encodeAttribute, read_bytes_append_add]
    exact read_bytes_append a.1.toNat_lt _
  have hdata : rtaData (encodeAttribute a) = a.2 := by
    rw [rtaData, encodeAttribute, ← List.append_assoc]
    exact List.drop_left' (by simp [rtaLength, align])
  rw [rtaType, u16, htype, UInt16.ofNat_toNat, hdata]

/-- Attributes stand one behind the other in their bytes. -/
theorem layout_encodeAttributes {attributes : List (UInt16 × List UInt8)}
    (h : ∀ a ∈ attributes, rtaLength a.2.length < 65536) :
    rtattr.Layout (attributes.map encodeAttribute) (encodeAttributes attributes) :=
  rtattr.layout_flatMap_pad 0 fun a ha => wellFormed_encodeAttribute (h a ha)

/-- The attributes are read back from their bytes. -/
theorem attributesOf_encodeAttributes {attributes : List (UInt16 × List UInt8)}
    (h : ∀ a ∈ attributes, rtaLength a.2.length < 65536) :
    attributesOf (encodeAttributes attributes) (encodeAttributes attributes).length =
      attributes := by
  rw [attributesOf, (rtattr.records_of_layout (layout_encodeAttributes h)).1, List.map_map]
  exact List.map_id'' decode_encodeAttribute attributes

end LanScan.Android.Netlink
