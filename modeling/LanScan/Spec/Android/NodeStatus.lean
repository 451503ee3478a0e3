import LanScan.ForStd.Buffer
import LanScan.Native.Android.NetBIOSResolver
import LanScan.Spec.Android.MDNSDecode

/-!
# Reading node status responses (Android)

The name table and the unit id as data, and what `NetBIOSResolver.resolve` reads from
a datagram in terms of them.  No index leaves the buffer, since the table that passes
the check of the length leaves room for the unit id behind it.

## Key results

- `extractNames_eq`: the array of names is the `report` on the entries
- `readResponse_eq`: which packets are accepted, and what is returned
- `resolve_in_bounds`: nothing is raised on a datagram
-/

namespace LanScan.Android.NetBIOSResolver

open MDNSResolver (DatagramPacket string labelText string_of_whole)

variable {malformed : List UInt8 → List Char} {data : List UInt8}

/-! ## The name table -/

/-- An entry of the name table. -/
structure NameEntry where
  name : Vector UInt8 15
  suffix : UInt8
  flag₁ : UInt8
  flag₂ : UInt8
  deriving DecidableEq, Repr

namespace NameEntry

/-- The bytes of an entry in the table. -/
def bytes (e : NameEntry) : List UInt8 := e.name.toList ++ [e.suffix, e.flag₁, e.flag₂]

/-- The name without the blanks around it. -/
def text (malformed : List UInt8 → List Char) (e : NameEntry) : String :=
  String.ofList (trim (labelText malformed e.name.toList))

/-- The name of a group: suffix 0x00 and the group bit, the top bit of the first flag byte. -/
def isGroup (e : NameEntry) : Bool := e.suffix == 0 && 128 ≤ e.flag₁

/-- The name of a user: suffix 0x03. -/
def isUser (e : NameEntry) : Bool := e.suffix == 3

/-- The first of the bytes is that of an entry. -/
def ofBytes (bytes : List UInt8) : NameEntry where
  name := .block 15 0 bytes
  suffix := bytes.getD 15 0
  flag₁ := bytes.getD 16 0
  flag₂ := bytes.getD 17 0

/-- An entry takes eighteen bytes. -/
@[simp] theorem length_bytes (e : NameEntry) : e.bytes.length = 18 := by simp [bytes]

/-- An entry is read back from its bytes. -/
@[simp] theorem ofBytes_append (e : NameEntry) (after : List UInt8) :
    ofBytes (e.bytes ++ after) = e := by
  simp [ofBytes, bytes, List.getD_eq_getElem?_getD, List.getElem?_append]

/-- An entry depends on its eighteen bytes only. -/
theorem ofBytes_congr {bytes bytes' : List UInt8} (h : bytes.AgreeUpTo 18 bytes') :
    ofBytes bytes = ofBytes bytes' := by
  have hname : bytes.AgreeUpTo 15 bytes' := h.drop (i := 0) (by omega)
  simp only [ofBytes, Vector.block_congr hname, h.getD (show 15 < 18 by omega),
    h.getD (show 16 < 18 by omega), h.getD (show 17 < 18 by omega)]

end NameEntry

/-- Where entry `i` begins; behind the last entry, where the unit id begins. -/
def entryOffset (i : Nat) : Nat := 57 + 18 * i

/-- The entry with the number `i` of the table. -/
def entryAt (data : List UInt8) (i : Nat) : NameEntry := .ofBytes (data.drop (entryOffset i))

/-- The number of names, as the response has it. -/
def nameCount (data : List UInt8) : Nat := (data.getD 56 0).toNat

/-- The entries of the table. -/
def entriesOf (data : List UInt8) : List NameEntry :=
  (List.range (nameCount data)).map (entryAt data)

/-- The unit id behind the table. -/
def unitIdOf (data : List UInt8) : Vector UInt8 6 :=
  .block 6 0 (data.drop (entryOffset (nameCount data)))

/-! ## The report -/

/-- A digit in upper-case hex. -/
def hexDigit (n : Nat) : Char := "0123456789ABCDEF".toList.getD n '0'

/-- A byte in upper-case hex. -/
def hexByte (b : UInt8) : List Char := [hexDigit (b.toNat / 16), hexDigit (b.toNat % 16)]

/-- The unit id as text. -/
def macAddress (unitId : Vector UInt8 6) : String :=
  String.ofList (['-'].intercalate (unitId.toList.map hexByte))

/-- A group name that `nameFlag` lets through.  The second flag byte goes into the mask of
    the first one, and its top bit hides the group bit. -/
def NameEntry.isGroupSeen (e : NameEntry) : Bool := e.isGroup && e.flag₂ < 128

/-- What is returned for the entries and the unit id: the first name, the last user name
    and the first group name behind it, and the unit id. -/
def report (malformed : List UInt8 → List Char) (entries : List NameEntry)
    (unitId : Vector UInt8 6) : List (Option String) := [
  entries.head?.map (NameEntry.text malformed),
  (entries.tail.reverse.find? NameEntry.isUser).map (NameEntry.text malformed),
  (entries.tail.find? NameEntry.isGroupSeen).map (NameEntry.text malformed),
  some (macAddress unitId)]

/-! ## Reading an entry -/

/-- A byte within the buffer is read without an exception. -/
theorem byteAt_eq {i : Nat} (h : i < data.length) : byteAt data i = .ok (data.getD i 0) := by
  rw [byteAt, List.getElem?_eq_getElem h, List.getD_eq_getElem?_getD, List.getElem?_eq_getElem h]
  rfl

/-- A fact about bytes that is checked for each of them. -/
theorem forall_byte {P : UInt8 → Prop} (h : ∀ n < 256, P (UInt8.ofNat n)) (b : UInt8) : P b := by
  have hb := h b.toNat b.toNat_lt
  rwa [UInt8.ofNat_toNat] at hb

/-- The domain suffix is the byte 0. -/
theorem unsigned_eq_zero_iff : ∀ b, unsigned b = nameTypeDomain ↔ b = 0 :=
  forall_byte (by decide +kernel)

/-- The messenger suffix is the byte 3. -/
theorem unsigned_eq_three_iff : ∀ b, unsigned b = nameTypeMessenger ↔ b = 3 :=
  forall_byte (by decide +kernel)

/-- The group bit stays in the mask that the second flag byte makes, unless its top bit
    is set. -/
theorem mask_groupNameFlag : ∀ b,
    (0xFF + unsigned b * 0xFF) &&& groupNameFlag = if b < 128 then groupNameFlag else 0 :=
  forall_byte (by decide +kernel)

/-- The group flag is the top bit of the first flag byte. -/
theorem groupNameFlag_pos_iff : ∀ b : UInt8,
    0 < b.toInt8.toInt32 &&& groupNameFlag ↔ 128 ≤ b :=
  forall_byte (by decide +kernel)

/-- `format` writes a byte as its two digits. -/
theorem format02X_unsigned : ∀ b, format02X (unsigned b) = hexByte b :=
  forall_byte (by decide +kernel)

section Entry

variable {i : Nat}

/-- The bytes of an entry, and of the unit id behind the last one. -/
theorem byteAt_entry {k : Nat} (h : entryOffset i + k < data.length) :
    byteAt data (responseBaseLen + responseNameBlockLen * i + k) =
      .ok ((data.drop (entryOffset i)).getD k 0) := by
  rw [List.getD_eq_getElem?_getD, List.getElem?_drop, ← List.getD_eq_getElem?_getD]
  exact byteAt_eq h

/-- The name of an entry is its text. -/
theorem name_eq (h : entryOffset i + 15 ≤ data.length) :
    name malformed data i = .ok ((entryAt data i).text malformed) := by
  -- Fifteen bytes of the entry are the name; the sixteenth is its type.
  have hblock := Vector.toList_block 0 (show 15 ≤ (data.drop (entryOffset i)).length by
    rw [List.length_drop]
    omega)
  have hlength : ((data.drop (entryOffset i)).take 15).length = (15 : UInt8).toNat := by
    rw [List.length_take, List.length_drop, Nat.min_eq_left (by omega)]
    rfl
  have hstring : string malformed data (entryOffset i) (15 : UInt8).toInt8.toInt =
      .ok (labelText malformed ((data.drop (entryOffset i)).take 15)) :=
    string_of_whole (by decide) rfl hlength (by omega)
  unfold name
  rw [show string malformed data (responseBaseLen + responseNameBlockLen * i) responseNameLen =
    .ok (labelText malformed ((data.drop (entryOffset i)).take 15)) from hstring, ← hblock]
  rfl

/-- The type of an entry is its suffix. -/
theorem nameType_eq (h : entryOffset i + 18 ≤ data.length) :
    nameType data i = .ok (unsigned (entryAt data i).suffix) := by
  have hsuffix := byteAt_entry (show entryOffset i + 15 < data.length by omega)
  unfold nameType
  rw [show byteAt data (responseBaseLen + responseNameBlockLen * i + responseNameLen) =
    .ok (entryAt data i).suffix from hsuffix]
  rfl

/-- `isUserName` asks for a user. -/
theorem isUserName_eq (h : entryOffset i + 18 ≤ data.length) :
    isUserName data i = .ok (entryAt data i).isUser := by
  unfold isUserName
  rw [nameType_eq h]
  simp only [bind, Except.bind, pure, Except.pure, Except.ok.injEq, NameEntry.isUser,
    unsigned_eq_three_iff]
  rfl

/-- `nameFlag` takes the second flag byte into the mask. -/
theorem nameFlag_eq (h : entryOffset i + 18 ≤ data.length) :
    nameFlag data i = .ok ((entryAt data i).flag₁.toInt8.toInt32 &&&
      (0xFF + unsigned (entryAt data i).flag₂ * 0xFF)) := by
  have hflag₁ := byteAt_entry (show entryOffset i + 16 < data.length by omega)
  have hflag₂ := byteAt_entry (show entryOffset i + 17 < data.length by omega)
  unfold nameFlag
  rw [show byteAt data (responseBaseLen + responseNameBlockLen * i + responseNameLen + 1) =
      .ok (entryAt data i).flag₁ from hflag₁,
    show byteAt data (responseBaseLen + responseNameBlockLen * i + responseNameLen + 2) =
      .ok (entryAt data i).flag₂ from hflag₂]
  rfl

/-- `isGroupName` sees the groups whose second flag byte is below 128. -/
theorem isGroupName_eq (h : entryOffset i + 18 ≤ data.length) :
    isGroupName data i = .ok (entryAt data i).isGroupSeen := by
  generalize he : entryAt data i = e
  -- the mask ends in the bit of the group flag only for a second byte below 128
  have hmask : (e.flag₁.toInt8.toInt32 &&& (0xFF + unsigned e.flag₂ * 0xFF)) &&& groupNameFlag =
      if e.flag₂ < 128 then e.flag₁.toInt8.toInt32 &&& groupNameFlag else 0 := by
    rw [Int32.and_assoc, mask_groupNameFlag]
    split
    · rfl
    · exact Int32.and_zero
  have hseen : (0 < (e.flag₁.toInt8.toInt32 &&& (0xFF + unsigned e.flag₂ * 0xFF)) &&&
      groupNameFlag) ↔ 128 ≤ e.flag₁ ∧ e.flag₂ < 128 := by
    rw [hmask, ← groupNameFlag_pos_iff]
    split <;> simp_all
  unfold isGroupName
  rw [nameType_eq h, nameFlag_eq h, he]
  simp only [bind, Except.bind, pure, Except.pure, unsigned_eq_zero_iff, NameEntry.isGroupSeen,
    NameEntry.isGroup]
  by_cases hsuffix : e.suffix = 0
  · simp [hsuffix, hseen]
  · simp [hsuffix]

/-- A loop finds the name of the first entry with the property. -/
theorem findName_eq {p : Nat → Except Throwable Bool} {q : NameEntry → Bool} {is : List Nat}
    (his : ∀ i ∈ is, entryOffset i + 18 ≤ data.length)
    (hp : ∀ i ∈ is, p i = .ok (q (entryAt data i))) :
    findName malformed data p is =
      .ok (((is.map (entryAt data)).find? q).map (NameEntry.text malformed)) := by
  induction is with
  | nil => rfl
  | cons i is ih =>
    have hi := his i List.mem_cons_self
    have hrest := ih (fun j hj => his j (List.mem_cons_of_mem i hj))
      fun j hj => hp j (List.mem_cons_of_mem i hj)
    rw [findName, hp i List.mem_cons_self, List.map_cons, List.find?_cons]
    -- the first entry is the one, or the others are asked
    cases hq : q (entryAt data i) with
    | true =>
      have hname : name malformed data i = .ok ((entryAt data i).text malformed) :=
        name_eq (by omega)
      simp only [bind, Except.bind, if_true, hname]
      rfl
    | false => exact hrest

end Entry

/-! ## Reading the names -/

/-- The entries behind the first one, in their order. -/
theorem map_entryAt_range' (data : List UInt8) :
    (List.range' 1 (nameCount data - 1)).map (entryAt data) = (entriesOf data).tail := by
  rw [entriesOf, ← List.map_tail, List.tail_range]

/-- With room for the unit id behind the entries, they are read without an exception. -/
theorem extractNames_eq (h : entryOffset (nameCount data) + 6 ≤ data.length) :
    extractNames malformed data (nameCount data) =
      .ok (report malformed (entriesOf data) (unitIdOf data)) := by
  -- all entries that are asked lie within the buffer
  have hentry : ∀ i ∈ List.range' 1 (nameCount data - 1), entryOffset i + 18 ≤ data.length := by
    intro i hi
    rw [List.mem_range'_1] at hi
    simp only [entryOffset] at h ⊢
    omega
  have hentry' : ∀ i ∈ (List.range' 1 (nameCount data - 1)).reverse,
      entryOffset i + 18 ≤ data.length := fun i hi => hentry i (List.mem_reverse.mp hi)
  -- the computer name is that of the first entry, when there is one
  have hcomputer : computerName malformed data (nameCount data) =
      .ok ((entriesOf data).head?.map (NameEntry.text malformed)) := by
    unfold computerName
    by_cases hpos : 0 < nameCount data
    · have hhead : (entriesOf data).head? = some (entryAt data 0) := by
        obtain ⟨n, hn⟩ := Nat.exists_eq_add_of_lt hpos
        rw [entriesOf, hn, Nat.zero_add, List.range_succ_eq_map]
        rfl
      rw [if_pos hpos, name_eq (by simp only [entryOffset] at h ⊢; omega), hhead]
      rfl
    · rw [if_neg hpos, entriesOf, Nat.eq_zero_of_not_pos hpos]
      rfl
  -- the unit id stands behind the last entry
  have hunit : (List.range 6).mapM (nameByte data (nameCount data)) =
      .ok ((unitIdOf data).toList.map unsigned) := by
    have hbyte : ∀ k ∈ List.range 6, nameByte data (nameCount data) k =
        pure (unsigned ((data.drop (entryOffset (nameCount data))).getD k 0)) := by
      intro k hk
      rw [List.mem_range] at hk
      rw [nameByte, byteAt_entry (by omega)]
      rfl
    rw [List.mapM_eq_pure_map hbyte]
    rfl
  unfold extractNames
  rw [hcomputer, hunit, findName_eq hentry fun i hi => isGroupName_eq (hentry i hi),
    findName_eq hentry' fun i hi => isUserName_eq (hentry' i hi), List.map_reverse,
    map_entryAt_range']
  simp only [bind, Except.bind, List.map_map, Function.comp_def, format02X_unsigned]
  rfl

/-! ## resolve -/

/-- The checks of `resolve`: the type, and the length of the name table. -/
def Accepted (packet : DatagramPacket) : Prop :=
  57 ≤ packet.length ∧ packet.data.getD 47 0 = 33 ∧
    entryOffset (nameCount packet.data) ≤ packet.length

instance (packet : DatagramPacket) : Decidable (Accepted packet) :=
  inferInstanceAs (Decidable (_ ∧ _ ∧ _))

/-- `receive` fills the buffer up to its size. -/
theorem received_received (datagram : List UInt8) : (received datagram).Received 1024 where
  length_data := by simp [received]; omega
  length_le := Nat.min_le_right _ _

/-- At most 53 entries fit, and they leave 13 bytes of the buffer. -/
theorem entryOffset_add_le {n : Nat} (h : entryOffset n ≤ 1024) : entryOffset n + 6 ≤ 1024 := by
  simp only [entryOffset] at h ⊢
  omega

/-- An accepted packet is answered with the report on its entries, and no other one. -/
theorem readResponse_eq (malformed : List UInt8 → List Char) {packet : DatagramPacket}
    (h : packet.Received 1024) : readResponse malformed packet = .ok (if Accepted packet then
      some (report malformed (entriesOf packet.data) (unitIdOf packet.data)) else none) := by
  have hlength := h.length_data
  have htype : byteAt packet.data responseTypePos = .ok (packet.data.getD 47 0) :=
    byteAt_eq (by rw [hlength]; decide)
  have hcount : byteAt packet.data (responseBaseLen - 1) = .ok (packet.data.getD 56 0) :=
    byteAt_eq (by rw [hlength]; decide)
  -- the guards, in the order of the code
  have hread : readResponse malformed packet =
      if packet.length < 57 then .ok none
      else if packet.data.getD 47 0 ≠ 33 then .ok none
      else if packet.length < entryOffset (nameCount packet.data) then .ok none
      else (extractNames malformed packet.data (nameCount packet.data)).map some := by
    unfold readResponse
    simp only [htype, hcount]
    rfl
  rw [hread]
  by_cases h₁ : packet.length < 57
  · rw [if_pos h₁, if_neg fun ha => absurd ha.1 (Nat.not_le_of_lt h₁)]
  rw [if_neg h₁]
  by_cases h₂ : packet.data.getD 47 0 = 33
  · rw [if_neg (not_not.mpr h₂)]
    by_cases h₃ : entryOffset (nameCount packet.data) ≤ packet.length
    -- a packet that passes them holds the table, and the buffer the unit id
    · have hroom := entryOffset_add_le (Nat.le_trans h₃ h.length_le)
      rw [if_neg (Nat.not_lt_of_le h₃), if_pos ⟨Nat.le_of_not_lt h₁, h₂, h₃⟩,
        extractNames_eq (hlength ▸ hroom)]
      rfl
    · rw [if_pos (Nat.lt_of_not_le h₃), if_neg fun ha => h₃ ha.2.2]
  · rw [if_pos h₂, if_neg fun ha => h₂ ha.2.1]

/-- **No index leaves the buffer.** Whatever datagram comes, in the buffer of 1024 bytes
    all accesses are in range, and neither an `ArrayIndexOutOfBoundsException` nor
    anything else is raised. -/
theorem resolve_in_bounds (malformed : List UInt8 → List Char) (ip : InetAddress)
    (datagram : List UInt8) : (received datagram).data.length = 1024 ∧
      ∃ names, resolve malformed (fun _ _ => some datagram) ip = .ok names :=
  ⟨(received_received datagram).length_data, _, readResponse_eq malformed (received_received _)⟩

end LanScan.Android.NetBIOSResolver
