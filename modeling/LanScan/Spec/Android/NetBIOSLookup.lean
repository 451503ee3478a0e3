import LanScan.Spec.Android.NodeStatus

/-!
# NetBIOS lookups that are answered (Android)

What `NetBIOSResolver.resolve` returns for well-formed responses, and which bytes of
the buffer go into it.

## Key results

- `reads_received_iff`: when only bytes that were received are read
- `resolve_bytes`: a well-formed response is answered with the report on its entries
- `resolve_names_iff`: when the names are the right ones
-/

namespace LanScan.Android.NetBIOSResolver

open MDNSResolver (DatagramPacket)

variable {malformed : List UInt8 → List Char} {data : List UInt8}

/-! ## The bytes that are read -/

/-- Digits with the same character are equal. -/
theorem hexDigit_inj : ∀ m < 16, ∀ n < 16, hexDigit m = hexDigit n → m = n := by decide

/-- Bytes with the same two digits are equal. -/
theorem hexByte_injective {b b' : UInt8} (h : hexByte b = hexByte b') : b = b' := by
  have hb := b.toNat_lt
  have hb' := b'.toNat_lt
  simp only [hexByte, List.cons.injEq, and_true] at h
  have hhigh := hexDigit_inj _ (by omega) _ (by omega) h.1
  have hlow := hexDigit_inj _ (by omega) _ (by omega) h.2
  apply UInt8.toNat_inj.mp
  omega

/-- No digit is a dash. -/
theorem dash_notMem_hexByte (b : UInt8) : '-' ∉ hexByte b := by
  have hdigit : ∀ n < 16, '-' ≠ hexDigit n := by decide
  have hb := b.toNat_lt
  simp only [hexByte, List.mem_cons, List.not_mem_nil, or_false, not_or]
  exact ⟨hdigit _ (by omega), hdigit _ (by omega)⟩

/-- Unit ids with the same text are equal. -/
theorem macAddress_injective {unitId unitId' : Vector UInt8 6}
    (h : macAddress unitId = macAddress unitId') : unitId = unitId' := by
  -- No byte is printed with a dash, so the address splits back into its six parts.
  have hparts (v : Vector UInt8 6) :
      (['-'].intercalate (v.toList.map hexByte)).splitOn '-' = v.toList.map hexByte := by
    apply List.splitOn_intercalate
    · intro part hpart
      obtain ⟨b, -, rfl⟩ := List.mem_map.mp hpart
      exact dash_notMem_hexByte b
    · intro hnil
      have hlength := congrArg List.length hnil
      simp at hlength
  have hmap : unitId.toList.map hexByte = unitId'.toList.map hexByte := by
    rw [← hparts, String.ofList_inj.mp h, hparts]
  exact Vector.toList_inj.mp (List.map_injective_iff.mpr (fun _ _ => hexByte_injective) hmap)

/-- The entries are read from the part of the buffer up to the unit id. -/
theorem entries_congr {data' : List UInt8} {n : Nat} (h : data.AgreeUpTo n data') (hn : 57 ≤ n)
    (hentries : entryOffset (nameCount data) ≤ n) :
    nameCount data = nameCount data' ∧ entriesOf data = entriesOf data' := by
  have hcount : nameCount data = nameCount data' :=
    congrArg UInt8.toNat (h.getD (show 56 < n by omega) 0)
  refine ⟨hcount, ?_⟩
  rw [entriesOf, entriesOf, ← hcount]
  -- Each counted entry lies before `n`, the end of the agreeing bytes.
  apply List.map_congr_left
  intro i hi
  rw [List.mem_range] at hi
  simp only [entryOffset] at hentries
  exact NameEntry.ofBytes_congr (h.drop (by simp only [entryOffset]; omega))

/-- Only a packet that passes the guards gives names. -/
theorem accepted_of_readResponse {packet : DatagramPacket} {names : List (Option String)}
    (h : packet.Received 1024) (hnames : readResponse malformed packet = .ok (some names)) :
    Accepted packet := by
  by_contra hna
  rw [readResponse_eq malformed h, if_neg hna] at hnames
  cases hnames

/-- What is read from a buffer that agrees on the bytes received. -/
theorem readResponse_of_agreeUpTo (malformed : List UInt8 → List Char) {packet : DatagramPacket}
    (h : packet.Received 1024) (haccepted : Accepted packet) {data' : List UInt8}
    (hlength : data'.length = 1024) (hagree : packet.data.AgreeUpTo packet.length data') :
    readResponse malformed { packet with data := data' } = .ok (some
      (report malformed (entriesOf packet.data)
        (.block 6 0 (data'.drop (entryOffset (nameCount packet.data)))))) := by
  obtain ⟨hbase, htype, htable⟩ := haccepted
  obtain ⟨hcount, hentries⟩ := entries_congr hagree hbase htable
  -- The three checks read bytes on which the two buffers agree.
  have hacc : Accepted { packet with data := data' } :=
    ⟨hbase, (hagree.getD (by omega) 0).symm.trans htype, hcount ▸ htable⟩
  have hreceived : DatagramPacket.Received 1024 { packet with data := data' } :=
    ⟨hlength, h.length_le⟩
  rw [readResponse_eq malformed hreceived, if_pos hacc, hentries, hcount]
  rfl

/-- Only bytes that were received go into the names, if and only if the unit id was
    received as well; the check of the length does not ask for it. -/
theorem reads_received_iff (malformed : List UInt8 → List Char) {packet : DatagramPacket}
    {names : List (Option String)} (h : packet.Received 1024)
    (hnames : readResponse malformed packet = .ok (some names)) :
    (∀ data', data'.length = 1024 → packet.data.AgreeUpTo packet.length data' →
      readResponse malformed { packet with data := data' } = readResponse malformed packet) ↔
    entryOffset (nameCount packet.data) + 6 ≤ packet.length := by
  have haccepted := accepted_of_readResponse h hnames
  have hpacket := readResponse_of_agreeUpTo malformed h haccepted h.length_data rfl
  constructor
  · intro hsame
    by_contra hshort
    have htable := haccepted.2.2
    have hdata := h.length_data
    have hroom := entryOffset_add_le (Nat.le_trans htable h.length_le)
    -- the first byte that was not received belongs to the unit id
    obtain ⟨k, hk⟩ := Nat.exists_eq_add_of_le htable
    have hlt : entryOffset (nameCount packet.data) + k < packet.data.length := by omega
    let x := packet.data[entryOffset (nameCount packet.data) + k] + 1
    have hagree := List.agreeUpTo_set packet.data (Nat.le_of_eq hk) x
    have hset : (packet.data.set (entryOffset (nameCount packet.data) + k) x).length = 1024 := by
      rw [List.length_set, hdata]
    have heq := hsame _ hset hagree
    rw [readResponse_of_agreeUpTo malformed h haccepted hset hagree, hpacket] at heq
    simp only [report, Except.ok.injEq, Option.some.injEq, List.cons.injEq, and_true,
      true_and] at heq
    exact Vector.block_drop_set_ne (show k < 6 by omega) hlt (by simp [x]) 0
      (macAddress_injective heq)
  · intro hunit data' hlength hagree
    rw [readResponse_of_agreeUpTo malformed h haccepted hlength hagree, hpacket,
      Vector.block_congr (hagree.drop hunit)]

/-- A response without names, up to the name count. -/
def emptyStatus : List UInt8 := List.replicate 47 0 ++ 33 :: List.replicate 9 0

/-- The response of a box without names, with its unit id. -/
def boxPacket : DatagramPacket := received (emptyStatus ++ [2, 0, 0, 0, 0, 1])

/-- The status of the box, whatever the buffer held behind it. -/
theorem reads_received_box :
    readResponse (fun _ => []) boxPacket =
      .ok (some [none, none, none, some "02-00-00-00-00-01"]) ∧
    ∀ data', data'.length = 1024 → boxPacket.data.AgreeUpTo boxPacket.length data' →
      readResponse (fun _ => []) { boxPacket with data := data' } =
        readResponse (fun _ => []) boxPacket := by
  have hnames : readResponse (fun _ => []) boxPacket =
      .ok (some [none, none, none, some "02-00-00-00-00-01"]) := by decide +kernel
  exact ⟨hnames, (reads_received_iff (fun _ => []) (received_received _) hnames).mpr
    (by decide +kernel)⟩

/-- A datagram that ends behind the name count is answered with a unit id that was not
    received. -/
theorem reads_unreceived : ¬ ∀ malformed (packet : DatagramPacket) names, packet.Received 1024 →
    readResponse malformed packet = .ok (some names) → ∀ data', data'.length = 1024 →
    packet.data.AgreeUpTo packet.length data' →
    readResponse malformed { packet with data := data' } = readResponse malformed packet := by
  intro h
  have hsame := h (fun _ => []) (received emptyStatus) [none, none, none, some "00-00-00-00-00-00"]
    (received_received _) (by decide +kernel) ((received emptyStatus).data.set 57 1)
    (by rw [List.length_set]; exact (received_received _).length_data)
    (List.agreeUpTo_set _ (Nat.le_refl 57) 1)
  exact absurd hsame (by decide +kernel)

/-! ## Well-formed responses -/

/-- A node status response. -/
structure NodeStatus where
  /-- what stands before the name count -/
  header : Vector UInt8 56
  nbtstat : header[47] = 33
  entries : List NameEntry
  length_entries : entries.length < 256
  unitId : Vector UInt8 6
  trailing : List UInt8

namespace NodeStatus

/-- The part of a response that is read. -/
def table (r : NodeStatus) : List UInt8 :=
  r.entries.flatMap NameEntry.bytes ++ r.unitId.toList

/-- The bytes of the response. -/
def bytes (r : NodeStatus) : List UInt8 :=
  r.header.toList ++ UInt8.ofNat r.entries.length :: (r.table ++ r.trailing)

variable (r : NodeStatus)

/-- The trimmed name of entry 0. -/
def computerName (malformed : List UInt8 → List Char) : Option String :=
  r.entries.head?.map (NameEntry.text malformed)

/-- The trimmed name of the lowest entry from 1 on that names a group. -/
def groupName (malformed : List UInt8 → List Char) : Option String :=
  (r.entries.tail.find? NameEntry.isGroup).map (NameEntry.text malformed)

/-- The trimmed name of the highest entry from 1 on that names a user. -/
def userName (malformed : List UInt8 → List Char) : Option String :=
  (r.entries.tail.reverse.find? NameEntry.isUser).map (NameEntry.text malformed)

/-- Each entry takes eighteen bytes, and the unit id six. -/
theorem length_table : r.table.length = 18 * r.entries.length + 6 := by
  simp [table, List.length_flatMap, Nat.mul_comm]

/-- Byte 56 of what is received is the number of entries. -/
theorem nameCount_received : nameCount (received r.bytes).data = r.entries.length := by
  have hcount := r.length_entries
  have hbyte : (received r.bytes).data.getD 56 0 = UInt8.ofNat r.entries.length := by
    have hlt : 56 < min 1024 (56 + (r.table.length + r.trailing.length + 1)) := by omega
    simp [received, bytes, List.getD_eq_getElem?_getD, List.getElem?_append, hlt]
  rw [nameCount, hbyte, UInt8.toNat_ofNat']
  omega

variable {r}

/-- A table that passes the check is received whole, with the unit id. -/
theorem data_received (h : entryOffset r.entries.length ≤ 1024) : ∃ after,
    (received r.bytes).data =
      (r.header.toList ++ [UInt8.ofNat r.entries.length]) ++ (r.table ++ after) := by
  have hroom := entryOffset_add_le h
  have htable := r.length_table
  simp only [entryOffset] at hroom
  -- the table lies within the buffer
  have hfront : ((r.header.toList ++ [UInt8.ofNat r.entries.length]) ++ r.table).length ≤ 1024 := by
    simp [htable]
    omega
  have hbytes : r.bytes =
      ((r.header.toList ++ [UInt8.ofNat r.entries.length]) ++ r.table) ++ r.trailing := by
    simp [bytes]
  refine ⟨r.trailing.take (1024 - ((r.header.toList ++ [UInt8.ofNat r.entries.length]) ++
    r.table).length) ++ List.replicate (1024 - r.bytes.length) 0, ?_⟩
  simp only [received]
  -- so only trailing bytes are cut off
  rw [hbytes, List.take_append, List.take_of_length_le hfront]
  simp only [List.append_assoc]

/-- What stands behind the first `i` entries. -/
theorem drop_entryOffset (after : List UInt8) {i : Nat} (hi : i ≤ r.entries.length) :
    ((r.header.toList ++ [UInt8.ofNat r.entries.length]) ++ (r.table ++ after)).drop
      (entryOffset i) =
        (r.entries.drop i).flatMap NameEntry.bytes ++ (r.unitId.toList ++ after) := by
  have hhead : (r.header.toList ++ [UInt8.ofNat r.entries.length]).length = 57 := by simp
  have hlength : 18 * i ≤ (r.entries.flatMap NameEntry.bytes).length := by
    simp [List.length_flatMap]
    omega
  rw [entryOffset, ← List.drop_drop, ← hhead, List.drop_left, table, List.append_assoc,
    List.drop_append_of_le_length hlength,
    List.drop_flatMap_of_length (fun e _ => e.length_bytes)]

/-- The entries are read back from the packet. -/
theorem entries_received (h : entryOffset r.entries.length ≤ 1024) :
    entriesOf (received r.bytes).data = r.entries := by
  obtain ⟨after, hdata⟩ := data_received h
  rw [entriesOf, nameCount_received]
  apply List.ext_getElem
  · simp
  · intro i _ hi
    rw [List.getElem_map, List.getElem_range, entryAt, hdata,
      drop_entryOffset after (Nat.le_of_lt hi), List.drop_eq_getElem_cons hi, List.flatMap_cons,
      List.append_assoc, NameEntry.ofBytes_append]

/-- The unit id is read back from the packet. -/
theorem unitId_received (h : entryOffset r.entries.length ≤ 1024) :
    unitIdOf (received r.bytes).data = r.unitId := by
  obtain ⟨after, hdata⟩ := data_received h
  rw [unitIdOf, nameCount_received, hdata, drop_entryOffset after (Nat.le_refl _),
    List.drop_length, List.flatMap_nil, List.nil_append, Vector.block_append]

end NodeStatus

/-! ## Names -/

/-- A response that passes the checks is answered with the report on its entries. -/
theorem resolve_bytes (malformed : List UInt8 → List Char) (ip : InetAddress) {r : NodeStatus}
    (h : Accepted (received r.bytes)) :
    resolve malformed (fun _ _ => some r.bytes) ip =
      .ok (some (report malformed r.entries r.unitId)) := by
  have hfits : entryOffset r.entries.length ≤ 1024 := by
    rw [← r.nameCount_received]
    exact Nat.le_trans h.2.2 (received_received _).length_le
  show readResponse malformed (received r.bytes) = _
  rw [readResponse_eq malformed (received_received _), if_pos h, NodeStatus.entries_received hfits,
    NodeStatus.unitId_received hfits]

/-- The group name is seen: the top bit of its second flag byte is not set, or another
    group with the same name is found instead. -/
def NodeStatus.GroupSeen (malformed : List UInt8 → List Char) (r : NodeStatus) : Prop :=
  ∀ e, r.entries.tail.find? NameEntry.isGroup = some e → e.flag₂ < 128 ∨
    ∃ e', r.entries.tail.find? NameEntry.isGroupSeen = some e' ∧
      e'.text malformed = e.text malformed

/-- **Names.** A response that passes the checks is answered with its computer name, user
    name, group name and unit id, if and only if its group name is seen. -/
theorem resolve_names_iff (malformed : List UInt8 → List Char) (ip : InetAddress)
    (r : NodeStatus) (h : Accepted (received r.bytes)) :
    resolve malformed (fun _ _ => some r.bytes) ip = .ok (some [r.computerName malformed,
      r.userName malformed, r.groupName malformed, some (macAddress r.unitId)]) ↔
    r.GroupSeen malformed := by
  -- the other names are found where the table has them
  have hgroup : resolve malformed (fun _ _ => some r.bytes) ip = .ok (some [
      r.computerName malformed, r.userName malformed, r.groupName malformed,
      some (macAddress r.unitId)]) ↔
      (r.entries.tail.find? NameEntry.isGroupSeen).map (NameEntry.text malformed) =
        r.groupName malformed := by
    rw [resolve_bytes malformed ip h]
    simp [report, NodeStatus.computerName, NodeStatus.userName]
  -- the flags in the mask are one way to be a group
  have himp : ∀ e : NameEntry, e.isGroupSeen → e.isGroup := fun e he =>
    (Bool.and_eq_true_iff.mp he).1
  rw [hgroup, NodeStatus.groupName]
  constructor
  · intro heq e he
    rw [he, Option.map_some, Option.map_eq_some_iff] at heq
    obtain ⟨e', he', htext⟩ := heq
    exact .inr ⟨e', he', htext⟩
  · intro hseen
    cases hfind : r.entries.tail.find? NameEntry.isGroup with
    | none =>
      -- without a group there is none that is seen
      have hnone : r.entries.tail.find? NameEntry.isGroupSeen = none := by
        rw [List.find?_eq_none] at hfind ⊢
        exact fun e he hs => hfind e he (himp e hs)
      rw [hnone]
    | some e =>
      rcases hseen e hfind with hflag | ⟨e', he', htext⟩
      -- the first group is seen itself, or the first one seen has its name
      · have hgroup' : e.isGroup := List.find?_some hfind
        have hboth : e.isGroupSeen := Bool.and_eq_true_iff.mpr ⟨hgroup', decide_eq_true hflag⟩
        rw [List.find?_of_imp himp hfind hboth]
      · rw [he', Option.map_some, htext, Option.map_some]

/-- A computer and a workgroup, whose entry has the given second flag byte. -/
def workgroupStatus (flag₂ : UInt8) : NodeStatus where
  header := .ofFn fun k => if k = 47 then 33 else 0
  nbtstat := by simp
  entries := [⟨.replicate 15 80, 0, 4, 0⟩, ⟨.replicate 15 87, 0, 0x84, flag₂⟩]
  length_entries := by simp
  unitId := .replicate 6 2
  trailing := []

/-- A workgroup whose flags have the second bit set. -/
theorem resolve_names_workgroup :
    resolve (fun _ => []) (fun _ _ => some (workgroupStatus 0).bytes) (.inet4 10 0 0 5) =
      .ok (some [(workgroupStatus 0).computerName fun _ => [],
        (workgroupStatus 0).userName fun _ => [], (workgroupStatus 0).groupName fun _ => [],
        some (macAddress (workgroupStatus 0).unitId)]) :=
  (resolve_names_iff (fun _ => []) (.inet4 10 0 0 5) (workgroupStatus 0) (by decide +kernel)).mpr
    fun e he => .inl (by
      obtain rfl : ⟨.replicate 15 87, 0, 0x84, 0⟩ = e := Option.some.inj he
      decide)

/-- The top bit of the second flag byte hides the name of the workgroup. -/
theorem group_hidden : ¬ ∀ malformed ip (r : NodeStatus), Accepted (received r.bytes) →
    resolve malformed (fun _ _ => some r.bytes) ip = .ok (some [r.computerName malformed,
      r.userName malformed, r.groupName malformed, some (macAddress r.unitId)]) := by
  intro h
  have haccepted : Accepted (received (workgroupStatus 0x80).bytes) := by decide +kernel
  have hnames := h (fun _ => []) (.inet4 10 0 0 5) _ haccepted
  rw [resolve_bytes _ _ haccepted] at hnames
  simp only [report, Except.ok.injEq, Option.some.injEq, List.cons.injEq] at hnames
  exact nomatch hnames.2.2.1

end LanScan.Android.NetBIOSResolver
