import LanScan.Spec.Android.NetlinkAttributes

/-!
# Attributes added to a message

What `addattr_l` makes of a message, and that `parse_rtattr` finds the attributes that have
been added, call after call.  The lengths are numbers of 32 bits that wrap around, so the
message has to be within its bound from the start.

Key results:
- `hasAttributes_withAttribute`: one more attribute stands behind the others
- `parseRtattr_addattrs`: every sequence of calls, with the bound on the message
-/

namespace LanScan.Android.Netlink

open LittleEndian

variable {front back data : List UInt8} {n : Ptr} {start bound : Nat} {maxlen : Int32}
  {type : UInt16} {attributes : List (UInt16 × List UInt8)}

/-! ## Writing to memory -/

/-- Bytes that are stored at the front replace as many. -/
theorem store_zero (mem : Ptr) (data : List UInt8) :
    store mem 0 data = data ++ mem.drop data.length := by
  rw [store, List.take_zero, List.nil_append, Nat.zero_add]

/-- Nothing in front of the position changes. -/
theorem store_append {k : Nat} (h : front.length = k) (back : Ptr) (i : Nat) (data : List UInt8) :
    store (front ++ back) (k + i) data = front ++ store back i data := by
  subst h
  rw [store, store, List.take_length_add_append, Nat.add_assoc, List.drop_length_add_append,
    List.append_assoc]

/-- The three writes of `addattr_l` behind the message. -/
theorem store_attribute (h : 2 ≤ back.length) (type : UInt16) (data : List UInt8) :
    store (store (store back 2 (bytes 2 type.toNat)) 0 (bytes 2 (rtaLength data.length)))
        (rtaLength 0) data =
      encodeAttribute (type, data) ++ back.drop (rtaLength data.length) := by
  -- the type is stored first, then the length in front of it
  have htype : store back 2 (bytes 2 type.toNat) =
      back.take 2 ++ (bytes 2 type.toNat ++ back.drop 4) := by
    rw [store, length_bytes]
  have hlen : store (store back 2 (bytes 2 type.toNat)) 0 (bytes 2 (rtaLength data.length)) =
      (bytes 2 (rtaLength data.length) ++ bytes 2 type.toNat) ++ back.drop 4 := by
    rw [htype, store_zero, length_bytes, List.drop_left' (by simp [h]), List.append_assoc]
  have hlength : (bytes 2 (rtaLength data.length) ++ bytes 2 type.toNat).length = rtaLength 0 := by
    simp [rtaLength, align]
  -- the payload behind both
  have hdata := store_append hlength (back.drop 4) 0 data
  rw [Nat.add_zero, store_zero, List.drop_drop] at hdata
  rw [hlen, hdata, encodeAttribute]
  simp [rtaLength, align]

/-- The bytes that an attribute takes. -/
def space (a : UInt16 × List UInt8) : Nat := align (rtaLength a.2.length)

/-- `NLMSG_TAIL` of a message, from its start on -/
def tail (n : Ptr) : Nat := align (nlmsgLen n)

/-- A message with one more attribute behind it. -/
def withAttribute (n : Ptr) (type : UInt16) (data : List UInt8) : Ptr :=
  store (n.take (tail n) ++ (encodeAttribute (type, data) ++
    n.drop (tail n + rtaLength data.length))) 0 (bytes 4 (tail n + space (type, data)))

/-! ## Numbers of 32 bits -/

/-- Without an overflow the length is rounded up. -/
theorem toNat_align32 {len : UInt32} (h : len.toNat + 3 < 4294967296) :
    (align32 len).toNat = align len.toNat := by
  -- The sum does not wrap, by the bound on `len`.
  have hadd : (len + 3).toNat = len.toNat + 3 := by
    rw [UInt32.toNat_add]
    exact Nat.mod_eq_of_lt h
  have hdiv : ((len + 3) / 4).toNat = (len.toNat + 3) / 4 := by
    rw [UInt32.toNat_div, hadd]
    rfl
  have hfour : (4 : UInt32).toNat = 4 := rfl
  rw [align32, UInt32.toNat_mul, hdiv, hfour, align]
  exact Nat.mod_eq_of_lt (by omega)

/-- The length field is read as a 32-bit number. -/
theorem toNat_u32 (h : nlmsgLen n < 4294967296) : (u32 n 0).toNat = nlmsgLen n :=
  UInt32.toNat_ofNat_of_lt' h

/-- The length of an attribute fits 32 bits. -/
theorem toNat_ofNat_rtaLength (hlen : rtaLength data.length < 65536) :
    (UInt32.ofNat (rtaLength data.length)).toNat = rtaLength data.length :=
  UInt32.toNat_ofNat_of_lt' (Nat.lt_trans hlen (by decide))

/-- The length that the message gets, in 32 bits, when it stays below 2 ^ 32. -/
theorem toNat_tail_add (type : UInt16) (hn : nlmsgLen n < 2147483648)
    (hlen : rtaLength data.length < 65536) :
    (align32 (u32 n 0) + align32 (.ofNat (rtaLength data.length))).toNat =
        tail n + space (type, data) ∧
      (align32 (u32 n 0)).toNat = tail n := by
  have hu32 : (u32 n 0).toNat = nlmsgLen n := toNat_u32 (by omega)
  have hofNat := toNat_ofNat_rtaLength hlen
  -- neither of the two is rounded up past 32 bits, and nor is their sum
  have htail : (align32 (u32 n 0)).toNat = tail n := by
    rw [toNat_align32 (by omega), hu32, tail]
  have hspace : (align32 (.ofNat (rtaLength data.length))).toNat = space (type, data) := by
    rw [toNat_align32 (by omega), hofNat, space]
  refine ⟨?_, htail⟩
  rw [UInt32.toNat_add, htail, hspace]
  refine Nat.mod_eq_of_lt ?_
  simp only [tail, space, align]
  omega

/-! ## One call -/

/-- A message in a buffer of `bound` bytes, to which `addattr_l` has added attributes behind its
    first `start` bytes. -/
structure HasAttributes (start bound : Nat) (attributes : List (UInt16 × List UInt8)) (n : Ptr) :
    Prop where
  room : bound ≤ n.length
  header : 4 ≤ start
  start_le : start ≤ tail n
  /-- there is padding behind the message only as long as nothing has been added -/
  aligned : tail n = nlmsgLen n ∨ start = tail n
  le_bound : nlmsgLen n ≤ bound
  layout : rtattr.Layout (attributes.map encodeAttribute) ((n.drop start).take (tail n - start))

/-- `maxlen` as a number that is not negative. -/
structure IsBound (maxlen : Int32) (bound : Nat) : Prop where
  toNat_eq : maxlen.toUInt32.toNat = bound
  lt : bound < 2147483648

/-- An `int` that is not negative is the bound that it says. -/
theorem isBound_of_nonneg (h : 0 ≤ maxlen) : IsBound maxlen maxlen.toNatClampNeg where
  toNat_eq := Int32.toNat_toUInt32_of_le h
  lt := by
    have hlt := maxlen.toInt_lt
    rw [Int32.toNatClampNeg]
    omega

/-- Without room the message is left as it is. -/
theorem addattrL_of_lt (hb : IsBound maxlen bound) (h : HasAttributes start bound attributes n)
    (hlen : rtaLength data.length < 65536) (hmax : bound < tail n + space (type, data)) :
    addattrL n maxlen type data = (-1, n) := by
  have hn := Nat.lt_of_le_of_lt h.le_bound hb.lt
  refine if_pos (UInt32.lt_iff_toNat_lt.mpr ?_)
  rw [hb.toNat_eq, (toNat_tail_add type hn hlen).1]
  exact hmax

/-- What `addattr_l` leaves of memory when there is room. -/
theorem addattrL_of_le (hb : IsBound maxlen bound) (h : HasAttributes start bound attributes n)
    (hlen : rtaLength data.length < 65536) (hmax : tail n + space (type, data) ≤ bound) :
    addattrL n maxlen type data = (0, withAttribute n type data) := by
  have hroom := h.room
  have htail := Nat.le_trans h.header h.start_le
  obtain ⟨hsum, hrta⟩ :=
    toNat_tail_add type (Nat.lt_of_le_of_lt h.le_bound hb.lt) hlen
  have hlength : (n.take (tail n)).length = tail n := by
    rw [List.length_take]
    omega
  have hback : 2 ≤ (n.drop (tail n)).length := by
    have hle : rtaLength data.length ≤ space (type, data) := le_align _
    have hlen : rtaLength data.length = 4 + data.length := rfl
    rw [List.length_drop]
    omega
  have hstores : store (store (store n (tail n + 2) (bytes 2 type.toNat)) (tail n)
      (bytes 2 (rtaLength data.length))) (tail n + rtaLength 0) data =
      n.take (tail n) ++ (encodeAttribute (type, data) ++
        n.drop (tail n + rtaLength data.length)) := by
    nth_rewrite 1 [← List.take_append_drop (tail n) n]
    have hzero := store_append hlength
      (store (n.drop (tail n)) 2 (bytes 2 type.toNat)) 0 (bytes 2 (rtaLength data.length))
    rw [Nat.add_zero] at hzero
    rw [store_append hlength, hzero, store_append hlength, store_attribute hback, List.drop_drop]
  -- the length field is still the one of the message before
  have hread : u32 (n.take (tail n) ++ (encodeAttribute (type, data) ++
      n.drop (tail n + rtaLength data.length))) 0 = u32 n 0 := by
    have hfield : 0 + 4 ≤ (n.take (tail n)).length := by omega
    rw [u32, read_append_left hfield, read_take (by omega), u32]
  have hbound : ¬ maxlen.toUInt32 <
      align32 (u32 n 0) + align32 (.ofNat (rtaLength data.length)) := by
    rw [UInt32.lt_iff_toNat_lt, hb.toNat_eq, hsum]
    exact Nat.not_lt.mpr hmax
  have hofNat := toNat_ofNat_rtaLength hlen
  unfold addattrL
  simp only [if_neg hbound, hrta, hofNat, hstores, hread, hsum]
  rfl

/-- A length close to 2 ^ 32 wraps around: the call succeeds, and the attribute is written over
    the header. -/
example : addattrL ([0xFD, 0xFF, 0xFF, 0xFF] ++ List.replicate 12 0) 16 1 [] =
    (0, [8, 0, 1, 0] ++ List.replicate 12 0) := by
  decide

/-- Behind the first bytes of the message that `addattr_l` leaves. -/
theorem drop_store_zero {mem : Ptr} (h : 4 ≤ start) (len : Nat) :
    (store mem 0 (bytes 4 len)).drop start = mem.drop start := by
  obtain ⟨k, rfl⟩ := Nat.exists_eq_add_of_le h
  rw [store_zero, length_bytes, ← List.drop_drop, List.drop_left' (length_bytes 4 len),
    List.drop_drop]

/-- The message reaches up to its tail. -/
theorem length_take_tail (h : HasAttributes start bound attributes n)
    (hmax : tail n + space (type, data) ≤ bound) : (n.take (tail n)).length = tail n := by
  have hroom := h.room
  rw [List.length_take, Nat.min_eq_left (by omega)]

/-- The new length field counts the attribute and its padding. -/
theorem nlmsgLen_withAttribute (hb : IsBound maxlen bound)
    (hmax : tail n + space (type, data) ≤ bound) :
    nlmsgLen (withAttribute n type data) = tail n + space (type, data) := by
  have hlt := hb.lt
  rw [withAttribute, nlmsgLen, store_zero]
  exact read_bytes_append (show _ < 4294967296 by omega) _

/-- The next attribute goes behind this one. -/
theorem tail_withAttribute (hb : IsBound maxlen bound)
    (hmax : tail n + space (type, data) ≤ bound) :
    tail (withAttribute n type data) = tail n + space (type, data) := by
  rw [tail, nlmsgLen_withAttribute hb hmax, tail, space]
  simp only [align]
  omega

/-- The buffer does not get smaller. -/
theorem le_length_withAttribute (h : HasAttributes start bound attributes n)
    (hmax : tail n + space (type, data) ≤ bound) :
    bound ≤ (withAttribute n type data).length := by
  have hroom := h.room
  have hstart := Nat.le_trans h.header h.start_le
  have hattribute : (encodeAttribute (type, data)).length = rtaLength data.length :=
    length_encodeAttribute _
  rw [withAttribute, store_zero, List.length_append, length_bytes, List.length_drop,
    List.length_append, List.length_append, length_take_tail h hmax, hattribute, List.length_drop]
  omega

/-- Behind the attributes of before stand the new one and its padding. -/
theorem attributes_withAttribute (hb : IsBound maxlen bound)
    (h : HasAttributes start bound attributes n) (hmax : tail n + space (type, data) ≤ bound) :
    ∃ padding, rtaLength data.length + padding.length = space (type, data) ∧
      ((withAttribute n type data).drop start).take (tail (withAttribute n type data) - start) =
        (n.drop start).take (tail n - start) ++
          (encodeAttribute (type, data) ++ padding ++ []) := by
  have hstart := h.start_le
  have hroom := h.room
  have hspace : rtaLength data.length ≤ space (type, data) := le_align _
  have htake := length_take_tail h hmax
  have hattribute : (encodeAttribute (type, data)).length = rtaLength data.length :=
    length_encodeAttribute _
  -- the padding is what the buffer held there before
  obtain ⟨k, hk⟩ := Nat.exists_eq_add_of_le hspace
  have hsize : tail n + space (type, data) - start =
      ((n.take (tail n)).drop start).length + ((encodeAttribute (type, data)).length + k) := by
    rw [List.length_drop, htake, hattribute]
    omega
  refine ⟨(n.drop (tail n + rtaLength data.length)).take k, ?_, ?_⟩
  · rw [List.length_take, List.length_drop]
    omega
  -- behind the old tail come the attribute and `k` bytes
  · rw [tail_withAttribute hb hmax, withAttribute, drop_store_zero h.header,
      List.drop_append_of_le_length (by omega), hsize, List.take_length_add_append,
      List.take_length_add_append, List.drop_take, List.append_nil]

/-- With room there is one more attribute behind the others. -/
theorem hasAttributes_withAttribute (hb : IsBound maxlen bound)
    (h : HasAttributes start bound attributes n) (hlen : rtaLength data.length < 65536)
    (hmax : tail n + space (type, data) ≤ bound) :
    HasAttributes start bound (attributes ++ [(type, data)]) (withAttribute n type data) := by
  have hnlmsgLen := nlmsgLen_withAttribute hb hmax
  have htail := tail_withAttribute hb hmax
  have hstart := h.start_le
  -- the layout grows by a padded attribute, and ends at the new length
  obtain ⟨padding, hpadding, hattributes⟩ := attributes_withAttribute hb h hmax
  refine ⟨le_length_withAttribute h hmax, h.header, by omega, .inl (htail.trans hnlmsgLen.symm),
    hnlmsgLen ▸ hmax, ?_⟩
  rw [hattributes, List.map_append, List.map_singleton]
  refine h.layout.append (.cons (wellFormed_encodeAttribute hlen) ?_ .nil)
  rw [length_encodeAttribute]
  exact hpadding

/-- The attributes behind the first `start` bytes are those that have been added. -/
theorem attributesOf_drop (h : HasAttributes start bound attributes n) :
    attributesOf (n.drop start) ((nlmsgLen n : Int) - start) = attributes := by
  have hstart := h.start_le
  have hroom := h.room
  have hbound := h.le_bound
  have hrecords := (rtattr.records_of_layout h.layout).1
  rcases h.aligned with htail | htail
  · have hlength : ((n.drop start).take (tail n - start)).length = nlmsgLen n - start := by
      rw [List.length_take, List.length_drop]
      omega
    have hlen : (nlmsgLen n : Int) - start = (nlmsgLen n - start : Nat) := by omega
    rw [hlength, htail, (rtattr.records_take (Int.le_refl _)).1] at hrecords
    rw [attributesOf, hlen, hrecords, List.map_map]
    exact List.map_id'' decode_encodeAttribute attributes
  · -- nothing has been added
    have hle : nlmsgLen n ≤ tail n := le_align _
    rw [← htail, Nat.sub_self, List.take_zero,
      rtattr.records_of_not_ok (rtattr.not_ok_of_nonpos (by simp))] at hrecords
    rw [attributesOf, rtattr.records_of_not_ok (rtattr.not_ok_of_nonpos (by omega)),
      List.map_eq_nil_iff.mp hrecords.symm]
    rfl

/-! ## Any number of calls -/

/-- `addattr_l` for one attribute after the other, up to the first one without room. -/
def addattrs (maxlen : Int32) : Ptr → List (UInt16 × List UInt8) → Option Ptr
  | n, [] => some n
  | n, (type, data) :: rest =>
    match addattrL n maxlen type data with
    | (0, n) => addattrs maxlen n rest
    | _ => none

/-- Attributes are added as long as there is room, and the first one without room makes a call
    fail. -/
theorem hasAttributes_addattrs (hb : IsBound maxlen bound)
    (h : HasAttributes start bound attributes n) {added : List (UInt16 × List UInt8)}
    (hlen : ∀ a ∈ added, rtaLength a.2.length < 65536) :
    (∃ n', addattrs maxlen n added = some n' ∧
      HasAttributes start bound (attributes ++ added) n' ∧
      tail n' = tail n + (added.map space).sum ∧ (added ≠ [] → nlmsgLen n' = tail n')) ∨
    (bound < tail n + (added.map space).sum ∧ addattrs maxlen n added = none) := by
  induction added generalizing n attributes with
  | nil => exact .inl ⟨n, rfl, by simpa using h, rfl, fun hne => absurd rfl hne⟩
  | cons a added ih =>
    obtain ⟨type, data⟩ := a
    have hlen' := hlen _ List.mem_cons_self
    rw [List.map_cons, List.sum_cons]
    -- the call adds the attribute exactly if it fits with its padding
    by_cases hmax : tail n + space (type, data) ≤ bound
    · have hrest := ih (hasAttributes_withAttribute hb h hlen' hmax)
        fun a ha => hlen a (List.mem_cons_of_mem _ ha)
      rw [tail_withAttribute hb hmax, Nat.add_assoc, List.append_assoc] at hrest
      rw [addattrs, addattrL_of_le hb h hlen' hmax]
      refine hrest.imp_left ?_
      rintro ⟨n', hadd, hn', htail, hexact⟩
      refine ⟨n', hadd, hn', htail, fun _ => ?_⟩
      -- after the last attribute the length is the new tail
      by_cases hlast : added = []
      · subst hlast
        cases hadd
        exact (nlmsgLen_withAttribute hb hmax).trans (tail_withAttribute hb hmax).symm
      · exact hexact hlast
    · have hfull := Nat.lt_of_not_le hmax
      rw [addattrs, addattrL_of_lt hb h hlen' hfull]
      exact .inr ⟨by omega, rfl⟩

/-- **Adding and parsing.** Let a message be in a buffer of at least `maxlen` bytes, with its
    length within that bound and its length field within its length.  Then a sequence of
    attributes, each with a payload that `rta_len` can count, is added to it completely as long
    as all of it fits into the bound, and then `parse_rtattr` finds for each type the first one
    that was added; otherwise one of the calls fails. -/
theorem parseRtattr_addattrs (hmaxlen : 0 ≤ maxlen) (hroom : maxlen.toNatClampNeg ≤ n.length)
    (hheader : 4 ≤ nlmsgLen n) (hle : nlmsgLen n ≤ maxlen.toNatClampNeg)
    (hlen : ∀ a ∈ attributes, rtaLength a.2.length < 65536) :
    match addattrs maxlen n attributes with
    | none => maxlen.toNatClampNeg < tail n + (attributes.map space).sum
    | some n' => tail n' = tail n + (attributes.map space).sum ∧
      (attributes ≠ [] → nlmsgLen n' = tail n') ∧ nlmsgLen n' ≤ maxlen.toNatClampNeg ∧
      ∀ (max : Nat) (type : UInt16), type.toNat ≤ max →
        (parseRtattr max (n'.drop (tail n)) ((nlmsgLen n' : Int) - tail n) type).map payloadAt =
          attributes.lookup type := by
  -- at first there are no attributes behind the tail
  have hstart : HasAttributes (tail n) maxlen.toNatClampNeg [] n := by
    refine ⟨hroom, Nat.le_trans hheader (le_align _), Nat.le_refl _, .inr rfl, hle, ?_⟩
    rw [Nat.sub_self, List.take_zero]
    exact .nil
  rcases hasAttributes_addattrs (isBound_of_nonneg hmaxlen) hstart hlen with
    ⟨n', hadd, hn', htail, hexact⟩ | ⟨hfull, hadd⟩
  · rw [hadd]
    refine ⟨htail, hexact, hn'.le_bound, fun max type htype => ?_⟩
    rw [map_payloadAt_parseRtattr htype, attributesOf_drop hn']
    rfl
  · rw [hadd]
    exact hfull

/-- A request for neighbours without attributes, and room for some. -/
def neighRequest : Ptr :=
  [28, 0, 0, 0, 30, 0, 1, 3] ++ List.replicate 20 0 ++ List.replicate 36 0xFF

/-- The interface comes twice. -/
def neighAttributes : List (UInt16 × List UInt8) :=
  [(8, [3, 0, 0, 0]), (1, [192, 168, 1, 1, 7]), (8, [])]

/-- They fit into 64 bytes, and the first interface is found. -/
theorem parseRtattr_addattrs_neighRequest : ∃ n', addattrs 64 neighRequest neighAttributes =
    some n' ∧ (parseRtattr 8 (n'.drop (tail neighRequest))
      ((nlmsgLen n' : Int) - tail neighRequest) 8).map payloadAt = some [3, 0, 0, 0] := by
  have hadded := @parseRtattr_addattrs neighRequest 64 neighAttributes (by decide) (by decide)
    (by decide) (by decide) (show ∀ a ∈ neighAttributes, rtaLength a.2.length < 65536 by decide)
  -- All three attributes fit into the request, so adding them succeeds.
  cases hn' : addattrs 64 neighRequest neighAttributes with
  | none =>
    rw [hn'] at hadded
    exact absurd hadded (by decide)
  | some n' =>
    rw [hn'] at hadded
    exact ⟨n', rfl, (hadded.2.2.2 8 8 (by decide)).trans (by decide)⟩

end LanScan.Android.Netlink
