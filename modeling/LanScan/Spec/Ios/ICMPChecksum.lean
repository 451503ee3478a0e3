import LanScan.ForStd.OnesComplement
import LanScan.Native.Ios.ICMPPacket

/-!
# The Internet checksum (iOS)

`calculateChecksum` adds the words in 32 bits and folds the carries in twice.  That is the
complement of their one's-complement sum as long as 32 bits are enough, which they are for
65537 words.

## Key results

- `calculateChecksum_eq`: the checksum, or a trap
- `checksum_law`: the words and the checksum add up to all ones
- `createICMPPacket_law`: so do the words of the packet that is sent
-/

namespace LanScan.Ios.ICMPPacket

open BitVec (onesSum onesResidue)

/-- The sum of the words as numbers. -/
def wordSum (ws : List UInt16) : Nat := (ws.map UInt16.toNat).sum

/-- The first word is added to the sum of the others. -/
theorem wordSum_cons (w : UInt16) (ws : List UInt16) :
    wordSum (w :: ws) = w.toNat + wordSum ws := by
  rw [wordSum, List.map_cons, List.sum_cons, wordSum]

/-! ## The sum in 32 bits -/

/-- A sum below 2^32 does not trap. -/
theorem add_eq_some {x y : UInt32} (h : x.toNat + y.toNat < 2 ^ 32) :
    ∃ z, add x y = some z ∧ z.toNat = x.toNat + y.toNat := by
  refine ⟨x + y, if_pos h, ?_⟩
  rw [UInt32.toNat_add]
  exact Nat.mod_eq_of_lt h

/-- The loop adds the words, as long as 32 bits are enough. -/
theorem foldlM_add (ws : List UInt16) (sum : UInt32) (h : sum.toNat + wordSum ws < 2 ^ 32) :
    ∃ total, ws.foldlM (fun sum word => add sum word.toUInt32) sum = some total ∧
      total.toNat = sum.toNat + wordSum ws := by
  induction ws generalizing sum with
  | nil => exact ⟨sum, rfl, rfl⟩
  | cons w ws ih =>
    rw [wordSum_cons] at h ⊢
    have hword : w.toUInt32.toNat = w.toNat := UInt16.toNat_toUInt32 w
    -- The sum with this word is still below 2³², so the addition does not trap.
    obtain ⟨next, hnext, hnat⟩ := add_eq_some (x := sum) (y := w.toUInt32) (by omega)
    obtain ⟨total, htotal, hsum⟩ := ih next (by omega)
    refine ⟨total, ?_, by omega⟩
    rw [List.foldlM_cons, hnext]
    exact htotal

/-- A sum that needs more than 32 bits traps. -/
theorem foldlM_add_eq_none (ws : List UInt16) (sum : UInt32)
    (h : 2 ^ 32 ≤ sum.toNat + wordSum ws) :
    ws.foldlM (fun sum word => add sum word.toUInt32) sum = none := by
  induction ws generalizing sum with
  | nil =>
    have hlt : sum.toNat < 2 ^ 32 := sum.toNat_lt
    exact absurd h (Nat.not_le.mpr hlt)
  | cons w ws ih =>
    rw [wordSum_cons] at h
    have hword : w.toUInt32.toNat = w.toNat := UInt16.toNat_toUInt32 w
    rw [List.foldlM_cons]
    -- the first word traps, or one of the others does
    by_cases hlt : sum.toNat + w.toUInt32.toNat < 2 ^ 32
    · obtain ⟨next, hnext, hnat⟩ := add_eq_some hlt
      rw [hnext]
      exact ih _ (by omega)
    · have hnone : add sum w.toUInt32 = none := if_neg hlt
      rw [hnone]
      rfl

/-! ## The two folds -/

/-- Two folds absorb every carry: at the second one the sum is `0x1FFFF` at most. -/
theorem fold_eq_onesResidue {n : Nat} (h : n < 2 ^ 32) :
    (n / 65536 + n % 65536 + (n / 65536 + n % 65536) / 65536) % 65536 =
      onesResidue (2 ^ 16 - 1) n := by
  rw [onesResidue]
  split
  · omega
  · -- what the first fold leaves out is a multiple of 65535
    have hfold : n - 1 = 65535 * (n / 65536) + (n / 65536 + n % 65536 - 1) := by omega
    have hpos : 0 < n / 65536 + n % 65536 := by omega
    have hle : n / 65536 + n % 65536 ≤ 131070 := by omega
    rw [hfold, show (2 ^ 16 - 1 : Nat) = 65535 by decide, Nat.mul_add_mod]
    generalize n / 65536 + n % 65536 = once at hpos hle ⊢
    by_cases hcarry : once < 65536
    · rw [Nat.div_eq_of_lt hcarry, Nat.add_zero, Nat.mod_eq_of_lt hcarry,
        Nat.mod_eq_of_lt (by omega)]
      omega
    · rw [show once / 65536 = 1 by omega,
        Nat.mod_eq_sub_mod (a := once + 1) (by omega), Nat.mod_eq_of_lt (by omega),
        Nat.mod_eq_sub_mod (a := once - 1) (by omega), Nat.mod_eq_of_lt (by omega)]
      omega

/-- Masking leaves the lower word. -/
theorem toNat_and_low (x : UInt32) : (x &&& 0xFFFF).toNat = x.toNat % 65536 := by
  rw [UInt32.toNat_and]
  exact Nat.and_two_pow_sub_one_eq_mod x.toNat 16

/-- Shifting leaves the upper word. -/
theorem toNat_shift (x : UInt32) : (x >>> 16).toNat = x.toNat / 65536 := by
  rw [UInt32.toNat_shiftRight]
  exact Nat.shiftRight_eq_div_pow x.toNat 16

/-- The ones' complement sum of words, by their sum. -/
theorem toNat_onesSum_words (ws : List UInt16) :
    (onesSum (ws.map UInt16.toBitVec)).toNat = onesResidue (2 ^ 16 - 1) (wordSum ws) := by
  rw [BitVec.toNat_onesSum (by decide), List.map_map]
  rfl

/-- The complement of the one's-complement sum of the words, or a trap. -/
theorem calculateChecksum_eq (data : List UInt8) : calculateChecksum data =
    if wordSum (words data) < 2 ^ 32 then
      some ⟨~~~onesSum ((words data).map UInt16.toBitVec)⟩
    else none := by
  unfold calculateChecksum
  split
  · rename_i hlt
    obtain ⟨sum, hsum, hnat⟩ := foldlM_add (words data) 0 (by simpa using hlt)
    have hzero : (0 : UInt32).toNat = 0 := rfl
    have hbound := sum.toNat_lt
    obtain ⟨once, honce, hnat₁⟩ := add_eq_some (x := sum >>> 16) (y := sum &&& 0xFFFF)
      (by rw [toNat_and_low, toNat_shift]; omega)
    rw [toNat_and_low, toNat_shift] at hnat₁
    obtain ⟨twice, htwice, hnat₂⟩ := add_eq_some (x := once) (y := once >>> 16)
      (by rw [toNat_shift]; omega)
    rw [toNat_shift] at hnat₂
    have hlow := toNat_and_low twice
    have hword : uint16 (twice &&& 0xFFFF) = some (twice &&& 0xFFFF).toUInt16 :=
      if_pos (by omega)
    simp only [hsum, honce, htwice, hword, bind, Option.bind]
    -- both sides are complements of the same number
    apply congrArg some
    apply UInt16.toBitVec_inj.mp
    rw [UInt16.toBitVec_not]
    apply congrArg (~~~·)
    apply BitVec.eq_of_toNat_eq
    rw [toNat_onesSum_words, ← fold_eq_onesResidue hlt]
    have hcast : (twice &&& 0xFFFF).toUInt16.toBitVec.toNat = (twice &&& 0xFFFF).toNat % 65536 :=
      UInt32.toNat_toUInt16 _
    rw [hcast, hlow, hnat₂, hnat₁, hnat, hzero, Nat.zero_add, Nat.mod_mod]
  · rename_i hle
    rw [foldlM_add_eq_none (words data) 0 (by simpa using hle)]
    rfl

/-! ## The law -/

/-- There are half as many words as bytes. -/
theorem length_words (data : List UInt8) : (words data).length = data.length / 2 := by
  induction data using words.induct with
  | case1 low high data ih =>
    rw [words, List.length_cons, ih, List.length_cons, List.length_cons]
    omega
  | case2 b => simp [words]
  | case3 => rfl

/-- No word adds more than 65535. -/
theorem wordSum_le (ws : List UInt16) : wordSum ws ≤ 65535 * ws.length := by
  induction ws with
  | nil => exact Nat.le_refl 0
  | cons w ws ih =>
    have hw : w.toNat < 65536 := w.toNat_lt
    rw [wordSum_cons, List.length_cons]
    omega

/-- A word as a number. -/
theorem toNat_word (low high : UInt8) :
    (low.toUInt16 ||| high.toUInt16 <<< 8).toNat = low.toNat + 256 * high.toNat := by
  have hlow : low.toNat < 2 ^ 8 := low.toNat_lt
  have hhigh : high.toNat < 2 ^ 8 := high.toNat_lt
  have hshift : (high.toUInt16 <<< 8).toNat = high.toNat <<< 8 := by
    have hdistance : UInt16.toNat 8 % 16 = 8 := rfl
    rw [UInt16.toNat_shiftLeft, UInt8.toNat_toUInt16, hdistance, Nat.shiftLeft_eq]
    exact Nat.mod_eq_of_lt (by omega)
  -- The two bytes share no bit, so `or` adds them.
  rw [UInt16.toNat_or, hshift, UInt8.toNat_toUInt16, Nat.or_comm,
    ← Nat.shiftLeft_add_eq_or_of_lt hlow, Nat.shiftLeft_eq]
  omega

/-- The bytes of a word, the lower one first. -/
theorem wordBytes_eq (x : UInt16) :
    wordBytes x = [UInt8.ofNat (x.toNat % 256), UInt8.ofNat (x.toNat / 256)] := by
  have hx : x.toNat < 65536 := x.toNat_lt
  -- The low byte comes first, as in the memory of the machine.
  have hlow : x.toUInt8 = UInt8.ofNat (x.toNat % 256) := by
    apply UInt8.toNat_inj.mp
    rw [UInt16.toNat_toUInt8, UInt8.toNat_ofNat']
    omega
  have hhigh : (x >>> 8).toUInt8 = UInt8.ofNat (x.toNat / 256) := by
    apply UInt8.toNat_inj.mp
    rw [UInt16.toNat_toUInt8, UInt16.toNat_shiftRight, UInt8.toNat_ofNat',
      Nat.shiftRight_eq_div_pow]
    rfl
  rw [wordBytes, hlow, hhigh]

/-- A word takes its two bytes in memory. -/
theorem wordBytes_word (low high : UInt8) :
    wordBytes (low.toUInt16 ||| high.toUInt16 <<< 8) = [low, high] := by
  have hlow : low.toNat < 256 := low.toNat_lt
  rw [wordBytes_eq, toNat_word, Nat.add_mul_mod_self_left, Nat.mod_eq_of_lt hlow,
    Nat.add_mul_div_left _ _ (by decide), Nat.div_eq_of_lt hlow, Nat.zero_add, UInt8.ofNat_toNat,
    UInt8.ofNat_toNat]

/-- A word is read back from its bytes. -/
theorem words_wordBytes (x : UInt16) (data : List UInt8) :
    words (wordBytes x ++ data) = x :: words data := by
  have hx : x.toNat < 65536 := x.toNat_lt
  have hword : (UInt8.ofNat (x.toNat % 256)).toUInt16 |||
      (UInt8.ofNat (x.toNat / 256)).toUInt16 <<< 8 = x := by
    apply UInt16.toNat_inj.mp
    rw [toNat_word, UInt8.toNat_ofNat', UInt8.toNat_ofNat']
    omega
  rw [wordBytes_eq, List.cons_append, List.cons_append, List.nil_append, words, hword]

/-- An even number of bytes is made up of words. -/
theorem flatMap_wordBytes_words {data : List UInt8} (h : data.length % 2 = 0) :
    (words data).flatMap wordBytes = data := by
  induction data using words.induct with
  | case1 low high data ih =>
    rw [List.length_cons, List.length_cons] at h
    rw [words, List.flatMap_cons, wordBytes_word, ih (by omega)]
    rfl
  | case2 b => exact absurd h (by simp)
  | case3 => rfl

/-- With 65537 words at most there is a checksum, and it completes their sum to all ones. -/
theorem exists_calculateChecksum {data : List UInt8} (h : data.length / 2 ≤ 65537) :
    ∃ checksum, calculateChecksum data = some checksum ∧
      onesSum ((words data ++ [checksum]).map UInt16.toBitVec) = 0xFFFF := by
  have hle := wordSum_le (words data)
  rw [length_words] at hle
  refine ⟨⟨~~~onesSum ((words data).map UInt16.toBitVec)⟩, ?_, ?_⟩
  · rw [calculateChecksum_eq, if_pos (by omega)]
  · rw [List.map_append]
    exact BitVec.onesSum_append_not _

/-- **Internet checksum.** For every even number of bytes, with 65537 words at most, the
    computation does not trap, and the one's-complement sum of all the words and the
    checksum is all ones. -/
theorem checksum_law (data : List UInt8) (heven : data.length % 2 = 0)
    (hlength : data.length / 2 ≤ 65537) :
    (words data).flatMap wordBytes = data ∧ ∃ checksum, calculateChecksum data = some checksum ∧
      onesSum ((words data ++ [checksum]).map UInt16.toBitVec) = 0xFFFF :=
  ⟨flatMap_wordBytes_words heven, exists_calculateChecksum hlength⟩

/-- The header of a ping. -/
theorem checksum_law_ping :
    (words [8, 0, 0, 0, 0x39, 0x30, 0, 0]).flatMap wordBytes = [8, 0, 0, 0, 0x39, 0x30, 0, 0] ∧
      ∃ checksum, calculateChecksum [8, 0, 0, 0, 0x39, 0x30, 0, 0] = some checksum ∧
        onesSum ((words [8, 0, 0, 0, 0x39, 0x30, 0, 0] ++ [checksum]).map UInt16.toBitVec) =
          0xFFFF :=
  checksum_law [8, 0, 0, 0, 0x39, 0x30, 0, 0] (by decide) (by decide)

/-! ## The packet -/

/-- The four words of the header. -/
theorem words_data (h : ICMPHeader) : words h.data =
    [h.type.toUInt16 ||| h.code.toUInt16 <<< 8, h.checksum, h.identifier, h.sequenceNumber] := by
  have hdata : h.data = h.type :: h.code ::
      (wordBytes h.checksum ++ (wordBytes h.identifier ++ (wordBytes h.sequenceNumber ++ []))) := by
    simp [ICMPHeader.data]
  rw [hdata, words, words_wordBytes, words_wordBytes, words_wordBytes, words]

/-- The packet that is sent passes the check of a receiver, for every identifier. -/
theorem createICMPPacket_law (identifier : UInt16) :
    ∃ packet, createICMPPacket identifier = some packet ∧ packet.length = 8 ∧
      onesSum ((words packet).map UInt16.toBitVec) = 0xFFFF := by
  let header : ICMPHeader :=
    { type := 8, code := 0, checksum := 0, identifier := identifier, sequenceNumber := 0 }
  have hlength : header.data.length = 8 := rfl
  obtain ⟨checksum, hchecksum, hlaw⟩ :=
    @exists_calculateChecksum header.data (by rw [hlength]; decide)
  refine ⟨{ header with checksum := checksum }.data, ?_, rfl, ?_⟩
  · rw [createICMPPacket, hchecksum]
    rfl
  · -- the checksum takes the place of a zero, which does not add to the sum
    rw [words_data] at hlaw ⊢
    have hperm (first : UInt16) : [0, first, checksum, identifier, 0].Perm
        ([first, 0, identifier, 0] ++ [checksum]) := by
      apply (List.Perm.swap _ _ _).trans
      apply List.Perm.cons
      apply List.Perm.cons
      exact @List.perm_append_comm _ [checksum] _
    rw [← BitVec.onesSum_perm (by decide) ((hperm _).map UInt16.toBitVec)] at hlaw
    rw [← hlaw]
    exact (BitVec.onesSum_zero_cons _).symm

end LanScan.Ios.ICMPPacket
