import Mathlib.Data.List.Basic
import LanScan.Native.Ios.PingHelper
import LanScan.Spec.Ios.PingTermination

/-!
# Reachable hosts (iOS)

A host is reachable when a reply with its identifier arrives, or when the route socket knows a
hardware address for it.  `ip2mac` tells known addresses from unknown ones by their text; since
the text determines the bytes, these are the six bytes behind the header of the gateway, unless
they are all zero or zero after an 8.

## Key results

- `ip2mac_eq`: which bytes are formatted, and when the result is nil
- `start_iff_of_run`: when a ping that completes once takes the host for reachable
-/

namespace LanScan.Ios

namespace MacFinder

variable {answer : Option (List UInt8)}

/-! ## The text of an address -/

/-- Digits with the same character are equal. -/
theorem digitChar_inj : ∀ m < 16, ∀ n < 16, Nat.digitChar m = Nat.digitChar n → m = n := by decide

/-- Bytes with the same two digits are equal. -/
theorem format2x_injective {b b' : UInt8} (h : format2x b = format2x b') : b = b' := by
  have hb := b.toNat_lt
  have hb' := b'.toNat_lt
  simp only [format2x, List.cons.injEq, and_true] at h
  have hhigh := digitChar_inj _ (by omega) _ (by omega) h.1
  have hlow := digitChar_inj _ (by omega) _ (by omega) h.2
  apply UInt8.toNat_inj.mp
  omega

/-- No digit is a colon. -/
theorem colon_notMem_format2x (b : UInt8) : ':' ∉ format2x b := by
  have hdigit : ∀ n < 16, ':' ≠ Nat.digitChar n := by decide
  have hb := b.toNat_lt
  simp only [format2x, List.mem_cons, List.not_mem_nil, or_false, not_or]
  exact ⟨hdigit _ (by omega), hdigit _ (by omega)⟩

/-- The bytes in hex digits, with colons between them. -/
def macText (bytes : List UInt8) : List Char := [':'].intercalate (bytes.map format2x)

/-- The bytes can be read off their text. -/
theorem macText_inj {bytes bytes' : List UInt8} (hne : bytes ≠ []) (hne' : bytes' ≠ []) :
    macText bytes = macText bytes' ↔ bytes = bytes' := by
  -- No byte is printed with a colon, so the text splits back into its bytes.
  have hparts {bytes : List UInt8} (hne : bytes ≠ []) :
      (macText bytes).splitOn ':' = bytes.map format2x := by
    apply List.splitOn_intercalate
    · intro part hpart
      obtain ⟨b, -, rfl⟩ := List.mem_map.mp hpart
      exact colon_notMem_format2x b
    · simpa using hne
  constructor
  · intro h
    have hmap : bytes.map format2x = bytes'.map format2x := by
      rw [← hparts hne, ← hparts hne', h]
    exact List.map_injective_iff.mpr (fun _ _ => format2x_injective) hmap
  · rintro rfl
    rfl

/-! ## The bytes that are formatted -/

/-- The six bytes behind the first eight of the gateway. -/
def hardwareAddress (answer : Option (List UInt8)) : List UInt8 := ((buf2 answer).drop 116).take 6

/-- The buffer keeps its size. -/
theorem length_buf2 : (buf2 answer).length = bufLen := by
  have hle := List.length_take_le bufLen (answer.getD [])
  rw [buf2, List.length_append, List.length_replicate]
  omega

/-- A hardware address has six bytes. -/
theorem length_hardwareAddress : (hardwareAddress answer).length = 6 := by
  rw [hardwareAddress, List.length_take, List.length_drop, length_buf2]
  rfl

/-- Its bytes are those behind the gateway's header. -/
theorem hardwareAddress_eq_map :
    hardwareAddress answer = (List.range 6).map fun i => (buf2 answer).getD (116 + i) 0 := by
  apply List.ext_getElem
  · rw [length_hardwareAddress, List.length_map, List.length_range]
  · intro i hi hi'
    have hlength : (buf2 answer).length = 604 := length_buf2
    rw [length_hardwareAddress] at hi
    -- Bytes 116 to 121 lie inside the buffer of 604.
    have hlt : 116 + i < (buf2 answer).length := by omega
    simp only [hardwareAddress, List.getElem_take, List.getElem_drop, List.getElem_map,
      List.getElem_range, List.getD_eq_getElem?_getD, List.getElem?_eq_getElem hlt,
      Option.getD_some]

/-- The addresses that stand for none: of an interface without ARP, and of another subnet. -/
def unknownAddresses : List (List UInt8) := [[0, 0, 0, 0, 0, 0], [8, 0, 0, 0, 0, 0]]

/-- Something was read, or the `read` failed, and the address is none that stands for none. -/
def KnownAddress (answer : Option (List UInt8)) : Prop :=
  answer ≠ some [] ∧ hardwareAddress answer ∉ unknownAddresses

instance (answer : Option (List UInt8)) : Decidable (KnownAddress answer) :=
  inferInstanceAs (Decidable (_ ∧ _))

/-- Only an empty read has length 0. -/
theorem readLength_eq_zero : readLength answer = 0 ↔ answer = some [] := by
  cases answer with
  | none => simp [readLength]
  | some bytes =>
    have hpos : 0 < bufLen := by decide
    cases bytes with
    | nil => simp [readLength]
    | cons b bytes =>
      simp only [readLength, List.length_take, List.length_cons]
      constructor
      · omega
      · nofun

/-- What `ip2mac` returns. -/
theorem ip2mac_eq : ip2mac answer =
    if KnownAddress answer then some (String.ofList (macText (hardwareAddress answer)))
    else none := by
  have hne : hardwareAddress answer ≠ [] :=
    List.ne_nil_of_length_pos (by rw [length_hardwareAddress]; decide)
  have htext : [':'].intercalate ((List.range 6).map fun i =>
      format2x ((buf2 answer).getD (116 + i) 0)) = macText (hardwareAddress answer) := by
    rw [macText, hardwareAddress_eq_map, List.map_map]
    rfl
  have hzero : "00:00:00:00:00:00" = String.ofList (macText [0, 0, 0, 0, 0, 0]) := by decide
  have height : "08:00:00:00:00:00" = String.ofList (macText [8, 0, 0, 0, 0, 0]) := by decide
  -- different addresses have different texts, so the texts tell the unknown ones
  have hunknown : hardwareAddress answer ∈ unknownAddresses ↔
      macText (hardwareAddress answer) = macText [0, 0, 0, 0, 0, 0] ∨
        macText (hardwareAddress answer) = macText [8, 0, 0, 0, 0, 0] := by
    rw [macText_inj hne (by simp), macText_inj hne (by simp)]
    exact List.mem_pair
  have hindex : sizeofRtMsghdr + sizeofSockaddrInarp + 8 = 116 := rfl
  simp only [ip2mac, hindex, htext, hzero, height, String.ofList_inj, ← hunknown, KnownAddress,
    ne_eq, readLength_eq_zero]
  by_cases hread : answer = some [] <;>
    by_cases hmem : hardwareAddress answer ∈ unknownAddresses <;> simp [hread, hmem]

end MacFinder

/-! ## Pings and addresses -/

namespace ICMPPing

open MacFinder (KnownAddress)

/-- `start` is true if the ping succeeds or the hardware address is known. -/
theorem start_iff {isSuccess : Bool} {answer : Option (List UInt8)} :
    PingHelper.start isSuccess answer = true ↔ isSuccess = true ∨ KnownAddress answer := by
  rw [PingHelper.start, MacFinder.ip2mac_eq]
  cases isSuccess <;> by_cases hknown : KnownAddress answer <;> simp [hknown]

/-- **Reachability.** In every run in which the socket can be created and each reply cancels the
    timeout work item while that is pending, the ping ends with one call of the completion, and
    `PingHelper` takes the host for reachable exactly if a reply with its identifier has arrived
    or the route socket answers with a hardware address. -/
theorem start_iff_of_run (answer : Option (List UInt8)) (ls : List Label) (s : State)
    (h : (icmpPing.restrict TimelyReply).run init ls = some s) (hterm : icmpPing.Terminal s) :
    ∃ isSuccess, s.calls = [isSuccess] ∧
      (PingHelper.start isSuccess answer = true ↔ .reply ∈ ls ∨ KnownAddress answer) := by
  have hb : Budget s :=
    icmpPing.run_restrict_invariant TimelyReply Budget
      (fun _ _ _ hb htimely hs => budget_step hb htimely (transition_of_step hs)) budget_init h
  have hrun := icmpPing.run_of_run_restrict TimelyReply h
  have hcalls := (accounted_of_run hrun).1.completed hterm
  have hreplied := replied_iff_of_run hrun
  obtain ⟨-, -, hhandler, -⟩ := terminal_iff.mp hterm
  have hle := hb.le_one
  rw [State.completions] at hle
  cases hs : s.calls with
  | nil => exact absurd hs hcalls
  | cons isSuccess calls =>
    -- the completion has been called, and no more than once
    have hnil : calls = [] := by
      rw [hs, List.length_cons] at hle
      exact List.eq_nil_of_length_eq_zero (by omega)
    subst hnil
    refine ⟨isSuccess, rfl, ?_⟩
    rw [start_iff, ← (by simpa [State.Replied, init, hs, hhandler] using hreplied :
      isSuccess = true ↔ Label.reply ∈ ls)]

/-- A host that does not answer the ping, but has been asked for its hardware address. -/
def silentPing : List Label := sentPing ++ [.next, .next, .timer, .timer, .timer]

/-- The state after it. -/
def silentState : State := ((icmpPing.restrict TimelyReply).run init silentPing).get (by decide)

/-- The route message about it. -/
def silentRoute : List UInt8 :=
  List.replicate 108 0 ++ [20, 18, 4, 0, 6, 0, 6, 0] ++ [0xA0, 0x0B, 0xCC, 1, 2, 0xFF]

/-- No reply comes, and the hardware address decides. -/
theorem start_iff_of_run_silent : ∃ isSuccess, silentState.calls = [isSuccess] ∧
    (PingHelper.start isSuccess (some silentRoute) = true ↔
      .reply ∈ silentPing ∨ KnownAddress (some silentRoute)) :=
  start_iff_of_run (some silentRoute) silentPing silentState (Option.some_get _).symm
    (terminal_iff.mpr (by decide))

end ICMPPing

end LanScan.Ios
