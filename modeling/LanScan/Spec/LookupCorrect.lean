import LanScan.Spec.Android.MDNSLookup
import LanScan.Spec.Ios.MDNSLookup

/-!
# Both platforms read the same answers

A well-formed response to the request that either platform sends is read for its target:
as a whole on Android, and for its first label on iOS.
-/

namespace LanScan

open Android.MDNSResolver (inet resolve)
open Ios.MDNSResolver (writeRequest channelRead)

/-- **Lookups.** For every address and every response in one of the two shapes, Android
    returns the labels of the target with dots between them, if the response has at most
    512 bytes, and iOS fulfils its promise with the first label. -/
theorem lookups_read_target (malformed : List UInt8 → List Char) (a : Ipv4) (r : DnsResponse) :
    ((r.bytes a (Android.MDNSResolver.request (inet a).address)).length ≤ 512 →
      resolve malformed (fun request => some (r.bytes a request)) (inet a) =
        .ok (some [some (String.ofList r.name)])) ∧
    ∃ request, writeRequest a.text = some (some request) ∧
      channelRead a.text (r.bytes a request) = some (some (String.ofList r.hostLabel.text)) := by
  constructor
  · intro h
    exact Android.MDNSResolver.resolve_bytes malformed r a h
  · exact ⟨_, Ios.MDNSResolver.writeRequest_text a, Ios.MDNSResolver.channelRead_bytes r a⟩

/-- The answer `tv.local` for 10.0.0.5, with the question echoed. -/
def tvResponse : DnsResponse where
  flags := #v[0x85, 0x80]
  counts := #v[0, 1, 0, 0, 0, 1]
  shape := .echoed #v[0xC0, 12]
  recordHead := #v[0, 12, 0, 1, 0, 0, 0, 120, 0, 10]
  target := [⟨[116, 118], by decide, by decide, by simp, by decide⟩,
    ⟨[108, 111, 99, 97, 108], by decide, by decide, by simp, by decide⟩]
  target_ne_nil := by decide
  trailing := [0, 0]

/-- Both platforms read the name of a television. -/
theorem lookups_read_target_tv :
    resolve (fun _ => []) (fun request => some (tvResponse.bytes ⟨10, 0, 0, 5⟩ request))
      (.inet4 10 0 0 5) = .ok (some [some "tv.local"]) ∧
    ∃ request, writeRequest (Ipv4.mk 10 0 0 5).text = some (some request) ∧
      channelRead (Ipv4.mk 10 0 0 5).text (tvResponse.bytes ⟨10, 0, 0, 5⟩ request) =
        some (some "tv") := by
  have h := lookups_read_target (fun _ => []) ⟨10, 0, 0, 5⟩ tvResponse
  exact ⟨h.1 (by decide), h.2⟩

end LanScan
