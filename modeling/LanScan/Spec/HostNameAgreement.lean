import LanScan.Spec.Android.HostNames
import LanScan.Spec.Ios.HostNames
import LanScan.Spec.LookupCorrect

/-!
# The same host name on both platforms

An mDNS host name is one label and `local`, and the label may be any text.  Android joins
the labels and takes the suffix off again, which gives the label back.  iOS joins them and
then takes what stands in front of the first dot, which may be a dot of the label.

## Key results

- `hostname_android`: Android stores the label
- `hostname_ios`: iOS stores the first part of the joined name
- `hostnames_agree_iff`: for which labels both store the label
-/

namespace LanScan

open List (utf8Bytes)

/-- A label of 1 to 63 bytes of UTF-8. -/
structure TextLabel where
  text : List Char
  ne_nil : text ≠ []
  length_le : (utf8Bytes text).length ≤ 63

namespace TextLabel

/-- The labels of a host name, as texts. -/
def localName (l : TextLabel) : List (List Char) := [l.text, "local".toList]

/-- The answer to a request that names the host of a label, in the shape of `r`. -/
def answer (l : TextLabel) (r : DnsResponse) (a : Ipv4) (request : List UInt8) : List UInt8 :=
  r.answer a request (l.localName.map utf8Bytes)

variable (l : TextLabel)

/-- The labels of the name are not empty and fit in a `Byte`. -/
theorem mem_localName {text : List Char} (h : text ∈ l.localName) :
    text ≠ [] ∧ (utf8Bytes text).length < 128 := by
  have hle := l.length_le
  rcases List.mem_cons.mp h with rfl | h
  · exact ⟨l.ne_nil, by omega⟩
  · obtain rfl := List.mem_singleton.mp h
    decide

/-- Neither are their bytes empty, nor too many. -/
theorem mem_map_localName {label : List UInt8} (h : label ∈ l.localName.map utf8Bytes) :
    label ≠ [] ∧ label.length < 128 := by
  obtain ⟨text, htext, rfl⟩ := List.mem_map.mp h
  obtain ⟨hne, hlt⟩ := l.mem_localName htext
  have hpos := List.length_pos_iff.mpr hne
  have hle := List.length_le_length_utf8Bytes text
  exact ⟨List.ne_nil_of_length_pos (by omega), hlt⟩

/-- The name fits into the buffer of Android. -/
theorem fits (r : DnsResponse) (a : Ipv4) :
    r.targetOffset a + (encodeLabels (l.localName.map utf8Bytes)).length < 512 := by
  have hname := a.length_reverseName_le
  have hle := l.length_le
  -- The owner name stands once, and the fixed fields take 30 bytes at most.
  have hoffset : r.targetOffset a ≤ a.reverseName.length + 30 := by
    unfold DnsResponse.targetOffset
    split <;> omega
  have hlocal : (utf8Bytes "local".toList).length = 5 := by decide
  simp only [length_encodeLabels, localName, List.map_cons, List.map_nil, List.sum_cons,
    List.sum_nil, hlocal]
  omega

end TextLabel

/-! ## Android -/

section Android

open Android.ProcessHost

/-- The host name that is stored when a datagram comes for the mDNS request. -/
def Android.ProcessHost.answeredHostname (platform : Platform)
    (malformed : List UInt8 → List Char) (datagram : List UInt8) (s : HostState) :
    Option String :=
  (finalState (resolveHostName (platform.receiving malformed fun _ _ => some datagram) .mdns)
    s).host.hostname

variable (malformed : List UInt8 → List Char)

/-- The resolver returns the label and `local`, with a dot. -/
theorem resolve_localName (r : DnsResponse) (a : Ipv4) (l : TextLabel) :
    Android.MDNSResolver.resolve malformed (fun _ => some (l.answer r a
        (Android.MDNSResolver.request (Android.MDNSResolver.inet a).address)))
        (Android.MDNSResolver.inet a) =
      .ok (some [some (String.ofList l.text ++ ".local")]) := by
  have hne : l.localName.map utf8Bytes ≠ [] := by simp [TextLabel.localName]
  have hresolve := Android.MDNSResolver.resolve_answer malformed r a hne
    (fun _ => l.mem_map_localName) (l.fits r a)
  -- the labels are UTF-8, so they are read as they were
  have htexts : (l.localName.map utf8Bytes).map (Android.MDNSResolver.labelText malformed) =
      l.localName := by
    rw [List.map_map]
    apply List.map_id''
    intro text
    rw [Function.comp_apply, Android.MDNSResolver.labelText, List.utf8Text?_utf8Bytes,
      Option.getD_some]
  -- with the dots between them they are the name
  have hname : String.ofList (['.'].intercalate l.localName) =
      String.ofList l.text ++ ".local" := by
    apply String.toList_inj.mp
    simp [TextLabel.localName]
  rw [htexts, hname] at hresolve
  exact hresolve

/-- A name with the suffix is not blank. -/
theorem not_isNullOrBlank_append_local (text : String) :
    isNullOrBlank (some (text ++ ".local")) = false := by
  have hmem : 'l' ∈ (text ++ ".local").toList := by simp
  exact List.all_eq_false.mpr ⟨'l', hmem, by decide⟩

/-- Android stores the label. -/
theorem hostname_android {platform : Platform} {s : HostState} {a : Ipv4}
    (hadd : platform.getByName s.host.ip.toList = some (Android.MDNSResolver.inet a))
    (r : DnsResponse) (l : TextLabel) :
    answeredHostname platform malformed
        (l.answer r a (Android.MDNSResolver.request (Android.MDNSResolver.inet a).address)) s =
      some (String.ofList l.text) := by
  let network := platform.receiving malformed fun _ _ => some
    (l.answer r a (Android.MDNSResolver.request (Android.MDNSResolver.inet a).address))
  -- the response gives the name with its suffix
  have hresolve : network.resolve .mdns (Android.MDNSResolver.inet a) =
      .ok (some [some (String.ofList l.text ++ ".local")]) := resolve_localName malformed r a l
  have hanswer : IsAnswer (.ok (some [some (String.ofList l.text ++ ".local")])) :=
    ⟨not_false, by simp⟩
  have hname : nonBlankName (.ok (some [some (String.ofList l.text ++ ".local")])) =
      some (String.ofList l.text ++ ".local") := by
    rw [nonBlankName, not_isNullOrBlank_append_local]
    rfl
  have hadd' : network.getByName s.host.ip.toList = some (Android.MDNSResolver.inet a) := hadd
  -- the setter takes it off
  show (finalState (resolveHostName network .mdns) s).host.hostname = _
  rw [finalState, resolveHostName_eq hadd', hresolve, settle_of_isAnswer hanswer, hname]
  exact congrArg some (withoutLocal_append _)

end Android

/-! ## iOS -/

section Ios

open Ios.HostName
open Ios.Scanner (Stage)

variable (g : Graphemes)

/-- The name as iOS decodes it. -/
def TextLabel.dottedName (l : TextLabel) : List Char := l.text ++ ".local.".toList

/-- The first `Character` of the name that is a dot stands right behind the label. -/
def DotBehind (g : Graphemes) (l : TextLabel) : Prop :=
  ∃ front back, g.segments l.dottedName = front ++ dot :: back ∧ front.flatten = l.text ∧
    dot ∉ front

/-- A text whose `Character`s are no dots is stored as it is. -/
theorem didSet_of_dot_notMem {text : List Char} (hne : text ≠ []) (h : dot ∉ g.segments text) :
    didSet g (some (String.ofList text)) = some (some (String.ofList text)) := by
  have hempty : String.ofList text ≠ "" := by
    intro heq
    exact hne (String.ofList_eq_empty_iff.mp heq)
  -- The suffix contains a dot, and the text has none.
  have hlocal : ¬ g.HasSuffix Ios.localSuffix (String.ofList text).toList := by
    intro hsuffix
    rw [String.toList_ofList] at hsuffix
    apply h
    apply List.IsSuffix.subset hsuffix
    rw [segments_localSuffix]
    exact List.mem_cons_self
  rw [didSet_eq, if_neg hempty, withoutLocal, if_neg hlocal]

/-- The name that is read is the first part of the joined name. -/
theorem channelRead_answer (r : DnsResponse) (a : Ipv4) (l : TextLabel) :
    channelRead g a.text (l.answer r a (a.query (Ios.MDNSResolver.idHigh a)
        (Ios.MDNSResolver.idLow a))) =
      some ((g.split dot l.dottedName).head?.map String.ofList) := by
  -- Both labels are short enough for a length byte.
  have htexts : ∀ text ∈ l.localName, text ≠ [] ∧ (utf8Bytes text).length < 256 := by
    intro text htext
    obtain ⟨hne, hlt⟩ := l.mem_localName htext
    exact ⟨hne, by omega⟩
  have hname : (l.localName.flatMap fun text => text ++ ['.']) = l.dottedName := by
    simp [TextLabel.localName, TextLabel.dottedName]
  show Ios.MDNSResolver.channelReadWith (fun hostName => (g.split dot hostName).head?.map
    String.ofList) a.text _ = _
  rw [TextLabel.answer, Ios.MDNSResolver.channelReadWith_answer rfl r (.inl rfl) htexts, hname]

/-- The joined name has a `Character` other than a dot. -/
theorem exists_ne_dot (l : TextLabel) : ∃ s ∈ g.segments l.dottedName, s ≠ dot := by
  have hmem : 'l' ∈ (g.segments l.dottedName).flatten := by
    rw [g.flatten_segments]
    exact List.mem_append_right _ (by decide)
  obtain ⟨s, hs, hl⟩ := List.mem_flatten.mp hmem
  refine ⟨s, hs, ?_⟩
  rintro rfl
  exact absurd hl (by decide)

/-- iOS stores the first part of the joined name. -/
theorem hostname_ios (r : DnsResponse) (a : Ipv4) (l : TextLabel) (find : Stage → Option String) :
    ∃ k front rest, g.segments l.dottedName = List.replicate k dot ++ (front ++ rest) ∧
      (rest = [] ∨ ∃ back, rest = dot :: back) ∧ dot ∉ front ∧
      (g.split dot l.dottedName).head? = some front.flatten ∧
      answeredHost g a.text (l.answer r a (a.query (Ios.MDNSResolver.idHigh a)
          (Ios.MDNSResolver.idLow a))) find =
        some { ip := a.text, hostname := some (String.ofList front.flatten) } := by
  obtain ⟨k, front, rest, hsegs, hend, hhead, hfront, hne, hdot⟩ :=
    g.exists_firstPart (exists_ne_dot g l)
  refine ⟨k, front, rest, hsegs, hend, hdot, hhead, ?_⟩
  -- the first part has no dot, so `didSet` leaves it as it is
  have hdidSet : didSet g (some (String.ofList front.flatten)) =
      some (some (String.ofList front.flatten)) := by
    apply didSet_of_dot_notMem
    · intro hflatten
      rw [hflatten, g.segments_eq_nil_iff.mpr rfl] at hfront
      exact hne hfront.symm
    · rwa [hfront]
  -- and it is the part that `channelRead` takes
  have hread := channelRead_answer g r a l
  rw [hhead, Option.map_some] at hread
  rw [answeredHost_of_channelRead g hread, hdidSet, Option.map_some]

/-- Dots in front of a label can only come from the label. -/
theorem eq_zero_of_dots {k : Nat} {text rest : List Char}
    (h : List.replicate k '.' ++ (text ++ rest) = text ++ ".local.".toList)
    (hend : rest = [] ∨ ∃ back, rest = '.' :: back) : k = 0 := by
  have hlength := congrArg List.length h
  simp only [List.length_append, List.length_replicate,
    show ".local.".toList.length = 7 by decide] at hlength
  have hrest : rest = ".local.".toList.drop k := by
    have hdrop := congrArg (List.drop (k + text.length)) h
    rw [← List.append_assoc, List.drop_left' (by simp), Nat.add_comm, ← List.drop_drop,
      List.drop_left] at hdrop
    exact hdrop
  -- both letters `l` of the suffix are in the rest
  have hcount : rest.count 'l' = 2 := by
    have heq := congrArg (List.count 'l') h
    simp only [List.count_append, List.count_replicate,
      show ".local.".toList.count 'l' = 2 by decide] at heq
    simp only [show ('.' == 'l') = false by decide, Bool.false_eq_true, if_false] at heq
    omega
  have htail : ∀ k < 8, (".local.".toList.drop k).count 'l' = 2 →
      (".local.".toList.drop k).head? = some '.' → k = 0 := by decide
  subst hrest
  apply htail k (by omega) hcount
  rcases hend with hnil | ⟨back, hback⟩
  · rw [hnil] at hcount
    exact absurd hcount (by decide)
  · rw [hback]
    rfl

/-- iOS stores the label if and only if its name is cut behind it. -/
theorem hostname_ios_eq_iff (r : DnsResponse) (a : Ipv4) (l : TextLabel)
    (find : Stage → Option String) :
    (answeredHost g a.text (l.answer r a (a.query (Ios.MDNSResolver.idHigh a)
        (Ios.MDNSResolver.idLow a))) find).map Host.hostname =
      some (some (String.ofList l.text)) ↔ DotBehind g l := by
  obtain ⟨k, front, rest, hsegs, hend, hdot, hhead, hhost⟩ := hostname_ios g r a l find
  rw [hhost, Option.map_some, Option.some_inj, Option.some_inj, String.ofList_inj]
  constructor
  · intro hfront
    have hflatten := g.flatten_segments l.dottedName
    have hdots : (List.replicate k dot).flatten = List.replicate k '.' := by
      simp [dot]
    rw [hsegs, List.flatten_append, List.flatten_append, hfront, hdots,
      TextLabel.dottedName] at hflatten
    have hend' : rest.flatten = [] ∨ ∃ back, rest.flatten = '.' :: back := by
      rcases hend with rfl | ⟨back, rfl⟩
      · exact .inl rfl
      · exact .inr ⟨back.flatten, rfl⟩
    obtain rfl := eq_zero_of_dots hflatten hend'
    rcases hend with rfl | ⟨back, rfl⟩
    · -- the suffix would be empty
      have hlength := congrArg List.length hflatten
      simp at hlength
    · exact ⟨front, back, by simpa using hsegs, hfront, hdot⟩
  · rintro ⟨front', back, hsegs', hfront', hdot'⟩
    have hne : front' ≠ [] := by
      rintro rfl
      exact l.ne_nil hfront'.symm
    rw [g.head?_split hsegs' hne hdot', Option.some_inj] at hhead
    exact hhead.symm.trans hfront'

/-- For an ASCII label that is the case if and only if it has no dot. -/
theorem dotBehind_iff_of_ascii {l : TextLabel} (h : ∀ c ∈ l.text, c.val < 128 ∧ c ≠ '\r') :
    DotBehind g l ↔ '.' ∉ l.text := by
  -- in ASCII without CR each character is a `Character`
  have hsegs : g.segments l.dottedName = l.dottedName.map ([·]) := by
    have hascii : ∀ c ∈ ".local.".toList, c.val < 128 ∧ c ≠ '\r' := by simp
    apply g.segments_ascii
    intro c hc
    rcases List.mem_append.mp hc with hc | hc
    · exact h c hc
    · exact hascii c hc
  have hmem (text : List Char) : dot ∈ text.map ([·]) ↔ '.' ∈ text := by
    simp [dot]
  unfold DotBehind
  rw [hsegs]
  constructor
  -- the part in front of the first dot is the label
  · rintro ⟨front, back, hname, hfront, hdot⟩
    obtain ⟨front', back', -, rfl, -⟩ := List.map_eq_append_iff.mp hname
    rw [List.flatten_map_singleton] at hfront
    rwa [hmem, hfront] at hdot
  · intro hdot
    refine ⟨l.text.map ([·]), "local.".toList.map ([·]), ?_, List.flatten_map_singleton _, ?_⟩
    · rw [TextLabel.dottedName, List.map_append]
      rfl
    · rwa [hmem]

end Ios

/-! ## Both -/

section Both

open Android.ProcessHost
open Ios.HostName
open Ios.Scanner (Stage)

/-- **Agreement.** Both platforms store the label of an answer if and only if the first
    `Character` of its name that is a dot is the one behind the label. -/
theorem hostnames_agree_iff {platform : Platform} {s : HostState} {a : Ipv4}
    (hadd : platform.getByName s.host.ip.toList = some (Android.MDNSResolver.inet a))
    (malformed : List UInt8 → List Char) (g : Graphemes) (find : Stage → Option String)
    (r : DnsResponse) (l : TextLabel) :
    (answeredHostname platform malformed
          (l.answer r a (Android.MDNSResolver.request (Android.MDNSResolver.inet a).address)) s =
        some (String.ofList l.text) ∧
      (answeredHost g a.text (l.answer r a (a.query (Ios.MDNSResolver.idHigh a)
          (Ios.MDNSResolver.idLow a))) find).map Host.hostname =
        some (some (String.ofList l.text))) ↔ DotBehind g l := by
  rw [hostname_ios_eq_iff]
  constructor
  · rintro ⟨-, hios⟩
    exact hios
  · intro hios
    exact ⟨hostname_android malformed hadd r l, hios⟩

/-- The label `tv`. -/
def tvLabel : TextLabel := ⟨"tv".toList, by decide, by decide⟩

/-- Both platforms store `tv`. -/
theorem hostnames_agree_tv :
    answeredHostname boxPlatform (fun _ => []) (tvLabel.answer tvResponse ⟨10, 0, 0, 5⟩
        (Android.MDNSResolver.request (Android.MDNSResolver.inet ⟨10, 0, 0, 5⟩).address))
        { host := { ip := "10.0.0.5" } } = some "tv" ∧
      (answeredHost scalars (Ipv4.text ⟨10, 0, 0, 5⟩) (tvLabel.answer tvResponse ⟨10, 0, 0, 5⟩
          (Ipv4.query ⟨10, 0, 0, 5⟩ (Ios.MDNSResolver.idHigh ⟨10, 0, 0, 5⟩)
            (Ios.MDNSResolver.idLow ⟨10, 0, 0, 5⟩))) (fun _ => none)).map Host.hostname =
        some (some "tv") := by
  have hdot : DotBehind scalars tvLabel :=
    (dotBehind_iff_of_ascii scalars (by simp [tvLabel])).mpr (by decide)
  exact (hostnames_agree_iff rfl (fun _ => []) scalars (fun _ => none) tvResponse tvLabel).mpr hdot

/-- The label `my.tv`, which is one label of the answer. -/
def myTvLabel : TextLabel := ⟨"my.tv".toList, by decide, by decide⟩

/-- Android stores `my.tv` and iOS stores `my`. -/
theorem hostnames_differ : ¬ ∀ (platform : Platform) (malformed : List UInt8 → List Char)
    (s : HostState) (g : Graphemes) (find : Stage → Option String) (r : DnsResponse)
    (a : Ipv4) (l : TextLabel),
    platform.getByName s.host.ip.toList = some (Android.MDNSResolver.inet a) →
    answeredHostname platform malformed
          (l.answer r a (Android.MDNSResolver.request (Android.MDNSResolver.inet a).address)) s =
        some (String.ofList l.text) ∧
      (answeredHost g a.text (l.answer r a (a.query (Ios.MDNSResolver.idHigh a)
          (Ios.MDNSResolver.idLow a))) find).map Host.hostname =
        some (some (String.ofList l.text)) := by
  intro h
  have hios := (h boxPlatform (fun _ => []) { host := { ip := "10.0.0.5" } } scalars
    (fun _ => none) tvResponse ⟨10, 0, 0, 5⟩ myTvLabel rfl).2
  have hdot := (dotBehind_iff_of_ascii scalars (by simp [myTvLabel])).mp
    ((hostname_ios_eq_iff scalars tvResponse ⟨10, 0, 0, 5⟩ myTvLabel _).mp hios)
  exact hdot (by decide)

end Both

end LanScan
