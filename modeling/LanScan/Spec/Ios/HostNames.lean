import LanScan.Native.Ios.HostName
import LanScan.Spec.Ios.MDNSLookup

/-!
# The host name of a host (iOS)

The observer of `Host.hostname` tests for the empty string, but does not keep it from
`prefix`, which traps on the negative length.  Every other name is stored without one
`.local` at its end.

## Key results

- `didSet_eq`: what the observer stores
- `resolveHostname_eq_iff`: when `resolveHostname` returns the first name that is found
-/

namespace LanScan.Ios.HostName

open Scanner (Stage)

variable (g : Graphemes)

/-! ## The observer -/

/-- The suffix is one `Character` for each of its characters. -/
theorem segments_localSuffix : g.segments localSuffix = localSuffix.map ([·]) := by
  apply g.segments_ascii
  simp [localSuffix]

/-- The text without one `.local` at its end. -/
def withoutLocal (text : String) : String :=
  if g.HasSuffix localSuffix text.toList then
    String.ofList (text.toList.take (text.toList.length - 6))
  else text

/-- The six `Character`s of `.local` are its six scalars. -/
theorem dropLastSegments_six {text : List Char} (h : g.HasSuffix localSuffix text) :
    g.dropLastSegments 6 text = text.take (text.length - 6) := by
  have happend := g.dropSuffix_append h
  rw [segments_localSuffix] at happend
  have hlength : (localSuffix.map ([·])).length = 6 := rfl
  rw [hlength] at happend
  -- The suffix is six characters long, and each is a segment of its own.
  have htext : text.length - 6 = (g.dropLastSegments 6 text).length := by
    have hsum := congrArg List.length happend
    rw [List.length_append, show localSuffix.length = 6 from rfl] at hsum
    omega
  calc g.dropLastSegments 6 text
      = (g.dropLastSegments 6 text ++ localSuffix).take (g.dropLastSegments 6 text).length := by
        rw [List.take_left]
    _ = text.take (text.length - 6) := by rw [happend, ← htext]

/-- What the observer stores: it traps for the empty string only. -/
theorem didSet_eq (text : String) :
    didSet g (some text) = if text = "" then none else some (some (withoutLocal g text)) := by
  have hempty : text.toList = [] ↔ text = "" := String.toList_eq_nil_iff
  unfold didSet withoutLocal
  simp only
  by_cases htext : text = ""
  · have hnil := g.segments_eq_nil_iff.mpr (hempty.mpr htext)
    rw [if_pos (.inl (hempty.mpr htext)), if_pos (by rw [hnil]; decide), if_pos htext]
  · rw [if_neg htext]
    by_cases hlocal : g.HasSuffix localSuffix text.toList
    -- With the suffix there are six segments to drop, so `prefix` does not trap.
    · have hsix : 6 ≤ (g.segments text.toList).length := by
        have hle := List.IsSuffix.length_le hlocal
        rw [segments_localSuffix] at hle
        exact hle
      rw [if_pos (.inr hlocal), if_neg (by omega), if_pos hlocal, dropLastSegments_six g hlocal]
    · rw [if_neg (not_or.mpr ⟨mt hempty.mp htext, hlocal⟩), if_neg hlocal]

/-! ## resolveHostname -/

/-- The first name that a stage finds. -/
def firstName (find : Stage → Option String) : Option String :=
  (find .mdns).or ((find .netBIOS).or (find .getHostName))

/-- Without a cancellation the first name goes through the observer. -/
theorem resolveHostname_of_not_cancelled (ip : String) (find : Stage → Option String) :
    resolveHostname g ip (fun _ => false) find =
      (didSet g (firstName find)).map fun hostname => { ip := ip, hostname := hostname } := by
  unfold resolveHostname firstName
  -- The first name found is taken, and the later stages are not asked.
  cases find .mdns with
  | some name =>
    cases h : didSet g (some name) <;> simp [h]
  | none =>
    cases find .netBIOS with
    | some name =>
      cases h : didSet g (some name) <;> simp [h]
    | none =>
      cases h : didSet g (find .getHostName) <;> simp [h]

/-- The name in an answer to the mDNS request is the first one. -/
theorem answeredHost_of_channelRead {ip name : String} {bytes : List UInt8}
    {find : Stage → Option String} (h : channelRead g ip bytes = some (some name)) :
    answeredHost g ip bytes find =
      (didSet g (some name)).map fun hostname => { ip := ip, hostname := hostname } := by
  unfold answeredHost
  rw [h, Option.bind_eq_bind, Option.bind_some]
  exact resolveHostname_of_not_cancelled g ip _

/-- **Host name.** Without a cancellation `resolveHostname` does not trap and returns the
    host with the first name that is found, less one `.local`, if and only if that name is
    not empty. -/
theorem resolveHostname_eq_iff (ip : String) (find : Stage → Option String) :
    resolveHostname g ip (fun _ => false) find =
        some { ip := ip, mac := none, hostname := (firstName find).map (withoutLocal g) } ↔
      firstName find ≠ some "" := by
  rw [resolveHostname_of_not_cancelled]
  cases firstName find with
  | none => simp [didSet]
  | some name =>
    rw [didSet_eq]
    by_cases hempty : name = ""
    -- The empty name is the one on which `didSet` traps.
    · simp [hempty]
    · simp [hempty]

/-- An empty name traps. -/
theorem resolveHostname_eq_none_iff (ip : String) (find : Stage → Option String) :
    resolveHostname g ip (fun _ => false) find = none ↔ firstName find = some "" := by
  rw [resolveHostname_of_not_cancelled, Option.map_eq_none_iff]
  cases firstName find with
  | none => simp [didSet]
  | some name => simp [didSet_eq]

/-! ## Scalars -/

/-- The observer traps for the same names as in a scan, however `Character`s are found. -/
theorem didSet_eq_none_iff (hostname : Option String) :
    didSet g hostname = none ↔ didSetHostname hostname = none := by
  unfold didSetHostname
  cases hostname with
  | none => simp [didSet]
  | some text => simp [didSet_eq]

/-- Only `gethostbyaddr` finds a name, and it is empty. -/
theorem empty_name_traps : ¬ ∀ (g : Graphemes) (ip : String) (find : Stage → Option String),
    resolveHostname g ip (fun _ => false) find =
      some { ip := ip, mac := none, hostname := (firstName find).map (withoutLocal g) } := by
  intro h
  let find : Stage → Option String
    | .getHostName => some ""
    | .mdns | .netBIOS => none
  have hfind := h scalars "192.168.1.7" find
  rw [(resolveHostname_eq_none_iff scalars "192.168.1.7" find).mpr rfl] at hfind
  exact nomatch hfind

end LanScan.Ios.HostName
