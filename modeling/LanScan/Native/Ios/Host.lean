import LanScan.ForStd.Segments

/-!
# Host (iOS)

The observer of `Host.hostname`, which cuts a suffix off.

A Swift `String` is a sequence of `Character`s, and `hasSuffix`, `count` and `prefix` are about
these.  A `Character` is an extended grapheme cluster: `"."` is one, and `"."` with a combining
mark behind it is another one.
-/

namespace LanScan.Ios

/-- The suffix that `didSet` cuts off. -/
def localSuffix : List Char := ".local".toList

namespace HostName

/-- How the `Character`s of a text are found.  The rules come with the version of Unicode;
    what is fixed is that ASCII characters stand by themselves, CR LF apart. -/
structure Graphemes extends Segmentation Char where
  segments_ascii : ∀ text : List Char, (∀ c ∈ text, c.val < 128 ∧ c ≠ '\r') →
    segments text = text.map ([·])

/-- Every scalar as a `Character`, which is right for ASCII without CR LF. -/
def scalars : Graphemes where
  toSegmentation := .singletons Char
  segments_ascii _ _ := rfl

/-- The value that `hostname` has after `didSet`.  `prefix` traps on a negative length, which is
    `none`: the test for the empty string leads there. -/
def didSet (g : Graphemes) (hostname : Option String) : Option (Option String) :=
  match hostname with
  | none => some none
  | some newHostname =>
    let text := newHostname.toList
    if text = [] ∨ g.HasSuffix localSuffix text then
      -- String(newHostname.prefix(newHostname.count-6))
      if (g.segments text).length < 6 then none
      else some (some (String.ofList (g.dropLastSegments 6 text)))
    else some (some newHostname)

end HostName

/-- `didSet` as the workers of a scan meet it: whether it traps does not depend on how the
    `Character`s are found, and every scalar is taken for one. -/
def didSetHostname (hostname : Option String) : Option (Option String) :=
  HostName.didSet HostName.scalars hostname

end LanScan.Ios
