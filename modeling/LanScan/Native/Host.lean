/-!
# Hosts and stream events

The record both scanners send to the Dart side, and the values handed to
`eventSink`: a host (as JSON) or the `null` that ends a scan.
-/

namespace LanScan

/-- `Host`: an address, and what was found out about it. -/
structure Host where
  ip : String
  mac : Option String := none
  hostname : Option String := none
  deriving DecidableEq, Repr

/-- An argument of `eventSink`: the JSON of a host, or the end-of-scan `null`. -/
inductive Event where
  | host (host : Host)
  | null
  deriving DecidableEq, Repr

/-- Only a `null` may follow a `null`. -/
def NoHostAfterNull (events : List Event) : Prop :=
  events.Pairwise fun earlier later => earlier = .null → later = .null

instance (events : List Event) : Decidable (NoHostAfterNull events) :=
  inferInstanceAs (Decidable (List.Pairwise _ _))

/-- The hosts among a list of events, in order. -/
def hostsOf (events : List Event) : List Host :=
  events.filterMap fun
    | .host host => some host
    | .null => none

/-- How often the end of the scan was signalled. -/
def nullCount (events : List Event) : Nat := events.count .null

end LanScan
