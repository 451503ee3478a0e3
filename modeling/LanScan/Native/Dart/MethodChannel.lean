import LanScan.ForStd.Json
import LanScan.Native.Host

/-!
# MethodChannelLanScan (Dart)

What the Dart side makes of the events that a platform hands to its `eventSink`.  An
exception in the callback of `map` is an error on the stream, which goes on behind it.

A string of Dart is a list of UTF-16 code units, and `jsonDecode` makes any such list of the
escapes in a text.  What comes over the channel is text.
-/

namespace LanScan.Dart

/-- What the event channel delivers: a string, or null. -/
abbrev ChannelEvent := Option String

/-- What `jsonDecode` and a cast throw. -/
inductive Failure where
  | formatException
  | typeError
  deriving DecidableEq, Repr

/-- An element of a stream: a value, or an error. -/
abbrev StreamEvent (α : Type) := Except Failure α

/-- `Host` -/
structure Host where
  ip : List UInt16
  mac : Option (List UInt16)
  hostname : Option (List UInt16)
  deriving DecidableEq, Repr

/-- `json[key] as String` -/
def asString : Option Json → StreamEvent (List UInt16)
  | some (.string units) => .ok units
  | _ => .error .typeError

/-- `json[key] as String?` -/
def asStringOrNull : Option Json → StreamEvent (Option (List UInt16))
  | none | some .null => .ok none
  | some (.string units) => .ok (some units)
  | _ => .error .typeError

/-- `Host.fromJson` -/
def hostFromJson (json : List (List UInt16 × Json)) : StreamEvent Host :=
  match asString (Json.lookup "ip".toList.utf16 json),
    asStringOrNull (Json.lookup "mac".toList.utf16 json),
    asStringOrNull (Json.lookup "hostname".toList.utf16 json) with
  | .ok ip, .ok mac, .ok hostname => .ok { ip, mac, hostname }
  | _, _, _ => .error .typeError

/-- The callback of `startDeviceScanStream`. -/
def deviceOfEvent (event : ChannelEvent) : StreamEvent (Option Host) :=
  match event with
  | none => .ok none
  | some event =>
    match Json.parse event.toList with
    | none => .error .formatException
    -- as Map<String, dynamic>
    | some (.object json) => (hostFromJson json).map some
    | some _ => .error .typeError

/-- `startDeviceScanStream` -/
def startDeviceScanStream (events : List ChannelEvent) : List (StreamEvent (Option Host)) :=
  events.map deviceOfEvent

/-- `wifiConnectionStatusChange`: `distinct` leaves out an event that equals the one before. -/
def wifiConnectionStatusChange (events : List Bool) : List Bool :=
  go none events
where
  go (previous : Option Bool) : List Bool → List Bool
    | [] => []
    | event :: events =>
      if previous = some event then go previous events
      else event :: go (some event) events

end LanScan.Dart

namespace LanScan

/-- The argument of `eventSink.success`, when hosts are written with `toJson`. -/
def Event.encode (toJson : Host → String) : Event → Dart.ChannelEvent
  | .host h => some (toJson h)
  | .null => none

end LanScan
