import LanScan.ForStd.JsonWriter
import LanScan.Native.Dart.MethodChannel

/-!
# Hosts on their way to Dart

A platform writes a host as a JSON text, the event channel carries the text, and Dart reads
it again.  Gson and JSONEncoder differ in what they escape, and JSONEncoder promises no order
of the members, so the writer is any function whose texts denote the host's members.

## Key results

- `deviceOfEvent_iff`: the texts that Dart takes for a host
- `startDeviceScanStream_encode`: every event arrives as it was sent
-/

namespace LanScan.Dart

variable {toJson : LanScan.Host → String}

/-! ## Texts that are hosts -/

/-- The cast succeeds on strings. -/
theorem asString_eq_ok {json : Option Json} {units : List UInt16} :
    asString json = .ok units ↔ json = some (.string units) := by
  constructor
  · intro h
    unfold asString at h
    split at h
    · cases h
      rfl
    · cases h
  · rintro rfl
    rfl

/-- A member that may be missing. -/
def IsStringOrNull (json : Option Json) (units : Option (List UInt16)) : Prop :=
  (json = none ∨ json = some .null) ∧ units = none ∨
    ∃ us, units = some us ∧ json = some (.string us)

/-- The cast to a nullable type also succeeds on null, and on a key that is not there. -/
theorem asStringOrNull_eq_ok {json : Option Json} {units : Option (List UInt16)} :
    asStringOrNull json = .ok units ↔ IsStringOrNull json units := by
  constructor
  · intro h
    unfold asStringOrNull at h
    split at h
    · cases h
      exact .inl ⟨.inl rfl, rfl⟩
    · cases h
      exact .inl ⟨.inr rfl, rfl⟩
    · cases h
      exact .inr ⟨_, rfl, rfl⟩
    · cases h
  · rintro (⟨rfl | rfl, rfl⟩ | ⟨us, rfl, rfl⟩) <;> rfl

/-- An object denotes a host: it has the ip, and mac and hostname where there are any. -/
structure Denotes (json : List (List UInt16 × Json)) (host : Host) : Prop where
  ip : Json.lookup "ip".toList.utf16 json = some (.string host.ip)
  mac : IsStringOrNull (Json.lookup "mac".toList.utf16 json) host.mac
  hostname : IsStringOrNull (Json.lookup "hostname".toList.utf16 json) host.hostname

/-- `_$$HostImplFromJson` reads the host that the object denotes. -/
theorem hostFromJson_eq_ok {json : List (List UInt16 × Json)} {host : Host} :
    hostFromJson json = .ok host ↔ Denotes json host := by
  constructor
  · intro h
    unfold hostFromJson at h
    split at h
    · next hip hmac hhostname =>
      cases h
      exact ⟨asString_eq_ok.mp hip, asStringOrNull_eq_ok.mp hmac,
        asStringOrNull_eq_ok.mp hhostname⟩
    · cases h
  · intro h
    simp only [hostFromJson, asString_eq_ok.mpr h.ip, asStringOrNull_eq_ok.mpr h.mac,
      asStringOrNull_eq_ok.mpr h.hostname]

/-- A text that denotes a host is read as it. -/
theorem deviceOfEvent_of_text {event : String} {json : List (List UInt16 × Json)} {host : Host}
    (htext : Json.Text event.toList (.object json)) (hhost : Denotes json host) :
    deviceOfEvent (some event) = .ok (some host) := by
  simp only [deviceOfEvent, (Json.parse_iff _ _).mpr htext, hostFromJson_eq_ok.mpr hhost]
  rfl

/-- What is read as a host denotes it. -/
theorem text_of_deviceOfEvent {event : String} {host : Host}
    (h : deviceOfEvent (some event) = .ok (some host)) :
    ∃ json, Json.Text event.toList (.object json) ∧ Denotes json host := by
  simp only [deviceOfEvent] at h
  split at h
  · cases h
  · next json hparse =>
    -- The text parses to an object, and the parser accepts grammar texts only.
    refine ⟨json, (Json.parse_iff _ _).mp hparse, hostFromJson_eq_ok.mp ?_⟩
    cases hhost : hostFromJson json with
    | error e => rw [hhost] at h; cases h
    | ok host' => rw [hhost] at h; cases h; rfl
  · cases h

/-- **What Dart accepts.** A text arrives as a host if and only if it is a JSON text of an
    object with the host's ip, and its mac and hostname, where each of the two may be missing or
    null; of a key that is written twice the last one counts.  The strings are compared unit by
    unit, so an escaped surrogate without a partner is a string like any other. -/
theorem deviceOfEvent_iff (event : String) (host : Host) :
    deviceOfEvent (some event) = .ok (some host) ↔
      ∃ json, Json.Text event.toList (.object json) ∧ Denotes json host :=
  ⟨text_of_deviceOfEvent, fun ⟨_, htext, hhost⟩ => deviceOfEvent_of_text htext hhost⟩

/-- A high surrogate without its partner, in a member that nobody reads. -/
example : deviceOfEvent (some "\x7b\"ip\":\"10.0.0.5\",\"x\":\"\\ud800\"\x7d") =
    .ok (some ⟨"10.0.0.5".toList.utf16, none, none⟩) := by
  decide

/-! ## Hosts of a platform -/

/-- A host of a platform as Dart has it. -/
def toDart (host : LanScan.Host) : Host where
  ip := host.ip.toList.utf16
  mac := host.mac.map fun s => s.toList.utf16
  hostname := host.hostname.map fun s => s.toList.utf16

/-! ## Writers -/

/-- The member of a value that may be missing; Gson and JSONEncoder leave a null out. -/
def optionalMember (key : String) (value : Option String) : List (List Char × List Char) :=
  (value.map fun s => (key.toList, s.toList)).toList

/-- The members of a host. -/
def hostMembers (host : LanScan.Host) : List (List Char × List Char) :=
  ("ip".toList, host.ip.toList) :: (optionalMember "mac" host.mac ++
    optionalMember "hostname" host.hostname)

/-- `toJson` writes a host as a JSON object, with its members in any order. -/
structure WritesHosts (toJson : LanScan.Host → String) : Prop where
  text : ∀ host, ∃ json, json.Perm ((hostMembers host).map Json.stringMember) ∧
    Json.Text (toJson host).toList (.object json)

/-- A host has three keys at most. -/
theorem keys_hostMembers (host : LanScan.Host) :
    (((hostMembers host).map Json.stringMember).map Prod.fst).Sublist
      (["ip", "mac", "hostname"].map fun key => key.toList.utf16) := by
  obtain ⟨ip, mac, hostname⟩ := host
  cases mac <;> cases hostname <;> simp [hostMembers, optionalMember, Json.stringMember]

/-- A member that is written if it is there is read as a string or null. -/
theorem isStringOrNull_lookup {key : List UInt16} {value : Option String}
    {json : List (List UInt16 × Json)} (hnodup : (json.map Prod.fst).Nodup)
    (hsome : ∀ s, value = some s → (key, .string s.toList.utf16) ∈ json)
    (hnone : value = none → key ∉ json.map Prod.fst) :
    IsStringOrNull (Json.lookup key json) (value.map fun s => s.toList.utf16) := by
  cases value with
  | none => exact .inl ⟨.inl (Json.lookup_of_not_mem (hnone rfl)), rfl⟩
  | some s => exact .inr ⟨_, rfl, Json.lookup_of_mem hnodup (hsome s rfl)⟩

/-- The text of a host arrives as the host. -/
theorem deviceOfEvent_toJson (h : WritesHosts toJson) (host : LanScan.Host) :
    deviceOfEvent (some (toJson host)) = .ok (some (toDart host)) := by
  obtain ⟨json, hperm, htext⟩ := h.text host
  have hkeys := hperm.map Prod.fst
  -- no key comes twice, whatever the order of the members
  have hnodup : (json.map Prod.fst).Nodup :=
    hkeys.nodup_iff.mpr ((keys_hostMembers host).nodup (by decide))
  have hmem : ∀ key s, (key, s) ∈ hostMembers host → (key.utf16, Json.string s.utf16) ∈ json :=
    fun _ _ hm => hperm.mem_iff.mpr (List.mem_map_of_mem hm)
  refine deviceOfEvent_of_text htext ⟨?_, ?_, ?_⟩
  · exact Json.lookup_of_mem hnodup (hmem _ _ List.mem_cons_self)
  -- the host name, and then the MAC address, are left out when they are null
  · refine isStringOrNull_lookup hnodup (fun s hs => hmem _ _ ?_) (fun hs hin => ?_)
    · simp [hostMembers, optionalMember, hs]
    · rw [hkeys.mem_iff] at hin
      obtain ⟨ip, mac, hostname⟩ := host
      cases hs
      cases hostname <;> simp [hostMembers, optionalMember, Json.stringMember] at hin
  · refine isStringOrNull_lookup hnodup (fun s hs => hmem _ _ ?_) (fun hs hin => ?_)
    · simp [hostMembers, optionalMember, hs]
    · rw [hkeys.mem_iff] at hin
      obtain ⟨ip, mac, hostname⟩ := host
      cases hs
      cases mac <;> simp [hostMembers, optionalMember, Json.stringMember] at hin

/-- What an event is on the Dart side. -/
def deviceOf : Event → Option Host
  | .host h => some (toDart h)
  | .null => none

/-- The stream is the events that were sent, one by one and without an error. -/
theorem startDeviceScanStream_encode (h : WritesHosts toJson) (events : List Event) :
    startDeviceScanStream (events.map (Event.encode toJson)) =
      events.map fun event => .ok (deviceOf event) := by
  rw [startDeviceScanStream, List.map_map]
  refine List.map_congr_left fun event _ => ?_
  cases event with
  | host host => exact deviceOfEvent_toJson h host
  | null => rfl

/-- The stream of a scan that is over: its hosts, then null. -/
def completeStream (hosts : List LanScan.Host) : List (StreamEvent (Option Host)) :=
  hosts.map (fun host => .ok (some (toDart host))) ++ [.ok none]

/-- The events of a complete scan are read as its hosts, and the null ends them. -/
theorem startDeviceScanStream_delivered (h : WritesHosts toJson) {events : List Event}
    {hosts : List LanScan.Host} (hevents : events = hosts.map .host ++ [.null]) :
    startDeviceScanStream (events.map (Event.encode toJson)) = completeStream hosts := by
  rw [startDeviceScanStream_encode h, hevents, List.map_append, List.map_map]
  rfl

/-! ## Two writers -/

/-- A backslash and a letter, for the characters that have one. -/
def escapeLetter (c : Char) : Option Char :=
  match c with
  | '"' => some '"'
  | '\\' => some '\\'
  | '\x08' => some 'b'
  | '\x0c' => some 'f'
  | '\n' => some 'n'
  | '\r' => some 'r'
  | '\t' => some 't'
  | _ => none

/-- The characters that HTML or a script could take for something else. -/
def htmlChars : List Char := ['<', '>', '&', '=', '\'', '\u2028', '\u2029']

/-- Gson writes those with their code, and control characters. -/
def gsonEscape (c : Char) : List Char :=
  match escapeLetter c with
  | some e => ['\\', e]
  | none =>
    if c.toNat < 0x20 ∨ c ∈ htmlChars then
      '\\' :: 'u' :: Json.hexDigits c.toNat
    else [c]

/-- Gson writes the fields in the order of their declaration. -/
def gsonToJson (host : LanScan.Host) : String :=
  String.ofList (Json.writeObject gsonEscape (hostMembers host))

/-- JSONEncoder escapes the slash. -/
def encoderEscape (c : Char) : List Char :=
  match escapeLetter c with
  | some e => ['\\', e]
  | none =>
    if c = '/' then ['\\', '/']
    else if c.toNat < 0x20 then '\\' :: 'u' :: Json.hexDigits c.toNat
    else [c]

/-- JSONEncoder with the members the other way round. -/
def encoderToJson (host : LanScan.Host) : String :=
  String.ofList (Json.writeObject encoderEscape (hostMembers host).reverse)

/-- The short escapes are read back. -/
theorem unescape_escapeLetter {c e : Char} (h : escapeLetter c = some e) :
    Json.unescape e = some c := by
  unfold escapeLetter at h
  split at h <;> cases h <;> rfl

/-- Quotation marks and backslashes have a short escape. -/
theorem ne_of_escapeLetter {c : Char} (h : escapeLetter c = none) : c ≠ '"' ∧ c ≠ '\\' := by
  constructor <;> rintro rfl <;> cases h

/-- The characters that HTML gives a meaning to take one unit. -/
theorem toNat_lt_of_mem_htmlChars : ∀ c ∈ htmlChars, c.toNat < 0x10000 := by
  simp [htmlChars]

/-- Gson writes every character as a letter of the grammar. -/
theorem letter_gsonEscape (c : Char) : Json.Letter (gsonEscape c) c.utf16 := by
  unfold gsonEscape
  split
  · next e he => exact .escape (unescape_escapeLetter he)
  · next he =>
    obtain ⟨hquote, hescape⟩ := ne_of_escapeLetter he
    split
    -- Control characters and the HTML characters are written with four digits.
    · next hc =>
      refine Json.letter_hexDigits ?_
      rcases hc with hc | hc
      · omega
      · exact toNat_lt_of_mem_htmlChars c hc
    · next hc => exact .plain hquote hescape (by omega)

/-- `JSONEncoder` writes every character as a letter of the grammar. -/
theorem letter_encoderEscape (c : Char) : Json.Letter (encoderEscape c) c.utf16 := by
  unfold encoderEscape
  split
  · next e he => exact .escape (unescape_escapeLetter he)
  · next he =>
    obtain ⟨hquote, hescape⟩ := ne_of_escapeLetter he
    split
    · next hc =>
      -- The encoder of iOS also escapes the slash.
      subst hc
      exact .escape rfl
    · split
      · exact Json.letter_hexDigits (by omega)
      · next hc => exact .plain hquote hescape (by omega)

/-- An object is a text of its own. -/
theorem text_of_value {cs : List Char} {v : Json} (h : Json.Value cs v) : Json.Text cs v :=
  ⟨[], cs, [], by simp, nofun, h, nofun⟩

/-- Gson denotes the host. -/
theorem writesHosts_gson : WritesHosts gsonToJson := by
  refine ⟨fun host => ⟨_, List.Perm.refl _, ?_⟩⟩
  rw [gsonToJson, String.toList_ofList]
  exact text_of_value (Json.value_object_of_escape letter_gsonEscape (by simp [hostMembers]))

/-- `JSONEncoder` denotes the host. -/
theorem writesHosts_encoder : WritesHosts encoderToJson := by
  refine ⟨fun host => ⟨_, (List.reverse_perm _).map _, ?_⟩⟩
  rw [encoderToJson, String.toList_ofList]
  exact text_of_value (Json.value_object_of_escape letter_encoderEscape (by simp [hostMembers]))

end LanScan.Dart
