import LanScan.ForStd.Utf8
import LanScan.Native.Ios.Subnet

/-!
# mDNS lookups (iOS)

`MDNSResolver`: the request for the name of an address, the port that is bound to
receive the answer, and what `ChatMessageDecoder` reads from a datagram.  Text is the
list of its characters; a trap is `none`.
-/

namespace LanScan.Ios.MDNSResolver

/-! ## Text -/

/-- `text.count`, for ASCII: CR and LF are one `Character`. -/
def count : List Char → Nat
  | '\r' :: '\n' :: text => count text + 1
  | _ :: text => count text + 1
  | [] => 0

/-- `text.split(separator: ".")`: empty parts are left out. -/
def split (text : List Char) : List (List Char) := (text.splitOn '.').filter (· ≠ [])

/-- The value of a non-empty sequence of digits. -/
def digits (text : List Char) : Option Nat :=
  if text ≠ [] ∧ text.all Char.isDigit then some (Nat.ofDigitChars 10 text 0) else none

/-- `Int(text)`: a sign may stand before the digits, and a value that is no `Int` is
    nil, like everything else. -/
def int (text : List Char) : Option Int64 :=
  match text with
  | '-' :: rest => (digits rest).bind fun n => checked (-n)
  | '+' :: rest => (digits rest).bind fun n => checked n
  | text => (digits text).bind fun n => checked n

/-! ## The request -/

/-- `calculateRequestID`: nil unless the address has four numbers.  The arithmetic
    traps on overflow. -/
def calculateRequestID (ip : List Char) : Option (Option Int64) :=
  match (split ip).filterMap int with
  | [_, _, part₂, part₃] => do
    let product ← checked (part₂.toInt * 255)
    let requestID ← checked (product.toInt + part₃.toInt)
    return some requestID
  | _ => return none

/-- `reverseName`: the indices trap on fewer than four parts. -/
def reverseName (name : List Char) : Option (List Char) :=
  match split name with
  | addr₀ :: addr₁ :: addr₂ :: addr₃ :: _ =>
    some (addr₃ ++ '.' :: addr₂ ++ '.' :: addr₁ ++ '.' :: addr₀ ++ ".in-addr.arpa".toList)
  | _ => none

/-- `UInt8(x)`, which traps on a value that is none. -/
def uint8 (x : Int) : Option UInt8 :=
  if 0 ≤ x ∧ x < 256 then some (UInt8.ofNat x.toNat) else none

/-- One round of the loop over the labels in `dnsRequest`. -/
def writeLabel (label : List Char) : Option (List UInt8) :=
  (uint8 (count label)).map fun count => count :: label.utf8Bytes

/-- `dnsRequest` -/
def dnsRequest (id : Int64) (name : List Char) : Option (List UInt8) := do
  let high ← uint8 (id.toInt / 256)
  let low ← uint8 (id.toInt % 256)
  let labels ← (split name).mapM writeLabel
  return [high, low] ++ [0, 0, 0, 1, 0, 0, 0, 0, 0, 0] ++ labels.flatten ++ [0] ++ [0, 12] ++ [0, 1]

/-- `writeRequest`: what it sends, if anything. -/
def writeRequest (ip : String) : Option (Option (List UInt8)) := do
  match ← calculateRequestID ip.toList with
  | none => return none
  | some requestID => return some (← dnsRequest requestID (← reverseName ip.toList))

/-- `getBindPort` -/
def getBindPort (ip : String) : Option Int64 :=
  let basePort : Int64 := 7654
  match (split ip.toList).getLast?.bind int with
  | some port => checked (port.toInt + basePort.toInt)
  | none => some basePort

/-! ## The response -/

/-- `bytes[i..<i+count]`, which traps outside of the array. -/
def slice (bytes : List UInt8) (i count : Nat) : Option (List UInt8) :=
  if i + count ≤ bytes.length then some ((bytes.drop i).take count) else none

/-- The loop of `decodeName`, from the position `i` on.  Every round but the last
    moves on by two bytes at least, so `fuel` need not exceed the number of bytes. -/
def decodeLoop (bytes : List UInt8) (stop : Int) : Nat → Nat → List Char → Option (List Char)
  | 0, _, name => some name
  | fuel + 1, i, name =>
    if i < stop then
      match bytes[i]? with
      | none => none
      | some labelCount =>
        if labelCount = 0 then some name
        else
          match slice bytes (i + 1) labelCount.toNat with
          | none => none
          | some label =>
            -- String(bytes:encoding:), which is nil for bytes that are not UTF-8
            match label.utf8Text? with
            | some str =>
              decodeLoop bytes stop fuel (i + 1 + labelCount.toNat) (name ++ str ++ ['.'])
            | none => some name
    else some name

/-- `decodeName`, which never returns nil. -/
def decodeName (bytes : List UInt8) (offset : Nat) (length : Int) : Option (List Char) :=
  decodeLoop bytes (offset + length) (bytes.length + 1) offset []

/-- `ChatMessageDecoder.channelRead`: the value that the promise is fulfilled with, if
    it is.  `firstPart` is what is taken of the decoded name. -/
def channelReadWith (firstPart : List Char → Option String) (ip : String)
    (responseBytes : List UInt8) : Option (Option String) := do
  match ← calculateRequestID ip.toList with
  | none => return none
  | some requestID =>
    let name ← reverseName ip.toList
    let requestBytes ← dnsRequest requestID name
    -- the second byte is read only when the first one differs
    if (← responseBytes[0]?) ≠ (← requestBytes[0]?) then
      if (← responseBytes[1]?) ≠ (← requestBytes[1]?) then
        return none
    let offset := (if (← responseBytes[5]?) = 0 then 12 + count name else requestBytes.length) +
      2 + 2 + 2 + 4 + 2
    let hostName ← decodeName responseBytes offset (responseBytes.length - offset)
    return firstPart hostName

/-- `channelRead` with the part in front of the first dot. -/
def channelRead (ip : String) (responseBytes : List UInt8) : Option (Option String) :=
  channelReadWith (fun hostName => (split hostName).head?.map String.ofList) ip responseBytes

end LanScan.Ios.MDNSResolver
