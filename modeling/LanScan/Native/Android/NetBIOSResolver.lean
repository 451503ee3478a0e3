import LanScan.Native.Android.MDNSResolver

/-!
# NetBIOS lookups (Android)

`NetBIOSResolver`: the node status request, and the names and the unit id that are
read from the datagram that comes back.  An index outside of an array raises an
`ArrayIndexOutOfBoundsException`.
-/

namespace LanScan.Android

namespace NetBIOSResolver

open MDNSResolver (DatagramPacket string)

/-! ## The request -/

/-- `requestData` -/
def requestData : List UInt8 := [
  0xA2, 0x48, 0x00, 0x00, 0x00, 0x01, 0x00, 0x00, 0x00, 0x00, 0x00, 0x00, 0x20, 0x43,
  0x4b, 0x41, 0x41, 0x41, 0x41, 0x41, 0x41, 0x41, 0x41, 0x41, 0x41, 0x41, 0x41, 0x41,
  0x41, 0x41, 0x41, 0x41, 0x41, 0x41, 0x41, 0x41, 0x41, 0x41, 0x41, 0x41, 0x41, 0x41,
  0x41, 0x41, 0x41, 0x00, 0x00, 0x21, 0x00, 0x01]

/-! ## The layout of a response -/

/-- `responseTypePos` -/
def responseTypePos : Nat := 47

/-- `responseTypeNbtstat` -/
def responseTypeNbtstat : UInt8 := 33

/-- `responseBaseLen` -/
def responseBaseLen : Nat := 57

/-- `responseNameLen` -/
def responseNameLen : Nat := 15

/-- `responseNameBlockLen` -/
def responseNameBlockLen : Nat := 18

/-- `groupNameFlag` -/
def groupNameFlag : Int32 := 128

/-- `nameTypeDomain` -/
def nameTypeDomain : Int32 := 0x00

/-- `nameTypeMessenger` -/
def nameTypeMessenger : Int32 := 0x03

/-! ## Reading an entry -/

/-- `response[i]` -/
def byteAt (response : List UInt8) (i : Nat) : Except Throwable UInt8 :=
  match response[i]? with
  | some b => return b
  | none => throw .arrayIndexOutOfBoundsException

/-- `b.toInt() and 0xFF` -/
def unsigned (b : UInt8) : Int32 := b.toInt8.toInt32 &&& 0xFF

/-- `text.trim { it <= ' ' }` -/
def trim (text : List Char) : List Char :=
  ((text.dropWhile (· ≤ ' ')).reverse.dropWhile (· ≤ ' ')).reverse

/-- `name` -/
def name (malformed : List UInt8 → List Char) (response : List UInt8) (i : Nat) :
    Except Throwable String := do
  let text ← string malformed response (responseBaseLen + responseNameBlockLen * i) responseNameLen
  return String.ofList (trim text)

/-- `nameByte` -/
def nameByte (response : List UInt8) (i n : Nat) : Except Throwable Int32 := do
  let b ← byteAt response (responseBaseLen + responseNameBlockLen * i + n)
  return unsigned b

/-- `nameFlag`.  The infix `and` binds weaker than `+` and `*`, so that all that follows
    it is its right operand. -/
def nameFlag (response : List UInt8) (i : Nat) : Except Throwable Int32 := do
  let b₁ ← byteAt response (responseBaseLen + responseNameBlockLen * i + responseNameLen + 1)
  let b₂ ← byteAt response (responseBaseLen + responseNameBlockLen * i + responseNameLen + 2)
  return b₁.toInt8.toInt32 &&& (0xFF + unsigned b₂ * 0xFF)

/-- `nameType` -/
def nameType (response : List UInt8) (i : Nat) : Except Throwable Int32 := do
  let b ← byteAt response (responseBaseLen + responseNameBlockLen * i + responseNameLen)
  return unsigned b

/-! ## Reading the names -/

/-- `nameType(response, i) == nameTypeDomain && (nameFlag(response, i) and groupNameFlag) > 0` -/
def isGroupName (response : List UInt8) (i : Nat) : Except Throwable Bool := do
  if (← nameType response i) = nameTypeDomain then
    return 0 < (← nameFlag response i) &&& groupNameFlag
  else return false

/-- `nameType(response, i) == nameTypeMessenger` -/
def isUserName (response : List UInt8) (i : Nat) : Except Throwable Bool := do
  return (← nameType response i) = nameTypeMessenger

/-- A loop over entries that takes the name of the first one with a property. -/
def findName (malformed : List UInt8 → List Char) (response : List UInt8)
    (p : Nat → Except Throwable Bool) : List Nat → Except Throwable (Option String)
  | [] => return none
  | i :: rest => do
    if ← p i then return some (← name malformed response i)
    else findName malformed response p rest

/-- `if (nameCount > 0) name(response, 0) else null` -/
def computerName (malformed : List UInt8 → List Char) (response : List UInt8) (nameCount : Nat) :
    Except Throwable (Option String) :=
  if 0 < nameCount then some <$> name malformed response 0 else return none

/-- `"%02X"` -/
def format02X (n : Int32) : List Char :=
  ((Nat.toDigits 16 n.toInt.toNat).map Char.toUpper).leftpad 2 '0'

/-- `extractNames` -/
def extractNames (malformed : List UInt8 → List Char) (response : List UInt8) (nameCount : Nat) :
    Except Throwable (List (Option String)) := do
  let computerName ← computerName malformed response nameCount
  -- for (i in 1 until nameCount)
  let groupName ← findName malformed response (isGroupName response) (List.range' 1 (nameCount - 1))
  -- for (i in nameCount - 1 downTo 1)
  let userName ←
    findName malformed response (isUserName response) (List.range' 1 (nameCount - 1)).reverse
  let unitId ← (List.range 6).mapM (nameByte response nameCount)
  let macAddress := String.ofList (['-'].intercalate (unitId.map format02X))
  return [computerName, userName, groupName, some macAddress]

/-! ## resolve -/

/-- A packet with a buffer of 1024 bytes after `socket.receive`: what does not fit is
    discarded. -/
def received (datagram : List UInt8) : DatagramPacket where
  data := datagram.take 1024 ++ List.replicate (1024 - datagram.length) 0
  length := min datagram.length 1024

/-- `resolve`, from `socket.receive` on. -/
def readResponse (malformed : List UInt8 → List Char) (responsePacket : DatagramPacket) :
    Except Throwable (Option (List (Option String))) := do
  let response := responsePacket.data
  if responsePacket.length < responseBaseLen then return none
  if (← byteAt response responseTypePos) ≠ responseTypeNbtstat then return none
  let nameCount := (← byteAt response (responseBaseLen - 1)).toNat
  if responsePacket.length < responseBaseLen + responseNameBlockLen * nameCount then return none
  return some (← extractNames malformed response nameCount)

/-- `resolve`, with the datagram that comes for the request, or `none` if sending or
    receiving raises an `IOException`. -/
def resolve (malformed : List UInt8 → List Char)
    (receive : InetAddress → List UInt8 → Option (List UInt8)) (ip : InetAddress) :
    Except Throwable (Option (List (Option String))) :=
  match receive ip requestData with
  | none => throw .ioException
  | some datagram => readResponse malformed (received datagram)

end NetBIOSResolver

end LanScan.Android
