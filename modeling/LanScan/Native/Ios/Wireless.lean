import LanScan.Native.Ios.MDNSResolver

/-!
# Wireless (iOS)

The part of the `Wireless` class that `LanDeviceHandler` uses: address, mask and prefix
length of the WiFi interface, as `getWiFiNetInfo` finds them among the interfaces.  What
`getifaddrs` and `getnameinfo` answer are the fields of the structures.
-/

namespace LanScan.Ios

/-- `WiFiNetInfo` -/
structure WiFiNetInfo where
  ip : String
  netmask : String
  cidrPrefixLength : Int64
  deriving DecidableEq, Repr

/-- An entry of `getifaddrs`: its flags, the family of its address if it has one, its
    name, and what `getAddress` and `getNetmask` return for it. -/
structure Interface where
  flags : UInt32
  family : Option UInt8
  name : String
  address : Option String
  netmask : Option String
  deriving DecidableEq, Repr

/-- What `getifaddrs` returns, if it does not fail. -/
structure Wireless where
  interfaces : Option (List Interface)

namespace Wireless

def iffUp : UInt32 := 0x1
def iffLoopback : UInt32 := 0x8
def iffRunning : UInt32 := 0x40
def afInet : UInt8 := 2

/-- `UInt8(text)`: nil for everything but a number from 0 to 255. -/
def byte (text : List Char) : Option UInt8 :=
  (MDNSResolver.int text).bind fun n => MDNSResolver.uint8 n.toInt

/-- `binaryRepresentation.filter { $0 == "1" }.count` -/
def numberOfOnes (byte : UInt8) : Nat := (Nat.toDigits 2 byte.toNat).countP (· == '1')

/-- `calculateCIDR(from:)`.  The sum stays below 33. -/
def calculateCIDR (netmask : String) : Option Int64 :=
  let netmaskComponents := MDNSResolver.split netmask.toList
  if netmaskComponents.length = 4 then
    netmaskComponents.foldlM (fun cidr component => do
      let byte ← byte component
      return cidr + Int64.ofNat (numberOfOnes byte)) 0
  else none

/-- The body of the loop in `getWiFiNetInfo`. -/
def Interface.wiFiNetInfo (current : Interface) : Option WiFiNetInfo := do
  guard (current.flags &&& (iffUp ||| iffRunning ||| iffLoopback) = iffUp ||| iffRunning)
  guard (current.family = some afInet)
  guard (current.name = "en0")
  let address ← current.address
  let netmask ← current.netmask
  let cidrPrefixLength ← calculateCIDR netmask
  return { ip := address, netmask := netmask, cidrPrefixLength := cidrPrefixLength }

/-- `getWiFiNetInfo()` -/
def getWiFiNetInfo (w : Wireless) : Option WiFiNetInfo := do
  let interfaces ← w.interfaces
  interfaces.findSome? Interface.wiFiNetInfo

/-- `getInternalWifiSubnetString()` -/
def getInternalWifiSubnetString (w : Wireless) : Option String :=
  w.getWiFiNetInfo.map WiFiNetInfo.netmask

/-- `getInternalWifiIpString()` -/
def getInternalWifiIpString (w : Wireless) : Option String := w.getWiFiNetInfo.map WiFiNetInfo.ip

/-- `getInternalWifiCidrPrefixLength()` -/
def getInternalWifiCidrPrefixLength (w : Wireless) : Option Int64 :=
  w.getWiFiNetInfo.map WiFiNetInfo.cidrPrefixLength

/-- The number that the parts of a string make: nil without four of them.  The shifts let
    bits fall out at the top, the sums trap on overflow. -/
def number (string : String) : Option (Option Int64) :=
  match (MDNSResolver.split string.toList).filterMap MDNSResolver.int with
  | [component₀, component₁, component₂, component₃] => do
    let sum ← checked ((smartShiftLeft component₀ 24).toInt + (smartShiftLeft component₁ 16).toInt)
    let sum ← checked (sum.toInt + (smartShiftLeft component₂ 8).toInt)
    let sum ← checked (sum.toInt + component₃.toInt)
    return some sum
  | _ => return none

/-- `getInternalWifiIpAddress()` -/
def getInternalWifiIpAddress (w : Wireless) : Option (Option Int64) :=
  match w.getInternalWifiIpString with
  | none => some none
  | some ipAddressString => number ipAddressString

/-- `getInternalWifiSubnet()` -/
def getInternalWifiSubnet (w : Wireless) : Option (Option Int64) :=
  match w.getInternalWifiSubnetString with
  | none => some none
  | some netmaskString => number netmaskString

end Wireless

end LanScan.Ios
