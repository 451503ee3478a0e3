import LanScan.Native.Android.Subnet

/-!
# Wireless (Android)

The part of the `Wireless` class that `LanDeviceHandler.onListen` uses: the
address of the device in its WiFi network and the length of the network's
prefix.  The answers of the system services are the fields of the structure, and
a lookup that raises is `Except.error`.
-/

namespace LanScan.Android

/-- `ByteOrder.nativeOrder()` -/
inductive ByteOrder where
  | bigEndian
  | littleEndian
  deriving DecidableEq, Repr

/-- An entry of `NetworkInterface.getInterfaceAddresses()`. -/
structure InterfaceAddress where
  address : Option InetAddress
  networkPrefixLength : Int16
  deriving DecidableEq, Repr

/-- What the system services answer: `getWifiInfo().getIpAddress()`, the
    `netmask` of `dhcpInfo` if there is one, and the two lookups. -/
structure Wireless where
  ipAddress : Int32
  nativeOrder : ByteOrder
  dhcpInfo : Option Int32
  getByName : String → Except Unit (Option InetAddress)
  getByInetAddress : InetAddress → Except Unit (Option (List InterfaceAddress))

/-- `Integer.reverseBytes`: the four bytes in the other order. -/
def reverseBytes (x : Int32) : Int32 :=
  let byte (shift : Int32) : Int32 := x >>> shift &&& 0xFF
  byte 0 <<< 24 ||| byte 8 <<< 16 ||| byte 16 <<< 8 ||| byte 24

/-- `Integer.bitCount`: the number of one bits. -/
def bitCount (x : Int32) : Int32 :=
  Int32.ofNat ((List.range 32).countP fun i => x.toBitVec.getLsbD i)

namespace Wireless

/-- `getInternalWifiIpAddress()` -/
def getInternalWifiIpAddress (w : Wireless) : Int32 :=
  match w.nativeOrder with
  | .littleEndian => reverseBytes w.ipAddress
  | .bigEndian => w.ipAddress

/-- One of the four bytes of `getInternalWifiIpString`, read back without sign. -/
private def ipByte (ip shift : Int32) : Int32 :=
  (ip >>> shift &&& 0xFF).toInt8.toInt32 &&& 0xFF

/-- `getInternalWifiIpString()`: the address in dotted-decimal form. -/
def getInternalWifiIpString (w : Wireless) : String :=
  let internalWifiIp := w.getInternalWifiIpAddress
  toString (ipByte internalWifiIp 24) ++ "." ++ toString (ipByte internalWifiIp 16) ++ "." ++
    toString (ipByte internalWifiIp 8) ++ "." ++ toString (ipByte internalWifiIp 0)

/-- `getWifiInetAddress()` -/
def getWifiInetAddress (w : Wireless) : Except Unit (Option InetAddress) :=
  w.getByName w.getInternalWifiIpString

/-- The `try` block of `getInternalWifiCidrPrefixLength`: the value it returns,
    or `none` when its loop ends without finding the address. -/
def lookupPrefixLength (w : Wireless) : Except Unit (Option Int32) := do
  let some wifiInetAddress ← w.getWifiInetAddress | return some 0
  let some interfaceAddresses ← w.getByInetAddress wifiInetAddress | return some 0
  let found := interfaceAddresses.find? fun address => some wifiInetAddress == address.address
  return found.map fun address => address.networkPrefixLength.toInt32

/-- `getInternalWifiCidrPrefixLength()` -/
def getInternalWifiCidrPrefixLength (w : Wireless) : Int32 :=
  match w.dhcpInfo with
  | none => 0
  | some dhcpNetmask =>
    let netmask := bitCount dhcpNetmask
    if netmask < 4 ∨ netmask > 32 then
      match w.lookupPrefixLength with
      | .ok (some prefixLength) => prefixLength
      | .ok none => netmask
      | .error _ => netmask  -- catch (ignored: Exception)
    else netmask

end Wireless

end LanScan.Android
