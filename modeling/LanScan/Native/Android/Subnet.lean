import LanScan.ForStd.Int
import LanScan.ForStd.List

/-!
# Address arithmetic of the Android scanner

The values that `LanDeviceScanner.startScanning` computes from `ipv4` and
`cidrPrefixLength`, and the conversion of a numeric address into the bytes
given to `InetAddress.getByAddress`.  A Kotlin `Int` is an `Int32`; its shifts
use the distance modulo 32, as on the JVM.  The doubles that occur are the
integers `32.0 - cidrPrefixLength` and powers of two, which are exact, so they
are `Int` here with the saturating `Double.toInt`.
-/

namespace LanScan.Android

/-! ## startScanning's constants -/

/-- `Double.toInt()` of an integral double: saturates at the ends of `Int`. -/
def doubleToInt (x : Int) : Int32 :=
  if x < -2147483648 then Int32.minValue
  else if 2147483647 < x then Int32.maxValue
  else Int32.ofInt x

/-- `2.0.pow(hostBits).toInt()`: a fraction is cut to zero, a large power saturates. -/
def pow2ToInt (hostBits : Int) : Int32 :=
  if hostBits < 0 then 0
  else if 31 ≤ hostBits then Int32.maxValue
  else Int32.ofInt (2 ^ hostBits.toNat)

/-- `val hostBits = 32.0 - cidrPrefixLength` -/
def hostBits (cidrPrefixLength : Int32) : Int := 32 - cidrPrefixLength.toInt

/-- `val netmask = -0x1 shr 32 - cidrPrefixLength shl 32 - cidrPrefixLength` -/
def netmask (cidrPrefixLength : Int32) : Int32 :=
  (-1) >>> (32 - cidrPrefixLength) <<< (32 - cidrPrefixLength)

/-- `val numberOfHosts = 2.0.pow(hostBits).toInt() - 2` -/
def numberOfHosts (cidrPrefixLength : Int32) : Int32 :=
  pow2ToInt (hostBits cidrPrefixLength) - 2

/-- `val firstAddress = (ipv4 and netmask) + 1` -/
def firstAddress (ipv4 cidrPrefixLength : Int32) : Int32 :=
  (ipv4 &&& netmask cidrPrefixLength) + 1

/-- `val scanThreads = hostBits.toInt() * 4` -/
def scanThreads (cidrPrefixLength : Int32) : Int32 :=
  doubleToInt (hostBits cidrPrefixLength) * 4

/-- `threadIndex until numberOfHosts step scanThreads`, the loop of one worker. -/
def workerIndices (cidrPrefixLength : Int32) (threadIndex : Nat) : List Int :=
  List.stride threadIndex (numberOfHosts cidrPrefixLength).toInt
    (scanThreads cidrPrefixLength).toInt

/-- `val numericIp = index + firstAddress` -/
def numericIp (ipv4 cidrPrefixLength : Int32) (index : Int) : Int32 :=
  Int32.ofInt index + firstAddress ipv4 cidrPrefixLength

/-! ## BigInteger.toByteArray -/

/-- Number of binary digits of a natural number, none for zero. -/
def binaryLength (n : Nat) : Nat := if n = 0 then 0 else n.log2 + 1

/-- `BigInteger.bitLength`: bits of the shortest two's-complement form, without
    its sign bit. -/
def bitLength (x : Int) : Nat :=
  if 0 ≤ x then binaryLength x.toNat else binaryLength (-x - 1).toNat

/-- `BigInteger.valueOf(x).toByteArray()`: the shortest big-endian
    two's-complement encoding, which has at least one byte. -/
def toByteArray (x : Int) : List UInt8 :=
  let length := bitLength x / 8 + 1
  (List.range length).map fun i =>
    UInt8.ofNat (x / 2 ^ (8 * (length - 1 - i)) % 256).toNat

/-- The four octets of a numeric address, most significant first. -/
def octets (x : Int32) : List UInt8 :=
  [24, 16, 8, 0].map fun shift => UInt8.ofNat (x.toInt / 2 ^ shift % 256).toNat

/-! ## InetAddress -/

/-- An IPv4 or IPv6 address. -/
inductive InetAddress where
  | inet4 (b₀ b₁ b₂ b₃ : UInt8)
  | inet6 (address : Vector UInt8 16)
  deriving DecidableEq, Repr

namespace InetAddress

/-- The bytes of an IPv4 address mapped into IPv6: ten zeros and two `0xFF`. -/
def mappedPrefix : List UInt8 := [0, 0, 0, 0, 0, 0, 0, 0, 0, 0, 0xFF, 0xFF]

/-- `InetAddress.getByAddress(bytes)`: four bytes are an IPv4 address, sixteen an
    IPv6 address (or the IPv4 address mapped into it), and any other length
    raises `UnknownHostException`, here `none`. -/
def getByAddress : List UInt8 → Option InetAddress
  | [b₀, b₁, b₂, b₃] => some (.inet4 b₀ b₁ b₂ b₃)
  | bytes =>
    if h : bytes.length = 16 then
      if bytes.take 12 = mappedPrefix then
        some (.inet4 (bytes.getD 12 0) (bytes.getD 13 0) (bytes.getD 14 0) (bytes.getD 15 0))
      else some (.inet6 ⟨bytes.toArray, by simpa using h⟩)
    else none

/-- `getAddress()`: the bytes of the address, in network order. -/
def address : InetAddress → List UInt8
  | inet4 b₀ b₁ b₂ b₃ => [b₀, b₁, b₂, b₃]
  | inet6 address => address.toList

/-- One 16-bit group of an IPv6 address in lower-case hex, without leading zeros. -/
private def hexGroup (hi lo : UInt8) : String :=
  String.ofList (Nat.toDigits 16 (hi.toNat * 256 + lo.toNat))

/-- `getHostAddress()`: the textual form of the address. -/
def hostAddress : InetAddress → String
  | inet4 b₀ b₁ b₂ b₃ =>
    toString b₀.toNat ++ "." ++ toString b₁.toNat ++ "." ++ toString b₂.toNat ++ "." ++
      toString b₃.toNat
  | inet6 address =>
    ":".intercalate ((List.range 8).map fun i =>
      hexGroup (address.toList.getD (2 * i) 0) (address.toList.getD (2 * i + 1) 0))

/-- `isLinkLocalAddress()`: 169.254.0.0/16 or fe80::/10. -/
def isLinkLocalAddress : InetAddress → Bool
  | inet4 b₀ b₁ _ _ => b₀ == 169 && b₁ == 254
  | inet6 address =>
    address.toList.getD 0 0 == 0xFE && address.toList.getD 1 0 &&& 0xC0 == 0x80

/-- `isLoopbackAddress()`: 127.0.0.0/8 or ::1. -/
def isLoopbackAddress : InetAddress → Bool
  | inet4 b₀ _ _ _ => b₀ == 127
  | inet6 address => address.toList.dropLast.all (· == 0) && address.toList.getD 15 0 == 1

end InetAddress

end LanScan.Android
