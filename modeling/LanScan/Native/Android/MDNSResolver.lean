import LanScan.ForStd.Utf8
import LanScan.Native.Android.Subnet

/-!
# mDNS lookups (Android)

`MDNSResolver`: the request for the name of an address, and what is read from the
datagram that comes back.  Text is the list of its characters, and a `ByteArray`
the list of its bytes; a byte that is used as a number is signed.
-/

namespace LanScan.Android

/-- What the functions of a resolver, and their callers, can raise. -/
inductive Throwable where
  | ioException
  | arrayIndexOutOfBoundsException
  | negativeArraySizeException
  | stringIndexOutOfBoundsException
  | noSuchElementException
  /-- any other class, by its name -/
  | other (name : String)
  deriving DecidableEq, Repr

namespace MDNSResolver

/-! ## The request -/

/-- `name.indexOf('.', s)`, with `none` for -1. -/
def indexOfDot (name : List Char) (s : Nat) : Option Nat :=
  ((name.drop s).findIdx? (· == '.')).map (s + ·)

/-- The loop of `writeName`, with the last label behind it.  Every round moves `s` on, so
    `fuel` need not exceed the number of characters. -/
def writeLoop (name : List Char) : Nat → Nat → List UInt8
  | 0, _ => []
  | fuel + 1, s =>
    match indexOfDot name s with
    | some e => UInt8.ofNat (e - s) :: ((name.drop s).take (e - s)).utf8Bytes ++
        writeLoop name fuel (e + 1)
    | none => UInt8.ofNat (name.length - s) :: (name.drop s).utf8Bytes

/-- `writeName` -/
def writeName (name : List Char) : List UInt8 := writeLoop name (name.length + 1) 0 ++ [0]

/-- `DataOutputStream.writeShort`: the two low bytes, the higher one first. -/
def writeShort (v : Int32) : List UInt8 := [(v.toUInt32 >>> 8).toUInt8, v.toUInt32.toUInt8]

/-- `dnsRequest` -/
def dnsRequest (id : Int32) (name : List Char) : List UInt8 :=
  writeShort id ++ [0, 0, 0, 1, 0, 0, 0, 0, 0, 0] ++ writeName name ++ [0, 0xC, 0, 1]

/-- `(b.toInt() and 0xFF).toString()` -/
def octetText (b : UInt8) : List Char := (toString b.toNat).toList

/-- `reverseName`; an address has at least four bytes. -/
def reverseName (addr : List UInt8) : List Char :=
  octetText (addr.getD 3 0) ++ '.' :: octetText (addr.getD 2 0) ++ '.' ::
    octetText (addr.getD 1 0) ++ '.' :: octetText (addr.getD 0 0) ++ ".in-addr.arpa".toList

/-- `addr!![2] * 0xFF + addr[3]` -/
def requestId (addr : List UInt8) : Int32 :=
  (addr.getD 2 0).toInt8.toInt32 * 0xFF + (addr.getD 3 0).toInt8.toInt32

/-- The request that `resolve` sends. -/
def request (addr : List UInt8) : List UInt8 := dnsRequest (requestId addr) (reverseName addr)

/-! ## The response -/

/-- `String(data, offset, length)`.  `malformed` is the text that takes the place of
    bytes that are not UTF-8. -/
def string (malformed : List UInt8 → List Char) (data : List UInt8) (offset : Nat) (length : Int) :
    Except Throwable (List Char) :=
  if length < 0 ∨ data.length < offset + length then throw .stringIndexOutOfBoundsException
  else
    let bytes := (data.drop offset).take length.toNat
    return bytes.utf8Text?.getD (malformed bytes)

/-- The loop of `decodeName`, from the position `i` on.  Every round but the last
    moves on by two bytes at least, so `fuel` need not exceed the size of the buffer. -/
def decodeLoop (malformed : List UInt8 → List Char) (data : List UInt8) (stop : Int) :
    Nat → Nat → List Char → Except Throwable (List Char)
  | 0, _, s => return s
  | fuel + 1, i, s =>
    if i < stop then
      match data[i]? with
      | none => throw .arrayIndexOutOfBoundsException
      | some len =>
        if len = 0 then return s
        else do
          -- a length byte of 0x80 or more is negative
          let label ← string malformed data (i + 1) len.toInt8.toInt
          decodeLoop malformed data stop fuel (i + 1 + len.toNat) (s ++ label ++ ['.'])
    else return s

/-- `decodeName` -/
def decodeName (malformed : List UInt8 → List Char) (data : List UInt8) (offset : Nat)
    (length : Int) : Except Throwable (List Char) :=
  -- StringBuilder(length)
  if length < 0 then throw .negativeArraySizeException
  else do
    let s ← decodeLoop malformed data (offset + length) (data.length + 1) offset []
    -- s.setLength(s.length - 1)
    if s.length = 0 then throw .stringIndexOutOfBoundsException else return s.dropLast

/-- A `DatagramPacket`. -/
structure DatagramPacket where
  data : List UInt8
  length : Nat
  deriving DecidableEq, Repr

/-- A packet with a buffer of 512 bytes after `socket.receive`: what does not fit is
    discarded. -/
def DatagramPacket.received (datagram : List UInt8) : DatagramPacket where
  data := datagram.take 512 ++ List.replicate (512 - datagram.length) 0
  length := min datagram.length 512

/-- The position where `resolve` expects the name in a response. -/
def answerOffset (addr response : List UInt8) : Nat :=
  let numQueries := response.getD 5 0
  (if numQueries = 0 then 12 + (reverseName addr).length else (request addr).length) +
    2 + 2 + 2 + 4 + 2

/-- `resolve`, with the datagram that comes for a request, or `none` if sending or
    receiving raises an `IOException`. -/
def resolve (malformed : List UInt8 → List Char) (receive : List UInt8 → Option (List UInt8))
    (ip : InetAddress) : Except Throwable (Option (List (Option String))) :=
  let addr := ip.address
  let request := request addr
  match receive request with
  | none => throw .ioException
  | some datagram => do
    let respPacket := DatagramPacket.received datagram
    let response := respPacket.data
    if response.getD 0 0 ≠ request.getD 0 0 ∧ response.getD 1 0 ≠ request.getD 1 0 then
      return none
    let offset := answerOffset addr response
    let name ← decodeName malformed response offset (respPacket.length - offset)
    return some [some (String.ofList name)]

end MDNSResolver

end LanScan.Android
