/-!
# The packet of a ping (iOS)

`ICMPPingTool.createICMPPacket` and `calculateChecksum`.  `Data` is the list of its
bytes, and the words that are bound to its memory are little-endian, as on every iOS
device.  Arithmetic that overflows traps, which is `none`.
-/

namespace LanScan.Ios.ICMPPacket

/-- `rawBufferPointer.bindMemory(to: UInt16.self)`: a last byte without a partner is
    not part of a word. -/
def words : List UInt8 → List UInt16
  | low :: high :: data => (low.toUInt16 ||| high.toUInt16 <<< 8) :: words data
  | [_] | [] => []

/-- The bytes of a word in memory. -/
def wordBytes (x : UInt16) : List UInt8 := [x.toUInt8, (x >>> 8).toUInt8]

/-- `x + y` of `UInt32`, which traps on overflow. -/
def add (x y : UInt32) : Option UInt32 :=
  if x.toNat + y.toNat < 4294967296 then some (x + y) else none

/-- `UInt16(x)`, which traps on a value that is none. -/
def uint16 (x : UInt32) : Option UInt16 := if x.toNat < 65536 then some x.toUInt16 else none

/-- `calculateChecksum` -/
def calculateChecksum (data : List UInt8) : Option UInt16 := do
  let sum ← (words data).foldlM (fun sum word => add sum word.toUInt32) 0
  let sum ← add (sum >>> 16) (sum &&& 0xFFFF)
  let sum ← add sum (sum >>> 16)
  return ~~~(← uint16 (sum &&& 0xFFFF))

/-- `ICMPHeader` -/
structure ICMPHeader where
  type : UInt8
  code : UInt8
  checksum : UInt16
  identifier : UInt16
  sequenceNumber : UInt16
  deriving DecidableEq, Repr

/-- `Data(bytes: &icmpHeader, count: MemoryLayout<ICMPHeader>.size)` -/
def ICMPHeader.data (h : ICMPHeader) : List UInt8 :=
  [h.type, h.code] ++ wordBytes h.checksum ++ wordBytes h.identifier ++ wordBytes h.sequenceNumber

/-- `createICMPPacket` -/
def createICMPPacket (identifier : UInt16) : Option (List UInt8) := do
  let icmpHeader : ICMPHeader :=
    { type := 8, code := 0, checksum := 0, identifier := identifier, sequenceNumber := 0 }
  let checksum ← calculateChecksum icmpHeader.data
  return { icmpHeader with checksum := checksum }.data

end LanScan.Ios.ICMPPacket
