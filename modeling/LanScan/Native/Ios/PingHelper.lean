import LanScan.Native.Ios.ICMPPing

/-!
# Reachability (iOS)

`PingHelper` takes a host for reachable that answers a ping, and also one that does not but has
a hardware address in the route table.  `MacFinder.ip2mac` asks for it on a raw route socket and
takes it from a fixed place of whatever it reads.  Lengths are those of the structures in
`mac_finder_route.h` and `if_ether.h`, whose fields leave no padding behind.
-/

namespace LanScan.Ios

namespace MacFinder

/-- `sizeof(struct rt_msghdr)`: 36 bytes and the 56 of `struct rt_metrics`. -/
def sizeofRtMsghdr : Nat := 92

/-- `sizeof(struct sockaddr_inarp)` -/
def sizeofSockaddrInarp : Nat := 16

/-- `BUFLEN` -/
def bufLen : Nat := sizeofRtMsghdr + 512

/-- `%2.2x` -/
def format2x (b : UInt8) : List Char :=
  [Nat.digitChar (b.toNat / 16), Nat.digitChar (b.toNat % 16)]

/-- The return value `n` of `read`: -1 when it fails. -/
def readLength (answer : Option (List UInt8)) : Int :=
  match answer with
  | none => -1
  | some bytes => (bytes.take bufLen).length

/-- `buf2`, cleared before the `read`. -/
def buf2 (answer : Option (List UInt8)) : List UInt8 :=
  let bytes := (answer.getD []).take bufLen
  bytes ++ List.replicate (bufLen - bytes.length) 0

/-- `ip2mac:`, for what there is to `read` from the route socket. -/
def ip2mac (answer : Option (List UInt8)) : Option String :=
  if readLength answer ≠ 0 then
    let index := sizeofRtMsghdr + sizeofSockaddrInarp + 8
    let macAddress := String.ofList ([':'].intercalate
      ((List.range 6).map fun i => format2x ((buf2 answer).getD (index + i) 0)))
    if macAddress = "00:00:00:00:00:00" ∨ macAddress = "08:00:00:00:00:00" then none
    else some macAddress
  else none

end MacFinder

/-- `PingHelper.start()`, once the continuation is resumed with `isSuccess`. -/
def PingHelper.start (isSuccess : Bool) (answer : Option (List UInt8)) : Bool :=
  if isSuccess ≠ true ∧ MacFinder.ip2mac answer ≠ none then true else isSuccess

end LanScan.Ios
