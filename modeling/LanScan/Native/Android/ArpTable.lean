import LanScan.ForStd.Split
import LanScan.Native.Android.Subnet
import LanScan.Native.Host

/-!
# Reading the ARP table

`LanDeviceScanner.parseAndExtractValidArpFromInputStream`: reads the text of the
neighbour table line by line and keeps the hosts with a valid entry.
-/

namespace LanScan.Android

/-- `\s` in a regular expression on Android: tab, newline, form feed, carriage
    return and the Unicode separators. -/
def isSpace (c : Char) : Bool :=
  c ∈ ['\t', '\n', '\x0c', '\r', ' ', '\u00a0', '\u1680', '\u2028', '\u2029', '\u202f', '\u205f',
    '\u3000'] || 0x2000 ≤ c.toNat && c.toNat ≤ 0x200A

/-- `neighborFailed` -/
def neighborFailed : List Char := "FAILED".toList

/-- `neighborIncomplete` -/
def neighborIncomplete : List Char := "INCOMPLETE".toList

/-- The body of the loop over the lines; an unknown host is `none`. -/
def parseLine (getByName : List Char → Option InetAddress) (line : List Char) : Option Host :=
  let neighborLine := line.splitRuns isSpace
  if 5 < neighborLine.length then
    let ip := neighborLine.getD 0 []
    let macAddress := neighborLine.getD 4 []
    let state := neighborLine.getLastD []
    match getByName ip with
    | none => none
    | some address =>
      if !address.isLinkLocalAddress && !address.isLoopbackAddress then
        if state ≠ neighborFailed ∧ state ≠ neighborIncomplete then
          some { ip := String.ofList ip, mac := some (String.ofList macAddress) }
        else none
      else none
  else none

/-- `parseAndExtractValidArpFromInputStream()`, given the result of `nativeIPNeigh`
    and the text it has written to the pipe. -/
def parseAndExtractValidArpFromInputStream (getByName : List Char → Option InetAddress)
    (returnCode : Int32) (text : List Char) : List Host :=
  if returnCode ≠ 0 then [] else (text.lines '\r' '\n').filterMap (parseLine getByName)

end LanScan.Android
