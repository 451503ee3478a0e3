import LanScan.ForStd.Int
import LanScan.ForStd.List

/-!
# Address arithmetic of the iOS scanner

The values that `LanDeviceScanner.startScanning` computes from `ipv4` and
`cidrPrefixLength`.  A Swift `Int` is an `Int64`; arithmetic that overflows
traps, which is `none` here.  The doubles that occur are integers and powers of
two of exactly representable size.
-/

namespace LanScan.Ios

/-- The result of an arithmetic operation on `Int`, which traps on overflow. -/
def checked (x : Int) : Option Int64 :=
  if -9223372036854775808 ≤ x ∧ x ≤ 9223372036854775807 then some (Int64.ofInt x) else none

/-- Swift's smart shift `<<`: a negative distance shifts to the right, and one of
    64 bits or more shifts everything out. -/
def smartShiftLeft (x n : Int64) : Int64 :=
  -- a shift to the right keeps the sign
  if 0 ≤ n.toInt then Int64.ofBitVec (x.toBitVec <<< n.toInt.toNat)
  else Int64.ofBitVec (x.toBitVec.sshiftRight (-n.toInt).toNat)

/-- `Int(pow(2.0, hostBits))`: a fraction is cut to zero, and a power that is no
    `Int` traps. -/
def powToInt (hostBits : Int) : Option Int :=
  if hostBits < 0 then some 0
  else if hostBits < 63 then some (2 ^ hostBits.toNat)
  else none

/-- The constants of a scan. -/
structure ScanPlan where
  numberOfHosts : Int64
  concurrentThreads : Int64
  firstAddr : Int64
  deriving DecidableEq, Repr

/-- `(0xFFFFFFFF << (32 - cidrPrefixLength)) & 0xFFFFFFFF` -/
def netmask (hostBits : Int64) : Int64 := smartShiftLeft 0xFFFFFFFF hostBits &&& 0xFFFFFFFF

/-- The head of the task's body, up to `0..<concurrentThreads`, which traps on a
    negative upper bound. -/
def scanPlan (ipv4 cidrPrefixLength : Int64) : Option ScanPlan := do
  let hostBits ← checked (32 - cidrPrefixLength.toInt)
  let power ← powToInt hostBits.toInt
  let numberOfHosts ← checked (power - 2)
  let concurrentThreads ← checked (hostBits.toInt * 4)
  let firstAddr ← checked ((ipv4 &&& netmask hostBits).toInt + 1)
  if concurrentThreads.toInt < 0 then none
  else some { numberOfHosts, concurrentThreads, firstAddr }

/-- `stride(from: i, to: numberOfHosts, by: concurrentThreads)`, the loop of one
    worker. -/
def ScanPlan.workerIndices (plan : ScanPlan) (i : Nat) : List Int :=
  List.stride i plan.numberOfHosts.toInt plan.concurrentThreads.toInt

/-- `UInt8((index >> shift) & 0xFF)` -/
def addressByte (index : Int64) (shift : Nat) : UInt8 :=
  UInt8.ofNat (index.toInt / 2 ^ shift % 256).toNat

/-- `getIPAddress(index:)` -/
def getIPAddress (index : Int64) : String :=
  let byte1 := addressByte index 24
  let byte2 := addressByte index 16
  let byte3 := addressByte index 8
  let byte4 := addressByte index 0
  toString byte1.toNat ++ "." ++ toString byte2.toNat ++ "." ++ toString byte3.toNat ++ "." ++
    toString byte4.toNat

/-- `self.getIPAddress(index: firstAddr + index)` -/
def ScanPlan.ipAddress (plan : ScanPlan) (index : Int) : Option String :=
  (checked (plan.firstAddr.toInt + index)).map getIPAddress

end LanScan.Ios
