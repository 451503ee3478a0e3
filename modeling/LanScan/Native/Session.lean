import LanScan.ForStd.Fifo
import LanScan.Native.Host

/-!
# Sessions of a stream handler

On both platforms `onListen` starts a scanner, or without WiFi posts the end of the scan, and
hands its `eventSink` to the closures of what it has started.  `Config` and `Scanner` are the
configuration and the state of a scanner.
-/

namespace LanScan

/-- What one `onListen` has set in motion; its closures all go to its own `eventSink`. -/
inductive Session (Config Scanner : Type) where
  /-- WiFi is there: a scanner was started -/
  | scan (cfg : Config) (scanner : Scanner)
  /-- no WiFi: a null was posted to this queue -/
  | noWifi (queue : Fifo Event)

namespace Session

variable {Config Scanner : Type}

/-- The scanner of the session that a handler refers to. -/
def scannerOf (sessions : List (Session Config Scanner)) (lanDeviceScanner : Option Nat) :
    Option (Nat × Config × Scanner) :=
  match lanDeviceScanner with
  | none => none
  | some i =>
    match sessions[i]? with
    | some (.scan cfg scanner) => some (i, cfg, scanner)
    | _ => none

end Session

end LanScan
